import Syndication.Proofs.Renewals
import Syndication.Proofs.Owners
import Syndication.Proofs.PublishCalls
import Syndication.Proofs.Envelopes
import Syndication.Proofs.JsonText
import Syndication.Proofs.TimeText
import Syndication.Account.Row
import Syndication.Broker
import Syndication.Media.FileTree
import Syndication.Proofs.Agreement
import Syndication.Proofs.FailedWithPost
import Syndication.Proofs.Redelivery
import Syndication.Rehearsal.Company
import Syndication.Settings.App
import Syndication.Proofs.Chronicle
import Syndication.Proofs.Deeds
import Syndication.Proofs.Closing
import Syndication.Proofs.Course
import Syndication.Proofs.Histories
import Syndication.Proofs.EventProtocol
import Syndication.Proofs.AttemptKeys
import Syndication.Proofs.NextAttempt
import Syndication.Proofs.RetryKeys
import Syndication.Proofs.Working
import Syndication.Proofs.Undisturbed
import Syndication.Proofs.Lineage
import Syndication.Proofs.Tags
import Syndication.Proofs.Classification
import Syndication.Proofs.Opening
import Syndication.Proofs.Creation
import Syndication.Proofs.Alone
import Syndication.Proofs.Resumption
import Syndication.Proofs.InTurn
import Syndication.Proofs.Protocols
import Syndication.Proofs.TakenPosts
import Syndication.Proofs.StartStamp
import Syndication.Proofs.Stamps
import Syndication.Proofs.Timekeeping
import Syndication.Proofs.RowInvariant
import Syndication.Proofs.TokenDesk
import Syndication.Proofs.Returns
import Syndication.Proofs.SingleRenewal
import Syndication.Proofs.Custody
import Syndication.Proofs.RequestText
import Syndication.Proofs.Lifetimes
import Syndication.Proofs.Frame
import Syndication.Proofs.AllOrNothing
import Syndication.Proofs.RefreshBuffers
import Syndication.Proofs.RefreshTokens
import Syndication.Proofs.SuccessReports
import Syndication.Proofs.Veils
import Syndication.Proofs.Secrets
import Syndication.Proofs.RequestMatching
import Syndication.Proofs.JobWrites
import Syndication.Proofs.Refusals
import Syndication.Proofs.Sendings
import Syndication.Proofs.Marks
import Syndication.Proofs.MediaPaths
import Syndication.Proofs.FormText
import Syndication.Proofs.Registrations
import Syndication.Proofs.LockKeeping
import Syndication.Proofs.Batches
