import Syndication.Event.Announcement
import Syndication.Ledger
import Syndication.Publisher.Registry
import Syndication.Token.Renewal

namespace Syndication

inductive Outcome where
  | published (post : Post)
  /-- The message is the stored one, with its tag. -/
  | failed (kind : FailureKind) (message : String) (retryRequested : Bool)
  /-- The job had come to its end before this execution had a part in it. -/
  | alreadyCompleted
deriving DecidableEq, Repr

namespace Outcome

def name : Outcome → String
  | .published _ => "Published"
  | .failed .. => "Failed"
  | .alreadyCompleted => "AlreadyCompleted"

end Outcome

/-- What one execution did, with the job as it is stored. -/
structure Execution where
  job : Job
  outcome : Outcome
deriving DecidableEq, Repr

/-- The settings and the publishers of executions. -/
structure Engine where
  /-- The publishers, each known by its platform. -/
  registry : Registry Platform
  /-- The retry budget of requests that set none. -/
  retryBudget : UInt32
  renewal : RenewalPolicy

namespace Engine

variable (engine : Engine)

/-- Refuses an account of a platform other than the job's. A job for an unknown platform is left
to the registry. -/
def checkPlatform (job : Job) (account : Account) : Except PublishError Unit :=
  match Platform.ofKey job.platform with
  | .ok platform =>
    if platform = account.platform then .ok ()
    else
      .error (.invalidRequest "platform"
        (s!"job targets {platform.name} but connected account {account.id.text} " ++
          s!"belongs to {account.platform.name}"))
  | .error _ => .ok ()

/-- Goes on after announcing, whether or not the announcement was taken; answers whether it was. -/
def tryAnnounce {α : Type} (announcement : Action Records α) : Action Services Bool :=
  .always ((announcement.toServices.run).bind fun outcome => .done outcome.toBool)

/-- One attempt to publish what a job is for. -/
def attempt (job : Job) (request : Request) : Action Services PublishResult := do
  match ← .persisted (Services.getAccount job.accountId) with
  | none => throw (.accountNotFound job.accountId)
  | some account =>
    .ofExcept (checkPlatform job account)
    let token ← engine.renewal.validToken account
    let publisher ← .ofExcept (engine.registry.resolve job.platform)
    match ← .always (Services.publish publisher ⟨request, account, token⟩) with
    | .ok result => return result
    | .error error => throw (.platform error.kind error.message)

/-- The kind that a stored message tells; a message without a tag counts as a refusal by the
platform. -/
def storedKind (message : String) : FailureKind :=
  match FailureKind.splitTagged message with
  | some (kind, _) => kind
  | none => .permanentPlatform

/-- Announces the end that another delivery stored. -/
def reportStored (job : Job) : Action Services Execution := do
  match job.status with
  | .success =>
    match ← (Ledger.postOf job).toServices with
    | none => return ⟨job, .alreadyCompleted⟩
    | some post =>
      let _ ← tryAnnounce (Announcement.succeeded job post)
      return ⟨job, .published post⟩
  | .failed =>
    let message := job.lastError.getD ""
    let kind := storedKind message
    let _ ← tryAnnounce (Announcement.failed job kind message)
    return ⟨job, .failed kind message false⟩
  | .pending => return ⟨job, .alreadyCompleted⟩

/-- Stores and announces a success. -/
def completeSuccess (job : Job) (result : PublishResult) : Action Services Execution := do
  match ← (Ledger.succeed job result).toServices with
  | (job, none) => reportStored job
  | (job, some post) =>
    let _ ← tryAnnounce (Announcement.succeeded job post)
    return ⟨job, .published post⟩

/-- Stores and announces a failure, and asks for a retry if it is worth one. -/
def completeFailure (job : Job) (kind : FailureKind) (message : String) :
    Action Services Execution := do
  let tagged := kind.tagMessage message
  match ← (Ledger.fail job tagged).toServices with
  | (job, false) => reportStored job
  | (job, true) =>
    let _ ← tryAnnounce (Announcement.failed job kind tagged)
    if kind.isRetryable && job.hasRetryBudget then
      let taken ← tryAnnounce (Announcement.retryRequested job tagged)
      return ⟨job, .failed kind tagged taken⟩
    else return ⟨job, .failed kind tagged false⟩

/-- Brings a job to the end that its attempt calls for. -/
def complete (job : Job) : Except PublishError PublishResult → Action Services Execution
  | .ok result =>
    if result.success then completeSuccess job result
    else
      completeFailure job (result.failureKind.getD .permanentPlatform)
        (result.errorMessage.getD "platform rejected the post")
  | .error error => completeFailure job error.kind error.message

/-- Carries out a request. It fails without an end of the job when no job could be opened or
started, when the start could not be announced, or when the end could not be stored. -/
def execute (request : Request) : Action Services Execution := do
  let job ← (Ledger.openJob engine.retryBudget request).toServices
  if job.isTerminal then return ⟨job, .alreadyCompleted⟩
  else
    let job ← (Ledger.start job).toServices
    if job.isTerminal then return ⟨job, .alreadyCompleted⟩
    else
      let _ ← (Announcement.started job).toServices
      let outcome ← .always (engine.attempt job request).run
      complete job outcome

end Engine

end Syndication
