import Syndication.Records

namespace Syndication.Announcement

/-- The envelope in which an event of a job is sent. -/
def envelope (job : Job) (event : Event) : Envelope :=
  ((Envelope.ofEvent event).withCorrelationId job.id.text).withUserId job.userId.text

def send (job : Job) (event : Event) : Action Records Unit :=
  .delivered (Records.send (envelope job event))

/-- A time that is known, or the current one. -/
def timeOf (known : Option Timestamp) : Program Records Timestamp :=
  match known with
  | some time => .done time
  | none => Records.now

def started (job : Job) : Action Records StartedEvent := do
  let id ← .always Records.freshId
  let startedAt ← .always (timeOf job.startedAt)
  let event : StartedEvent := {
    eventId := .ofUuid id
    userId := job.userId
    jobId := job.id
    platform := job.platform
    startedAt }
  send job (.started event)
  return event

def succeeded (job : Job) (post : Post) : Action Records SucceededEvent := do
  let id ← .always Records.freshId
  let event : SucceededEvent := {
    eventId := .ofUuid id
    userId := job.userId
    jobId := job.id
    platform := job.platform
    platformPostId := post.platformPostId
    permalink := post.permalink
    publishedAt := post.publishedAt }
  send job (.succeeded event)
  return event

/-- Announces a failure. The message is the stored one, with its tag. -/
def failed (job : Job) (kind : FailureKind) (message : String) : Action Records FailedEvent := do
  let id ← .always Records.freshId
  let failedAt ← .always (timeOf job.finishedAt)
  let event : FailedEvent := {
    eventId := .ofUuid id
    userId := job.userId
    jobId := job.id
    platform := job.platform
    error := message
    errorKind := kind
    retryable := kind.isRetryable
    failedAt }
  send job (.failed event)
  return event

/-- Asks for the attempt after this one. -/
def retryRequested (job : Job) (reason : String) : Action Records RetryEvent := do
  let id ← .always Records.freshId
  let requestedAt ← .always Records.now
  let event : RetryEvent := {
    eventId := .ofUuid id
    userId := job.userId
    jobId := job.id
    platform := job.platform
    reason
    contentId := job.contentId
    accountId := job.accountId
    postType := job.postType
    idempotencyKey := job.idempotencyKey
    nextAttempt := job.retryCount + 1
    maxRetries := job.maxRetries
    requestedAt }
  send job (.retryRequested event)
  return event

end Syndication.Announcement
