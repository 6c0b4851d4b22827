import Syndication.Post

namespace Syndication

structure StartedEvent where
  eventId : EventId
  userId : UserId
  jobId : JobId
  platform : String
  startedAt : Timestamp
deriving DecidableEq, Repr

structure SucceededEvent where
  eventId : EventId
  userId : UserId
  jobId : JobId
  platform : String
  platformPostId : String
  permalink : String
  publishedAt : Timestamp
deriving DecidableEq, Repr

structure FailedEvent where
  eventId : EventId
  userId : UserId
  jobId : JobId
  platform : String
  /-- The stored message with its tag. -/
  error : String
  errorKind : FailureKind
  retryable : Bool
  failedAt : Timestamp
deriving DecidableEq, Repr

/-- All that is needed to submit the next attempt. -/
structure RetryEvent where
  eventId : EventId
  userId : UserId
  jobId : JobId
  platform : String
  reason : String
  contentId : ContentId
  accountId : AccountId
  postType : String
  idempotencyKey : Option String
  nextAttempt : UInt32
  maxRetries : UInt32
  requestedAt : Timestamp
deriving DecidableEq, Repr

/-- An event that this program sends. -/
inductive Event where
  | started (event : StartedEvent)
  | succeeded (event : SucceededEvent)
  | failed (event : FailedEvent)
  | retryRequested (event : RetryEvent)
deriving DecidableEq, Repr

/-- What separates the key of a first attempt from the number of a later one. -/
def attemptMark : String := "#attempt-"

namespace RetryEvent

/-- The key of the next attempt: the part before the first attempt mark, and the number of the
attempt. A key of its own makes the attempt a job of its own. -/
def nextKey (key : String) (attempt : UInt32) : String :=
  .ofList (Text.beforeFirst attemptMark.toList key.toList ++ attemptMark.toList ++
    Text.decimal attempt.toNat)

/-- The request for the next attempt. -/
def nextRequest (event : RetryEvent) (id : EventId) (scheduledAt : Timestamp) : Request where
  eventId := id
  userId := event.userId
  contentId := event.contentId
  accountId := event.accountId
  platform := event.platform
  scheduledAt := scheduledAt
  postType := some event.postType
  idempotencyKey := event.idempotencyKey.map (nextKey · event.nextAttempt)
  attempt := event.nextAttempt
  maxRetries := some event.maxRetries

end RetryEvent

namespace Event

/-- The name of the kind of event, with its version. -/
def typeName : Event → String
  | .started _ => "publish.started.v1"
  | .succeeded _ => "publish.succeeded.v1"
  | .failed _ => "publish.failed.v1"
  | .retryRequested _ => "publish.retry_requested.v1"

def eventId : Event → EventId
  | .started e => e.eventId
  | .succeeded e => e.eventId
  | .failed e => e.eventId
  | .retryRequested e => e.eventId

def jobId : Event → JobId
  | .started e => e.jobId
  | .succeeded e => e.jobId
  | .failed e => e.jobId
  | .retryRequested e => e.jobId

def occurredAt : Event → Timestamp
  | .started e => e.startedAt
  | .succeeded e => e.publishedAt
  | .failed e => e.failedAt
  | .retryRequested e => e.requestedAt

end Event

end Syndication
