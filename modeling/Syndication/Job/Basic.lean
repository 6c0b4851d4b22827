import Syndication.Job.Status
import Syndication.Request

namespace Syndication

/-- The durable record of one attempt to publish. What a job is for never changes after its
creation. -/
structure Job where
  id : JobId
  userId : UserId
  accountId : AccountId
  contentId : ContentId
  platform : String
  postType : String
  status : JobStatus
  maxRetries : UInt32
  /-- Which attempt this job is; the first one is zero. -/
  retryCount : UInt32
  idempotencyKey : Option String
  scheduledAt : Timestamp
  startedAt : Option Timestamp
  finishedAt : Option Timestamp
  lastError : Option String
  createdAt : Timestamp
  updatedAt : Timestamp
deriving DecidableEq, Repr

namespace Job

/-- The retry budget of jobs whose request sets none, unless configured otherwise. -/
def defaultMaxRetries : UInt32 := 3

/-- A pending job for a request. -/
def ofRequest (request : Request) (maxRetries : UInt32) (id : JobId) (now : Timestamp) : Job where
  id := id
  userId := request.userId
  accountId := request.accountId
  contentId := request.contentId
  platform := Text.trim request.platform
  postType := request.effectivePostType
  status := .pending
  maxRetries := request.maxRetries.getD maxRetries
  retryCount := request.attempt
  idempotencyKey := request.idempotencyKey
  scheduledAt := request.scheduledAt
  startedAt := none
  finishedAt := none
  lastError := none
  createdAt := now
  updatedAt := now

def isTerminal (job : Job) : Bool := job.status.isTerminal

/-- Whether the job was made for the same content, account and platform as the request asks for. A
key that is used again for something else shows by this. -/
def matchesRequest (job : Job) (request : Request) : Bool :=
  job.userId == request.userId && job.accountId == request.accountId &&
    job.contentId == request.contentId &&
    Text.sameLetters job.platform (Text.trim request.platform) &&
    job.postType == request.effectivePostType

def hasRetryBudget (job : Job) : Bool := job.retryCount < job.maxRetries

/-- Attempts left after this one. -/
def retryBudget (job : Job) : Nat := job.maxRetries.toNat - job.retryCount.toNat

/-- The job with its start stamp, and whether the stamp is new. -/
def markStarted (job : Job) (now : Timestamp) : Job × Bool :=
  if job.isTerminal || job.startedAt.isSome then (job, false)
  else ({ job with startedAt := some now, updatedAt := now }, true)

/-- The job as a success, and whether it was pending until now. -/
def markSuccess (job : Job) (now : Timestamp) : Job × Bool :=
  if job.status.canBecome .success then
    ({ job with
        status := .success
        startedAt := some (job.startedAt.getD now)
        finishedAt := some now
        lastError := none
        updatedAt := now }, true)
  else (job, false)

/-- The job as a failure with this message, and whether it was pending until now. -/
def markFailure (job : Job) (message : String) (now : Timestamp) : Job × Bool :=
  if job.status.canBecome .failed then
    ({ job with
        status := .failed
        finishedAt := some now
        lastError := some message
        updatedAt := now }, true)
  else (job, false)

def fieldNames : List String :=
  ["id", "user_id", "connected_account_id", "content_item_id", "platform", "post_type", "status",
    "max_retries", "current_retry_count", "idempotency_key", "scheduled_at", "started_at",
    "finished_at", "last_error_message", "created_at", "updated_at"]

def toJson (job : Job) : Json :=
  .obj
    [("id", job.id.toJson), ("user_id", job.userId.toJson),
      ("connected_account_id", job.accountId.toJson), ("content_item_id", job.contentId.toJson),
      ("platform", .str job.platform), ("post_type", .str job.postType),
      ("status", job.status.toJson), ("max_retries", .ofNat job.maxRetries.toNat),
      ("current_retry_count", .ofNat job.retryCount.toNat),
      ("idempotency_key", .orNull .str job.idempotencyKey),
      ("scheduled_at", job.scheduledAt.toJson),
      ("started_at", .orNull Timestamp.toJson job.startedAt),
      ("finished_at", .orNull Timestamp.toJson job.finishedAt),
      ("last_error_message", .orNull .str job.lastError), ("created_at", job.createdAt.toJson),
      ("updated_at", job.updatedAt.toJson)]

def ofJson? (json : Json) : Option Job := do
  let record ← Record.ofJson? fieldNames json
  return {
    id := ← record.required "id" JobId.ofJson?
    userId := ← record.required "user_id" UserId.ofJson?
    accountId := ← record.required "connected_account_id" AccountId.ofJson?
    contentId := ← record.required "content_item_id" ContentId.ofJson?
    platform := ← record.required "platform" Json.str?
    postType := ← record.required "post_type" Json.str?
    status := ← record.required "status" JobStatus.ofJson?
    maxRetries := ← record.required "max_retries" Json.count?
    retryCount := ← record.required "current_retry_count" Json.count?
    idempotencyKey := ← record.optional "idempotency_key" Json.str?
    scheduledAt := ← record.required "scheduled_at" Timestamp.ofJson?
    startedAt := ← record.optional "started_at" Timestamp.ofJson?
    finishedAt := ← record.optional "finished_at" Timestamp.ofJson?
    lastError := ← record.optional "last_error_message" Json.str?
    createdAt := ← record.required "created_at" Timestamp.ofJson?
    updatedAt := ← record.required "updated_at" Timestamp.ofJson? }

end Job

end Syndication
