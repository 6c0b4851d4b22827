import Syndication.Event.Basic

namespace Syndication

namespace StartedEvent

def fieldNames : List String := ["event_id", "user_id", "publish_job_id", "platform", "started_at"]

def toJson (e : StartedEvent) : Json :=
  .obj
    [("event_id", e.eventId.toJson), ("user_id", e.userId.toJson),
      ("publish_job_id", e.jobId.toJson), ("platform", .str e.platform),
      ("started_at", e.startedAt.toJson)]

def ofJson? (json : Json) : Option StartedEvent := do
  let record ← Record.ofJson? fieldNames json
  return {
    eventId := ← record.required "event_id" EventId.ofJson?
    userId := ← record.required "user_id" UserId.ofJson?
    jobId := ← record.required "publish_job_id" JobId.ofJson?
    platform := ← record.required "platform" Json.str?
    startedAt := ← record.required "started_at" Timestamp.ofJson? }

end StartedEvent

namespace SucceededEvent

def fieldNames : List String :=
  ["event_id", "user_id", "publish_job_id", "platform", "platform_post_id", "permalink",
    "published_at"]

def toJson (e : SucceededEvent) : Json :=
  .obj
    [("event_id", e.eventId.toJson), ("user_id", e.userId.toJson),
      ("publish_job_id", e.jobId.toJson), ("platform", .str e.platform),
      ("platform_post_id", .str e.platformPostId), ("permalink", .str e.permalink),
      ("published_at", e.publishedAt.toJson)]

def ofJson? (json : Json) : Option SucceededEvent := do
  let record ← Record.ofJson? fieldNames json
  return {
    eventId := ← record.required "event_id" EventId.ofJson?
    userId := ← record.required "user_id" UserId.ofJson?
    jobId := ← record.required "publish_job_id" JobId.ofJson?
    platform := ← record.required "platform" Json.str?
    platformPostId := ← record.required "platform_post_id" Json.str?
    permalink := ← record.required "permalink" Json.str?
    publishedAt := ← record.required "published_at" Timestamp.ofJson? }

end SucceededEvent

namespace FailedEvent

def fieldNames : List String :=
  ["event_id", "user_id", "publish_job_id", "platform", "error", "error_kind", "retryable",
    "failed_at"]

def toJson (e : FailedEvent) : Json :=
  .obj
    [("event_id", e.eventId.toJson), ("user_id", e.userId.toJson),
      ("publish_job_id", e.jobId.toJson), ("platform", .str e.platform), ("error", .str e.error),
      ("error_kind", e.errorKind.toJson), ("retryable", .bool e.retryable),
      ("failed_at", e.failedAt.toJson)]

def ofJson? (json : Json) : Option FailedEvent := do
  let record ← Record.ofJson? fieldNames json
  return {
    eventId := ← record.required "event_id" EventId.ofJson?
    userId := ← record.required "user_id" UserId.ofJson?
    jobId := ← record.required "publish_job_id" JobId.ofJson?
    platform := ← record.required "platform" Json.str?
    error := ← record.required "error" Json.str?
    errorKind := ← record.required "error_kind" FailureKind.ofJson?
    retryable := ← record.required "retryable" Json.bool?
    failedAt := ← record.required "failed_at" Timestamp.ofJson? }

end FailedEvent

namespace RetryEvent

def fieldNames : List String :=
  ["event_id", "user_id", "publish_job_id", "platform", "reason", "content_item_id",
    "connected_account_id", "post_type", "idempotency_key", "next_attempt", "max_retries",
    "requested_at"]

def toJson (e : RetryEvent) : Json :=
  .obj
    [("event_id", e.eventId.toJson), ("user_id", e.userId.toJson),
      ("publish_job_id", e.jobId.toJson), ("platform", .str e.platform), ("reason", .str e.reason),
      ("content_item_id", e.contentId.toJson), ("connected_account_id", e.accountId.toJson),
      ("post_type", .str e.postType), ("idempotency_key", .orNull .str e.idempotencyKey),
      ("next_attempt", .ofNat e.nextAttempt.toNat), ("max_retries", .ofNat e.maxRetries.toNat),
      ("requested_at", e.requestedAt.toJson)]

def ofJson? (json : Json) : Option RetryEvent := do
  let record ← Record.ofJson? fieldNames json
  return {
    eventId := ← record.required "event_id" EventId.ofJson?
    userId := ← record.required "user_id" UserId.ofJson?
    jobId := ← record.required "publish_job_id" JobId.ofJson?
    platform := ← record.required "platform" Json.str?
    reason := ← record.required "reason" Json.str?
    contentId := ← record.required "content_item_id" ContentId.ofJson?
    accountId := ← record.required "connected_account_id" AccountId.ofJson?
    postType := ← record.required "post_type" Json.str?
    idempotencyKey := ← record.optional "idempotency_key" Json.str?
    nextAttempt := ← record.required "next_attempt" Json.count?
    maxRetries := ← record.required "max_retries" Json.count?
    requestedAt := ← record.required "requested_at" Timestamp.ofJson? }

end RetryEvent

/-- The event without its type name. -/
def Event.payload : Event → Json
  | .started e => e.toJson
  | .succeeded e => e.toJson
  | .failed e => e.toJson
  | .retryRequested e => e.toJson

end Syndication
