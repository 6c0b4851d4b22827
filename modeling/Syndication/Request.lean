import Syndication.Fault.Publish
import Syndication.Time.Text

namespace Syndication

/-- The post type of a request that names none. -/
def defaultPostType : String := "POST"

/-- A request to publish one content item through one connected account. -/
structure Request where
  eventId : EventId
  userId : UserId
  contentId : ContentId
  accountId : AccountId
  /-- The key of a platform, looked up when the job is carried out. -/
  platform : String
  scheduledAt : Timestamp
  postType : Option String := none
  /-- Requests with the same key stand for the same job. -/
  idempotencyKey : Option String := none
  /-- Zero for the first submission, and one more for each retry. -/
  attempt : UInt32 := 0
  /-- The retry budget, if this request sets its own. -/
  maxRetries : Option UInt32 := none
deriving DecidableEq, Repr

namespace Request

def effectivePostType (request : Request) : String := request.postType.getD defaultPostType

/-- Refuses requests that cannot become a job; the first fault in the order platform, key, post
type is the one reported. -/
def validate (request : Request) : Except PublishError Unit :=
  if Text.isBlankText request.platform then
    .error (.invalidRequest "platform" "must not be empty")
  else if request.idempotencyKey.any Text.isBlankText then
    .error (.invalidRequest "idempotency_key" "must not be blank when present")
  else if request.postType.any Text.isBlankText then
    .error (.invalidRequest "post_type" "must not be blank when present")
  else .ok ()

def fieldNames : List String :=
  ["event_id", "user_id", "content_item_id", "connected_account_id", "platform", "scheduled_at",
    "post_type", "idempotency_key", "attempt", "max_retries"]

/-- Absent options are left out. -/
def toJson (request : Request) : Json :=
  .obj <|
    [("event_id", request.eventId.toJson), ("user_id", request.userId.toJson),
      ("content_item_id", request.contentId.toJson),
      ("connected_account_id", request.accountId.toJson), ("platform", .str request.platform),
      ("scheduled_at", request.scheduledAt.toJson)] ++
    Json.optionalField "post_type" .str request.postType ++
    Json.optionalField "idempotency_key" .str request.idempotencyKey ++
    [("attempt", .ofNat request.attempt.toNat)] ++
    Json.optionalField "max_retries" (fun n => .ofNat n.toNat) request.maxRetries

def ofJson? (json : Json) : Option Request := do
  let record ← Record.ofJson? fieldNames json
  return {
    eventId := ← record.required "event_id" EventId.ofJson?
    userId := ← record.required "user_id" UserId.ofJson?
    contentId := ← record.required "content_item_id" ContentId.ofJson?
    accountId := ← record.required "connected_account_id" AccountId.ofJson?
    platform := ← record.required "platform" Json.str?
    scheduledAt := ← record.required "scheduled_at" Timestamp.ofJson?
    postType := ← record.defaultedOptional "post_type" Json.str?
    idempotencyKey := ← record.defaultedOptional "idempotency_key" Json.str?
    attempt := ← record.defaulted "attempt" 0 Json.count?
    maxRetries := ← record.defaultedOptional "max_retries" Json.count? }

end Request

end Syndication
