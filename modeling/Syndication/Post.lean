import Syndication.Job.Basic
import Syndication.PublishResult

namespace Syndication

/-- The one record of a job's success. -/
structure Post where
  id : PostId
  jobId : JobId
  accountId : AccountId
  platform : String
  platformPostId : String
  permalink : String
  publishedAt : Timestamp
deriving DecidableEq, Repr

namespace Post

/-- The record of a successful result; an incomplete result and a failure have none. -/
def ofSuccess? (job : Job) (result : PublishResult) (id : PostId) (now : Timestamp) :
    Option Post := do
  guard result.success
  return {
    id := id
    jobId := job.id
    accountId := job.accountId
    platform := job.platform
    platformPostId := ← result.platformPostId
    permalink := ← result.permalink
    publishedAt := now }

def fieldNames : List String :=
  ["id", "publish_job_id", "connected_account_id", "platform", "platform_post_id", "permalink_url",
    "published_at"]

def toJson (post : Post) : Json :=
  .obj
    [("id", post.id.toJson), ("publish_job_id", post.jobId.toJson),
      ("connected_account_id", post.accountId.toJson), ("platform", .str post.platform),
      ("platform_post_id", .str post.platformPostId), ("permalink_url", .str post.permalink),
      ("published_at", post.publishedAt.toJson)]

def ofJson? (json : Json) : Option Post := do
  let record ← Record.ofJson? fieldNames json
  return {
    id := ← record.required "id" PostId.ofJson?
    jobId := ← record.required "publish_job_id" JobId.ofJson?
    accountId := ← record.required "connected_account_id" AccountId.ofJson?
    platform := ← record.required "platform" Json.str?
    platformPostId := ← record.required "platform_post_id" Json.str?
    permalink := ← record.required "permalink_url" Json.str?
    publishedAt := ← record.required "published_at" Timestamp.ofJson? }

end Post

end Syndication
