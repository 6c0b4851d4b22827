import Syndication.FailureKind

namespace Syndication

/-- What a platform said to one publish call. A result that comes from JSON may lack any part. -/
structure PublishResult where
  success : Bool
  platformPostId : Option String
  permalink : Option String
  errorMessage : Option String
  failureKind : Option FailureKind
deriving DecidableEq, Repr

namespace PublishResult

/-- The platform took the post. -/
def published (platformPostId permalink : String) : PublishResult :=
  ⟨true, some platformPostId, some permalink, none, none⟩

/-- The post was refused, by the platform or before it was sent. -/
def failed (kind : FailureKind) (message : String) : PublishResult :=
  ⟨false, none, none, some message, some kind⟩

def rateLimited (message : String) : PublishResult := failed .rateLimited message

def rejected (message : String) : PublishResult := failed .permanentPlatform message

def fieldNames : List String :=
  ["success", "platform_post_id", "permalink", "error_message", "failure_kind"]

def toJson (result : PublishResult) : Json :=
  .obj
    [("success", .bool result.success),
      ("platform_post_id", .orNull .str result.platformPostId),
      ("permalink", .orNull .str result.permalink),
      ("error_message", .orNull .str result.errorMessage),
      ("failure_kind", .orNull FailureKind.toJson result.failureKind)]

def ofJson? (json : Json) : Option PublishResult := do
  let record ← Record.ofJson? fieldNames json
  return {
    success := ← record.required "success" Json.bool?
    platformPostId := ← record.optional "platform_post_id" Json.str?
    permalink := ← record.optional "permalink" Json.str?
    errorMessage := ← record.optional "error_message" Json.str?
    failureKind := ← record.optional "failure_kind" FailureKind.ofJson? }

end PublishResult

end Syndication
