import Syndication.Fault.Platform
import Syndication.Http.Message
import Syndication.Json.Document
import Syndication.Platform
import Syndication.PublishResult

namespace Syndication.Refusal

/-- The longest part of a body that is put into messages, in characters. -/
def excerptLength : Nat := 500

/-- The reasons by which quotas are reported. -/
def quotaReasons : List String :=
  ["quotaExceeded", "rateLimitExceeded", "userRateLimitExceeded", "dailyLimitExceeded"]

/-- The error codes of throttled applications, users and pages. -/
def throttleCodes : List Int := [4, 17, 32, 613, 80001]

/-- The error code of a token that is invalid or expired. -/
def invalidTokenCode : Int := 190

/-- The error object of a body. -/
def errorOf? (body : String) : Option Json :=
  ((Json.ofText? body).bind (Json.document? Json.maxDepth)).bind (Json.field? "error")

def codeOf? (error : Json) : Option Int := (error.field? "code").bind Json.signed?

/-- Whether an entry of the list of errors names a quota. -/
def namesQuota (entry : Json) : Bool :=
  ((entry.field? "reason").bind Json.str?).any quotaReasons.contains

/-- Whether the list of errors names a quota. -/
def listsQuota (error : Json) : Bool :=
  match error.field? "errors" with
  | some (.arr entries) => entries.any namesQuota
  | _ => false

def isQuota (error : Json) : Bool :=
  (codeOf? error).any throttleCodes.contains || listsQuota error

/-- The kind of a refusal; none for a status that is neither the client's nor the server's
fault. -/
def kind? (status : Nat) (body : String) : Option FailureKind :=
  let error := errorOf? body
  if status == 429 || error.any isQuota then some .rateLimited
  else if status == 401 || error.bind codeOf? == some invalidTokenCode then some .auth
  else if 500 ≤ status && status ≤ 599 then some .transientNetwork
  else if 400 ≤ status && status ≤ 499 then some .permanentPlatform
  else none

def excerpt (body : String) : String := .ofList (body.toList.take excerptLength)

/-- The result of a step that was not answered with success. -/
def result (platform : Platform) (step : String) (reply : Http.Reply) :
    Except PlatformError PublishResult :=
  match kind? reply.status reply.text with
  | some kind =>
    .ok (.failed kind
      s!"{platform.name} {step} failed with status {reply.status}: {excerpt reply.text}")
  | none =>
    .error (.unexpectedResponse reply.status s!"{platform.name} {step}: {excerpt reply.text}")

end Syndication.Refusal
