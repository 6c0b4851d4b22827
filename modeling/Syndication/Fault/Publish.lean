import Syndication.FailureKind
import Syndication.Fault.Service
import Syndication.Id

namespace Syndication

/-- Why a job could not be created or carried out. -/
inductive PublishError where
  | invalidRequest (field message : String)
  | idempotencyConflict (key : String) (existing : JobId)
  | accountNotFound (account : AccountId)
  | missingRefreshToken (account : AccountId)
  | refreshFailed (account : AccountId) (kind : FailureKind) (body : String)
  | unknownPlatform (key : String)
  | platform (kind : FailureKind) (message : String)
  | persistence (fault : ServiceFault)
  | eventPublish (fault : ServiceFault)
deriving DecidableEq, Repr

namespace PublishError

def kind : PublishError → FailureKind
  | .invalidRequest .. | .idempotencyConflict .. | .accountNotFound _ | .missingRefreshToken _
  | .unknownPlatform _ => .configuration
  | .refreshFailed _ kind _ => kind
  | .platform kind _ => kind
  | .persistence _ | .eventPublish _ => .transientNetwork

/-- The name of the cause. -/
def name : PublishError → String
  | .invalidRequest .. => "InvalidRequest"
  | .idempotencyConflict .. => "IdempotencyConflict"
  | .accountNotFound _ => "AccountNotFound"
  | .missingRefreshToken _ => "MissingRefreshToken"
  | .refreshFailed .. => "RefreshFailed"
  | .unknownPlatform _ => "UnknownPlatform"
  | .platform .. => "Platform"
  | .persistence _ => "Repository"
  | .eventPublish _ => "EventPublish"

def message : PublishError → String
  | .invalidRequest field message => s!"Invalid publish request: {field} {message}"
  | .idempotencyConflict key existing =>
    s!"Idempotency key '{key}' belongs to job {existing.text} of a different request"
  | .accountNotFound account => s!"Connected account {account.text} not found"
  | .missingRefreshToken account =>
    s!"Connected account {account.text} has no refresh token stored"
  | .refreshFailed account _ body => s!"Token refresh failed for account {account.text}: {body}"
  | .unknownPlatform key => s!"No publisher registered for platform '{key}'"
  | .platform _ message => s!"Platform call failed: {message}"
  | .persistence fault => s!"Persistence failure: {fault.display}"
  | .eventPublish fault => s!"Event publishing failed: {fault.display}"

/-- The message with the tag of its kind, as it is stored and sent. -/
def taggedMessage (error : PublishError) : String := error.kind.tagMessage error.message

end PublishError

end Syndication
