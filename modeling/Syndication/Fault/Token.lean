import Syndication.FailureKind
import Syndication.Platform

namespace Syndication

/-- Why a token endpoint granted no token. -/
inductive TokenError where
  /-- The endpoint refused the refresh token. -/
  | rejected (status : Nat) (body : String)
  | rateLimited (body : String)
  | unavailable (status : Nat) (body : String)
  | network (detail : String)
  /-- No answer within so many seconds. -/
  | timeout (seconds : Nat)
  | notConfigured (platform : Platform)
  | malformedResponse (detail : String)
deriving DecidableEq, Repr

namespace TokenError

def kind : TokenError → FailureKind
  | .rejected .. => .auth
  | .rateLimited _ => .rateLimited
  | .unavailable .. | .network _ | .timeout _ | .malformedResponse _ => .transientNetwork
  | .notConfigured _ => .configuration

/-- The name of the cause. -/
def name : TokenError → String
  | .rejected .. => "Rejected"
  | .rateLimited _ => "RateLimited"
  | .unavailable .. => "Unavailable"
  | .network _ => "Network"
  | .timeout _ => "Timeout"
  | .notConfigured _ => "NotConfigured"
  | .malformedResponse _ => "MalformedResponse"

def message : TokenError → String
  | .rejected status body => s!"token endpoint rejected the grant ({status}): {body}"
  | .rateLimited body => s!"token endpoint rate limited the refresh: {body}"
  | .unavailable status body => s!"token endpoint unavailable ({status}): {body}"
  | .network detail => s!"token endpoint unreachable: {detail}"
  | .timeout seconds => s!"token refresh timed out after {seconds}s"
  | .notConfigured platform => s!"no OAuth client configured for {platform.name}"
  | .malformedResponse detail => s!"malformed token response: {detail}"

end TokenError

end Syndication
