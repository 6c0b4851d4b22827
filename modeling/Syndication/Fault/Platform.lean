import Syndication.FailureKind

namespace Syndication

/-- What a publisher could not make sense of. A refusal that a platform explains is a result, and no
error. -/
inductive PlatformError where
  | network (detail : String)
  | timeout (detail : String)
  /-- Something that the publisher depends on did not work. -/
  | dependency (detail : String)
  | unexpectedResponse (status : Nat) (detail : String)
  | internal (detail : String)
deriving DecidableEq, Repr

namespace PlatformError

def kind : PlatformError → FailureKind
  | .network _ | .timeout _ | .dependency _ | .unexpectedResponse .. => .transientNetwork
  | .internal _ => .configuration

/-- The name of the cause. -/
def name : PlatformError → String
  | .network _ => "Network"
  | .timeout _ => "Timeout"
  | .dependency _ => "Dependency"
  | .unexpectedResponse .. => "UnexpectedResponse"
  | .internal _ => "Internal"

def message : PlatformError → String
  | .network detail => s!"Network error: {detail}"
  | .timeout detail => s!"Request timed out: {detail}"
  | .dependency detail => s!"Dependency unavailable: {detail}"
  | .unexpectedResponse status detail => s!"Unexpected response (status {status}): {detail}"
  | .internal detail => s!"Strategy misconfigured: {detail}"

end PlatformError

end Syndication
