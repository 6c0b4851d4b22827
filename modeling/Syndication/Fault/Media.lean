import Syndication.FailureKind

namespace Syndication

/-- Why media could not be read. -/
inductive MediaError where
  | notFound (path : String)
  /-- The path points outside of media storage, or nowhere. -/
  | invalidPath (path : String)
  | io (detail : String)
deriving DecidableEq, Repr

namespace MediaError

/-- A bad path stays bad; a failed reading may succeed another time. -/
def kind : MediaError → FailureKind
  | .notFound _ | .invalidPath _ => .configuration
  | .io _ => .transientNetwork

/-- The name of the cause. -/
def name : MediaError → String
  | .notFound _ => "NotFound"
  | .invalidPath _ => "InvalidPath"
  | .io _ => "Io"

def message : MediaError → String
  | .notFound path => s!"Media not found: {path}"
  | .invalidPath path => s!"Invalid media path: {path}"
  | .io detail => s!"Media read failed: {detail}"

end MediaError

end Syndication
