import Syndication.Json.Record
import Syndication.Text.Blank
import Syndication.Text.Search

namespace Syndication

/-- Why an attempt failed, seen by the decision whether to try again. -/
inductive FailureKind where
  /-- Something is missing or set up wrongly on our side. -/
  | configuration
  /-- The platform refused our credentials. -/
  | auth
  /-- A rate limit or a quota is used up. -/
  | rateLimited
  /-- A timeout, a lost connection, a server out of order. -/
  | transientNetwork
  /-- The platform refused the content itself. -/
  | permanentPlatform
deriving DecidableEq, Repr

namespace FailureKind

def all : List FailureKind :=
  [.configuration, .auth, .rateLimited, .transientNetwork, .permanentPlatform]

/-- Whether another attempt can succeed before anyone mends something. -/
def isRetryable : FailureKind → Bool
  | .rateLimited | .transientNetwork => true
  | _ => false

def tag : FailureKind → String
  | .configuration => "CONFIGURATION"
  | .auth => "AUTH"
  | .rateLimited => "RATE_LIMITED"
  | .transientNetwork => "TRANSIENT_NETWORK"
  | .permanentPlatform => "PERMANENT_PLATFORM"

def ofTag? (tag : String) : Option FailureKind := all.find? (·.tag == tag)

/-- The kind and the bare message of a tagged message. Blanks after the tag do not belong to the
message. -/
def splitTagged (message : String) : Option (FailureKind × String) :=
  match message.toList with
  | '[' :: rest => do
    let (tag, tail) ← Text.splitFirst? [']'] rest
    let kind ← ofTag? (.ofList tag)
    return (kind, .ofList (Text.dropBlank tail))
  | _ => none

/-- The message with its tag in front. A message that is tagged already stays as it is. -/
def tagMessage (kind : FailureKind) (message : String) : String :=
  if (splitTagged message).isSome then message else s!"[{kind.tag}] {message}"

def toJson (kind : FailureKind) : Json := .str kind.tag

def ofJson? (json : Json) : Option FailureKind := json.caseName?.bind ofTag?

@[simp] theorem ofTag?_tag (kind : FailureKind) : ofTag? kind.tag = some kind := by
  cases kind <;> decide

theorem ofTag?_eq_some_iff {tag : String} {kind : FailureKind} :
    ofTag? tag = some kind ↔ kind.tag = tag := by
  constructor
  · intro h
    simpa using List.find?_some h
  · rintro rfl
    exact ofTag?_tag kind

end FailureKind

/-- A tag that names no failure kind. -/
structure UnknownFailureKind where
  tag : String
deriving DecidableEq, Repr

def UnknownFailureKind.message (fault : UnknownFailureKind) : String :=
  s!"unknown failure kind '{fault.tag}'"

def FailureKind.ofTag (tag : String) : Except UnknownFailureKind FailureKind :=
  match ofTag? tag with
  | some kind => .ok kind
  | none => .error ⟨tag⟩

end Syndication
