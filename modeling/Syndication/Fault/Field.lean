namespace Syndication

/-- The fault of a single value, found while it is built from text. -/
inductive FieldFault where
  | empty (field : String)
  | malformed (field reason : String)
deriving DecidableEq, Repr

namespace FieldFault

def field : FieldFault → String
  | .empty field => field
  | .malformed field _ => field

/-- The name of the cause. -/
def name : FieldFault → String
  | .empty _ => "EmptyField"
  | .malformed .. => "InvalidFormat"

def message : FieldFault → String
  | .empty field => s!"Field '{field}' cannot be empty"
  | .malformed field reason => s!"Field '{field}' has invalid format: {reason}"

end FieldFault

end Syndication
