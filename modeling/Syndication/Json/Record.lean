import Syndication.Json.Value

namespace Syndication

/-- The fields of a record as they were given, by name or by position. -/
structure Record where
  fields : List (String × Json)
  byName : Bool

namespace Record

/-- The record with these field names. A field of the record may be given once only, and an
array may not be longer than the record. -/
def ofJson? (names : List String) : Json → Option Record
  | .obj fields =>
    if names.all fun name => (fields.filter (·.1 == name)).length ≤ 1 then some ⟨fields, true⟩
    else none
  | .arr items => if items.length ≤ names.length then some ⟨names.zip items, false⟩ else none
  | _ => none

def get? (r : Record) (name : String) : Option Json := r.fields.lookup name

variable {α : Type}

/-- A field that has to be there. -/
def required (r : Record) (name : String) (decode : Json → Option α) : Option α :=
  (r.get? name).bind decode

/-- A value that may be null. -/
def nullable (decode : Json → Option α) : Json → Option (Option α)
  | .null => some none
  | json => (decode json).map some

/-- A field that may be missing or null; an array has to give it. -/
def optional (r : Record) (name : String) (decode : Json → Option α) : Option (Option α) :=
  match r.get? name with
  | none => if r.byName then some none else none
  | some json => nullable decode json

/-- A field that takes a default when it is missing. Null is no value for it. -/
def defaulted (r : Record) (name : String) (default : α) (decode : Json → Option α) : Option α :=
  match r.get? name with
  | none => some default
  | some json => decode json

/-- A field that may be null, and that may be missing in an array too. -/
def defaultedOptional (r : Record) (name : String) (decode : Json → Option α) :
    Option (Option α) :=
  r.defaulted name none (nullable decode)

end Record

namespace Json

def str? : Json → Option String
  | .str s => some s
  | _ => none

def bool? : Json → Option Bool
  | .bool b => some b
  | _ => none

/-- A natural number below `bound`. -/
def natBelow? (bound : Nat) : Json → Option Nat
  | .int n => if 0 ≤ n ∧ n < bound then some n.toNat else none
  | _ => none

/-- A count of 32 bits. -/
def count? (json : Json) : Option UInt32 := (json.natBelow? UInt32.size).map Nat.toUInt32

/-- A count of 64 bits. -/
def long? (json : Json) : Option UInt64 := (json.natBelow? UInt64.size).map Nat.toUInt64

/-- An integer of 64 bits with a sign. -/
def signed? : Json → Option Int
  | .int n => if n < Nat.pow 2 63 then some n else none
  | _ => none

def list? {α : Type} (decode : Json → Option α) : Json → Option (List α)
  | .arr items => items.mapM decode
  | _ => none

def strings? (json : Json) : Option (List String) := json.list? str?

/-- The name of a case of an enumeration: a string, or an object whose one field is null. -/
def caseName? : Json → Option String
  | .str s => some s
  | .obj [(name, .null)] => some name
  | _ => none

end Json

end Syndication
