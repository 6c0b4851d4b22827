namespace Syndication

/-- The number `digits * 10 ^ exponent`, or its opposite. -/
structure Decimal where
  negative : Bool
  digits : Nat
  exponent : Int
deriving DecidableEq, Repr

/-- An object keeps its fields in the order in which they were written, repeated names included.
Integers that fit into 64 bits are kept apart from all other numbers, since only they can be counts.
-/
inductive Json where
  | null
  | bool (value : Bool)
  /-- An integer of 64 bits, signed or unsigned. -/
  | int (value : Int)
  /-- Any other number: written with a point or an exponent, too large, or a negative zero. -/
  | real (value : Decimal)
  | str (value : String)
  /-- A well-formed string literal with an unpaired surrogate escape, or an object with such a
  name. It denotes nothing that can be used, but it can be skipped. -/
  | unpaired
  | arr (items : List Json)
  | obj (fields : List (String × Json))
deriving Repr, Inhabited

namespace Json

/-- The number written as an integer numeral. -/
def ofNumeral (negative : Bool) (n : Nat) : Json :=
  if negative then
    if n = 0 ∨ Nat.pow 2 63 < n then .real ⟨true, n, 0⟩ else .int (-n)
  else
    if n < UInt64.size then .int n else .real ⟨false, n, 0⟩

def ofNat (n : Nat) : Json := .int n

def orNull {α : Type} (encode : α → Json) : Option α → Json
  | none => .null
  | some a => encode a

def strings (ss : List String) : Json := .arr (ss.map .str)

/-- A field that is left out when there is nothing to say. -/
def optionalField {α : Type} (name : String) (encode : α → Json) :
    Option α → List (String × Json)
  | none => []
  | some a => [(name, encode a)]

/-- The value of the last field with this name. -/
def field? (name : String) : Json → Option Json
  | .obj fields => (fields.reverse.find? (·.1 == name)).map (·.2)
  | _ => none

end Json

end Syndication
