import Syndication.Json.Value

namespace Syndication

/-- The leading digits of a number, as many as fit into 64 bits, and how many are left out. -/
def leadingDigits (n : Nat) : Nat × Nat :=
  let surplus := (Nat.toDigits 10 n).length - 20
  let leading := n / Nat.pow 10 surplus
  if leading < UInt64.size then (leading, surplus) else (leading / 10, surplus + 1)

/-- The number rounded to the 53 binary places of a double; a tie goes to the even neighbour. -/
def roundToDouble (n : Nat) : Nat :=
  let unit := Nat.pow 2 (n.log2 - 52)
  let below := n / unit
  let rest := n % unit
  if 2 * rest < unit || (2 * rest == unit && below % 2 == 0) then below * unit
  else (below + 1) * unit

/-- Whether the number is a finite double. It is computed as the product of its leading digits and
of a power of ten, both rounded to doubles; from half a unit in the last place above the largest
double on, a product is infinite. -/
def Decimal.isFinite (d : Decimal) : Bool :=
  let (leading, surplus) := leadingDigits d.digits
  let exponent := d.exponent + surplus
  leading == 0 || exponent < 0 || (exponent ≤ 308 &&
    roundToDouble leading * roundToDouble (Nat.pow 10 exponent.toNat) <
      Nat.pow 2 1024 - Nat.pow 2 970)

namespace Json

/-- Sets a field: in its place when there is one of this name, else at the end. -/
def setField (name : String) (value : Json) : List (String × Json) → List (String × Json)
  | [] => [(name, value)]
  | (n, v) :: rest => if n = name then (name, value) :: rest else (n, v) :: setField name value rest

mutual

/-- The value as a document with at most `depth` levels of arrays and objects. -/
def document? (depth : Nat) : Json → Option Json
  | .unpaired => none
  | .real d => if d.isFinite then some (.real d) else none
  | .arr items =>
    match depth with
    | 0 => none
    | depth + 1 => (documentItems? depth items).map .arr
  | .obj fields =>
    match depth with
    | 0 => none
    | depth + 1 =>
      (documentFields? depth fields).map fun fields =>
        .obj (fields.foldl (fun done (name, value) => setField name value done) [])
  | json => some json

def documentItems? (depth : Nat) : List Json → Option (List Json)
  | [] => some []
  | item :: rest => do return (← document? depth item) :: (← documentItems? depth rest)

def documentFields? (depth : Nat) : List (String × Json) → Option (List (String × Json))
  | [] => some []
  | (name, value) :: rest => do
    return (name, ← document? depth value) :: (← documentFields? depth rest)

end

/-- Deepest nesting of a document that is read from text. -/
def maxDepth : Nat := 127

end Json

end Syndication
