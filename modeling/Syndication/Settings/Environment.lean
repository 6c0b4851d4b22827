import Syndication.Json.Document
import Syndication.Text.Numeral
import Syndication.Text.Search

namespace Syndication

/-- Why the environment gives no settings. -/
inductive EnvironmentFault where
  /-- No environment can hold the variable. -/
  | impossible
  /-- A path leads to a place that no array can have. -/
  | misplaced
  /-- A setting is missing, or is not what it has to be. -/
  | unreadable
deriving DecidableEq, Repr

/-- A step of a path. -/
inductive PathStep where
  | name (name : String)
  /-- A place in an array, counted from its beginning, or from its end when negative. -/
  | place (index : Int)
deriving DecidableEq, Repr

namespace Environment

/-- What the names of the program's variables begin with. -/
def mark : String := "publisher__"

/-- The lower case of a character. Besides the letters of ASCII only the Kelvin sign has a lower
case that can stand in a path. -/
def lowerChar (c : Char) : Char := if c = '\u212a' then 'k' else c.toLower

/-- Writes points for pairs of underscores. -/
def pointed : List Char → List Char
  | [] => []
  | '_' :: '_' :: rest => '.' :: pointed rest
  | c :: rest => c :: pointed rest

/-- Whether a character can stand in a name. Blanks can. -/
def isNameChar (c : Char) : Bool := c.isAlphanum || c == ' ' || c == '_' || c == '-'

/-- A name, and what follows it. -/
def readName? (cs : List Char) : Option (PathStep × List Char) :=
  match cs.takeWhile isNameChar with
  | [] => none
  | name => some (.name (.ofList name), cs.dropWhile isNameChar)

/-- A blank inside brackets. -/
def isGap (c : Char) : Bool := c == ' ' || c == '\t'

/-- A place, if its index has 64 bits. -/
def placeAt? (negative : Bool) (n : Nat) : Option PathStep :=
  if negative then if n ≤ Nat.pow 2 63 then some (.place (-n)) else none
  else if n < Nat.pow 2 63 then some (.place n) else none

/-- A place whose opening bracket has been read, and what follows it. -/
def readPlace? (cs : List Char) : Option (PathStep × List Char) := do
  let (negative, cs) : Bool × List Char :=
    match cs.dropWhile isGap with
    | '-' :: cs => (true, cs)
    | cs => (false, cs)
  let n ← Text.readDecimal? (cs.takeWhile Text.isDigit)
  match (cs.dropWhile Text.isDigit).dropWhile isGap with
  | ']' :: rest => return (← placeAt? negative n, rest)
  | _ => none

/-- The steps after the first. Each takes one unit of fuel. -/
def readSteps? : Nat → List Char → Option (List PathStep)
  | _, [] => some []
  | 0, _ => none
  | fuel + 1, c :: cs => do
    let (step, rest) ←
      if c = '.' then readName? cs else if c = '[' then readPlace? cs else none
    return step :: (← readSteps? fuel rest)

/-- The path that a text denotes. Every step takes a character, so that the length of the text is
fuel enough. -/
def readPath? (cs : List Char) : Option (List PathStep) := do
  let (step, rest) ← readName? cs
  return step :: (← readSteps? rest.length rest)

/-- The path to the setting that a variable names. -/
def pathOf? (name : String) : Option (List PathStep) := do
  let rest ← Text.afterMark? mark.toList (name.toList.map lowerChar)
  readPath? (pointed rest)

/-- The most elements that an array can have. -/
def maxSize : Nat := Nat.pow 2 24

/-- The number of a place in an array of a size, or behind its end. -/
def numberOf? (index : Int) (size : Nat) : Option Nat :=
  if 0 ≤ index then if index < maxSize then some index.toNat else none
  else if 0 ≤ index + size then some (index + size).toNat
  else none

def fieldsOf : Json → List (String × Json)
  | .obj fields => fields
  | _ => []

def itemsOf : Json → List Json
  | .arr items => items
  | _ => []

/-- Sets the value at the end of a path. Whatever stands in its way makes room: a name needs a
table, and a place an array that is long enough. -/
def setAt : List PathStep → String → Json → Except EnvironmentFault Json
  | [], value, _ => .ok (.str value)
  | .name name :: path, value, tree => do
    let below ← setAt path value ((tree.field? name).getD .null)
    return .obj (Json.setField name below (fieldsOf tree))
  | .place index :: path, value, tree => do
    let items := itemsOf tree
    match numberOf? index items.length with
    | none => throw .misplaced
    | some n =>
      let below ← setAt path value (items.getD n .null)
      let room := List.replicate (n + 1 - items.length) .null
      return .arr ((items ++ room).set n below)

/-- Whether an environment can hold a variable. -/
def canHold (name value : String) : Bool :=
  !name.isEmpty && !name.toList.contains '=' && !name.toList.contains '\x00' &&
    !value.toList.contains '\x00'

/-- The tree of settings that variables give, each in its turn. -/
def tree (environment : List (String × String)) : Except EnvironmentFault Json :=
  if environment.all fun (name, value) => canHold name value then
    environment.foldlM
      (fun tree (name, value) =>
        match pathOf? name with
        | some path => setAt path value tree
        | none => .ok tree)
      (.obj [])
  else .error .impossible

end Environment

end Syndication
