import Syndication.Json.Record
import Syndication.Text.Ascii
import Syndication.Text.Numeral

namespace Syndication

/-- How settings are written. A document has values of their own kinds; the environment has texts
only, which are taken for what the setting wants. -/
structure Spelling where
  text? : Json → Option String
  truth? : Json → Option Bool
  /-- A number below a bound. -/
  count? (bound : Nat) : Json → Option Nat
  /-- One of several words. -/
  word? (words : List String) : Json → Option String
  /-- Whether an array may be longer than its record. -/
  surplus : Bool

namespace Spelling

/-- Values of their own kinds, and words as they are. -/
def strict : Spelling where
  text? := Json.str?
  truth? := Json.bool?
  count? := Json.natBelow?
  word? words json := json.caseName?.filter words.contains
  surplus := false

/-- A truth value in words, in any letter case. -/
def truthWord? (s : String) : Option Bool :=
  if ["true", "on", "yes"].contains (Text.lower s) then some true
  else if ["false", "off", "no"].contains (Text.lower s) then some false
  else none

def truthOfText? (s : String) : Option Bool :=
  if s = "1" then some true else if s = "0" then some false else truthWord? s

/-- A numeral, or a truth value in words, which counts as one or zero. -/
def countOfText? (s : String) : Option Nat :=
  match truthWord? s with
  | some truth => some truth.toNat
  | none => Text.readUnsigned? s.toList

/-- A word: a text, or the name of the only entry of a table. -/
def wordText? : Json → Option String
  | .str s => some s
  | .obj [(name, _)] => some name
  | _ => none

/-- Texts, and words in any letter case. -/
def lenient : Spelling where
  text? := Json.str?
  truth? json := json.str?.bind truthOfText?
  count? bound json := (json.str?.bind countOfText?).filter (· < bound)
  word? words json := (wordText? json).bind fun s => words.find? (Text.sameLetters s)
  surplus := true

/-- The record with these field names. -/
def record? (spelling : Spelling) (names : List String) : Json → Option Record
  | .arr items =>
    Record.ofJson? names (.arr (if spelling.surplus then items.take names.length else items))
  | json => Record.ofJson? names json

/-- A count of 32 bits. -/
def count32? (spelling : Spelling) (json : Json) : Option UInt32 :=
  (spelling.count? UInt32.size json).map Nat.toUInt32

/-- A count of 64 bits. -/
def count64? (spelling : Spelling) (json : Json) : Option UInt64 :=
  (spelling.count? UInt64.size json).map Nat.toUInt64

end Spelling

end Syndication
