import Syndication.Json.Value
import Syndication.Text.Numeral

namespace Syndication.Json

/-- One character of a string literal. -/
def escape (c : Char) : List Char :=
  if c = '"' then ['\\', '"']
  else if c = '\\' then ['\\', '\\']
  else if c = '\n' then ['\\', 'n']
  else if c = '\r' then ['\\', 'r']
  else if c = '\t' then ['\\', 't']
  else if c = '\x08' then ['\\', 'b']
  else if c = '\x0c' then ['\\', 'f']
  else if c.toNat < 0x20 then '\\' :: 'u' :: Text.fixedHex 4 c.toNat
  else [c]

def quote (s : String) : List Char := '"' :: (s.toList.flatMap escape ++ ['"'])

def intText (n : Int) : List Char :=
  if n < 0 then '-' :: Text.decimal n.natAbs else Text.decimal n.natAbs

def decimalText (d : Decimal) : List Char :=
  (if d.negative then ['-'] else []) ++ Text.decimal d.digits ++ 'e' :: intText d.exponent

mutual

/-- A value that cannot be used is written as an unpaired surrogate escape. -/
def print : Json → List Char
  | .null => "null".toList
  | .bool true => "true".toList
  | .bool false => "false".toList
  | .int n => intText n
  | .real d => decimalText d
  | .str s => quote s
  | .unpaired => "\"\\ud800\"".toList
  | .arr items => '[' :: printItems items
  | .obj fields => '\x7b' :: printFields fields

/-- The elements that remain, and the closing bracket. -/
def printItems : List Json → List Char
  | [] => [']']
  | [item] => print item ++ [']']
  | item :: next :: rest => print item ++ ',' :: printItems (next :: rest)

/-- The fields that remain, and the closing brace. -/
def printFields : List (String × Json) → List Char
  | [] => ['\x7d']
  | [(name, value)] => quote name ++ ':' :: (print value ++ ['\x7d'])
  | (name, value) :: next :: rest =>
    quote name ++ ':' :: (print value ++ ',' :: printFields (next :: rest))

end

/-- The compact text. -/
def text (json : Json) : String := .ofList (print json)

end Syndication.Json
