import Syndication.Text.Numeral

namespace Syndication.Form

def contentType : String := "application/x-www-form-urlencoded"

/-- The bytes that stand for themselves. -/
def isPlain (b : UInt8) : Bool :=
  let c := Char.ofNat b.toNat
  c.isAlphanum || c == '*' || c == '-' || c == '.' || c == '_'

def escape (b : UInt8) : List Char :=
  '%' :: (Text.fixedHex 2 b.toNat).map Char.toUpper

/-- A blank becomes a plus sign, and every other byte that does not stand for itself its percent
escape. -/
def encodeByte (b : UInt8) : List Char :=
  if b = 0x20 then ['+'] else if isPlain b then [Char.ofNat b.toNat] else escape b

def encodeText (s : String) : List Char :=
  s.toList.flatMap fun c => (String.utf8EncodeChar c).flatMap encodeByte

def encodePair (pair : String × String) : List Char :=
  encodeText pair.1 ++ '=' :: encodeText pair.2

/-- The text of a form, with its fields in their order. -/
def encode (fields : List (String × String)) : String :=
  .ofList (['&'].intercalate (fields.map encodePair))

end Syndication.Form
