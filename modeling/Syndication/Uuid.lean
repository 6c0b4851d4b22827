import Syndication.Text.Ascii
import Syndication.Text.Numeral
import Syndication.Text.Search
import Syndication.Json.Record

namespace Syndication

/-- An identifier of 128 bits, written as 32 hexadecimal digits in five groups. -/
structure Uuid where
  bits : BitVec 128
deriving DecidableEq, Repr

namespace Uuid

def ofNat (n : Nat) : Uuid := ⟨.ofNat 128 n⟩

/-- The 32 digits with a hyphen after the eighth, twelfth, sixteenth and twentieth. -/
def group (digits : List Char) : List Char :=
  digits.take 8 ++ '-' :: ((digits.drop 8).take 4 ++ '-' :: ((digits.drop 12).take 4 ++ '-' ::
    ((digits.drop 16).take 4 ++ '-' :: digits.drop 20)))

/-- The digits of a text grouped by hyphens. -/
def ungroup? (cs : List Char) : Option (List Char) :=
  let digits := cs.filter (· ≠ '-')
  if group digits = cs then some digits else none

def print (u : Uuid) : List Char := group (Text.fixedHex 32 u.bits.toNat)

def text (u : Uuid) : String := .ofList u.print

theorem drop_eq_of_take_eq {cs ds : List Char} {n : Nat} (k : Nat)
    (front : (cs.drop n).take k = (ds.drop n).take k)
    (back : cs.drop (n + k) = ds.drop (n + k)) : cs.drop n = ds.drop n := by
  rw [← List.take_append_drop k (cs.drop n), ← List.take_append_drop k (ds.drop n), front,
    List.drop_drop, List.drop_drop, back]

/-- Grouping loses no digit. -/
theorem group_injective {ds es : List Char} (same : group ds = group es)
    (length : ds.length = es.length) : ds = es := by
  simp only [group] at same
  obtain ⟨first, rest⟩ := List.append_inj same (by simp [length])
  obtain ⟨second, rest⟩ := List.append_inj (List.tail_eq_of_cons_eq rest) (by simp [length])
  obtain ⟨third, rest⟩ := List.append_inj (List.tail_eq_of_cons_eq rest) (by simp [length])
  obtain ⟨fourth, rest⟩ := List.append_inj (List.tail_eq_of_cons_eq rest) (by simp [length])
  have last := List.tail_eq_of_cons_eq rest
  have fourth := drop_eq_of_take_eq 4 fourth last
  have third := drop_eq_of_take_eq 4 third fourth
  have second := drop_eq_of_take_eq 4 second third
  exact drop_eq_of_take_eq (n := 0) 8 first (by simpa using second)

/-- Different identifiers have different texts. -/
theorem text_injective {u v : Uuid} (same : u.text = v.text) : u = v := by
  have digits := group_injective (String.ofList_injective same) (by simp)
  have read := congrArg Text.readHex? digits
  rw [Text.readHex?_fixedHex u.bits.isLt, Text.readHex?_fixedHex v.bits.isLt] at read
  obtain ⟨bits⟩ := u
  obtain ⟨bits'⟩ := v
  simpa using BitVec.eq_of_toNat_eq (Option.some.inj read)

def ofDigits? (digits : List Char) : Option Uuid :=
  if digits.length = 32 then (Text.readHex? digits).map ofNat else none

def ofChars? (cs : List Char) : Option Uuid :=
  if cs.length = 32 then ofDigits? cs
  else if cs.length = 36 then (ungroup? cs).bind ofDigits?
  else if cs.length = 38 then
    if cs.head? = some '\x7b' ∧ cs.getLast? = some '\x7d' then
      (ungroup? ((cs.drop 1).take 36)).bind ofDigits?
    else none
  else if (cs.take 9).map Char.toLower = "urn:uuid:".toList then
    (ungroup? (cs.drop 9)).bind ofDigits?
  else none

/-- The identifier that a text denotes. -/
def ofText? (s : String) : Option Uuid := ofChars? s.toList

def toJson (u : Uuid) : Json := .str u.text

def ofJson? (json : Json) : Option Uuid := json.str?.bind ofText?

end Uuid

end Syndication
