import Mathlib.Data.List.Basic
import Mathlib.Data.List.Forall2
import Syndication.Http.Form

namespace Syndication.Form

/-- The bytes that a name or a value of a form stands for. -/
def bytes? : List Char → Option (List UInt8)
  | [] => some []
  | '+' :: cs => (bytes? cs).map (0x20 :: ·)
  | '%' :: high :: low :: cs => do
    let b ← Text.readHex? [high, low]
    return b.toUInt8 :: (← bytes? cs)
  | c :: cs => if c = '%' then none else (bytes? cs).map (String.utf8EncodeChar c ++ ·)

/-- The characters stand for the text, and none of them is a mark of the form. -/
structure Means (cs : List Char) (s : String) : Prop where
  noField : '&' ∉ cs
  noValue : '=' ∉ cs
  bytes : bytes? cs = some (s.toList.flatMap String.utf8EncodeChar)

/-- A name and a value with the mark between them. -/
def joined (piece : List Char × List Char) : List Char := piece.1 ++ '=' :: piece.2

/-- The name and the value of the field are written like this. -/
def Tells (piece : List Char × List Char) (field : String × String) : Prop :=
  Means piece.1 field.1 ∧ Means piece.2 field.2

/-- The form has these fields, in this order. -/
def Carries (text : String) (fields : List (String × String)) : Prop :=
  ∃ pieces : List (List Char × List Char), text.toList = ['&'].intercalate (pieces.map joined) ∧
    List.Forall₂ Tells pieces fields

theorem isPlain_spec {b : UInt8} (plain : isPlain b = true) :
    Char.ofNat b.toNat ∉ ['+', '%', '&', '='] ∧
      String.utf8EncodeChar (Char.ofNat b.toNat) = [b] := by
  have all : ∀ n : Fin 256, isPlain (UInt8.ofFin n) = true →
      Char.ofNat n.val ∉ ['+', '%', '&', '='] ∧
        String.utf8EncodeChar (Char.ofNat n.val) = [UInt8.ofFin n] := by decide +kernel
  exact all b.toFin plain

theorem hexValue?_toUpper {n : Nat} (h : n < 16) :
    Text.hexValue? (Text.hexDigit n).toUpper = some n ∧
      (Text.hexDigit n).toUpper ∉ ['&', '='] := by
  have all : ∀ k : Fin 16, Text.hexValue? (Text.hexDigit k).toUpper = some k.val ∧
      (Text.hexDigit k).toUpper ∉ ['&', '='] := by decide
  exact all ⟨n, h⟩

theorem escape_eq (b : UInt8) : escape b =
    ['%', (Text.hexDigit (b.toNat / 16 % 16)).toUpper, (Text.hexDigit (b.toNat % 16)).toUpper] :=
  rfl

theorem readHex?_escape (b : UInt8) :
    Text.readHex? [(Text.hexDigit (b.toNat / 16 % 16)).toUpper,
      (Text.hexDigit (b.toNat % 16)).toUpper] = some b.toNat := by
  have small := b.toNat_lt
  have whole : b.toNat / 16 % 16 * 16 + b.toNat % 16 = b.toNat := by omega
  simp [Text.readHex?, (hexValue?_toUpper (Nat.mod_lt _ (by decide : 0 < 16))).1, whole]

theorem bytes?_encodeByte (b : UInt8) (rest : List Char) :
    bytes? (encodeByte b ++ rest) = (bytes? rest).map (b :: ·) := by
  unfold encodeByte
  split
  · rename_i blank
    rw [blank]
    rfl
  · split
    · rename_i plain
      obtain ⟨apart, one⟩ := isPlain_spec plain
      simp only [List.mem_cons, List.not_mem_nil, or_false, not_or] at apart
      rw [List.singleton_append, bytes?.eq_def]
      split <;> simp_all
    · rw [escape_eq, List.cons_append, List.cons_append, List.singleton_append, bytes?,
        readHex?_escape, Option.bind_eq_bind, Option.bind_some, Nat.toUInt8_eq,
        UInt8.ofNat_toNat]
      cases bytes? rest <;> rfl

theorem encodeByte_noMark (b : UInt8) : ∀ c ∈ encodeByte b, c ∉ ['&', '='] := by
  unfold encodeByte
  split
  · simp
  · split
    · rename_i plain
      have apart := (isPlain_spec plain).1
      simp_all
    · rw [escape_eq]
      have digit (n : Nat) := (hexValue?_toUpper (Nat.mod_lt n (by decide : 0 < 16))).2
      simp_all

theorem encodeText_noMark (s : String) : ∀ c ∈ encodeText s, c ∉ ['&', '='] := by
  intro c member
  obtain ⟨_, _, inChar⟩ := List.mem_flatMap.1 member
  obtain ⟨b, _, inByte⟩ := List.mem_flatMap.1 inChar
  exact encodeByte_noMark b c inByte

/-- Bytes are read back from what is written for them. -/
theorem bytes?_encodeBytes (bs : List UInt8) : bytes? (bs.flatMap encodeByte) = some bs := by
  induction bs with
  | nil => rfl
  | cons b bs ih => rw [List.flatMap_cons, bytes?_encodeByte, ih, Option.map_some]

theorem means_encodeText (s : String) : Means (encodeText s) s where
  noField member := encodeText_noMark s _ member (by simp)
  noValue member := encodeText_noMark s _ member (by simp)
  bytes := by rw [encodeText, ← List.flatMap_assoc, bytes?_encodeBytes]

/-- A text is known by its bytes. -/
theorem Means.unique {cs : List Char} {s t : String} (means : Means cs s) (also : Means cs t) :
    s = t := by
  have same := Option.some.inj (means.bytes.symm.trans also.bytes)
  rw [← String.toByteArray_inj, ← String.utf8Encode_toList, ← String.utf8Encode_toList,
    List.utf8Encode, List.utf8Encode, same]

theorem carries_encode (fields : List (String × String)) : Carries (encode fields) fields := by
  refine ⟨fields.map fun field => (encodeText field.1, encodeText field.2), ?_, ?_⟩
  · rw [encode, String.toList_ofList, List.map_map]
    rfl
  · rw [List.forall₂_map_left_iff]
    exact List.forall₂_same.2 fun field _ => ⟨means_encodeText _, means_encodeText _⟩

/-- The pieces of a form have no mark inside. -/
def Unmarked (pieces : List (List Char × List Char)) : Prop :=
  ∀ piece ∈ pieces, ('=' ∉ piece.1 ∧ '=' ∉ piece.2) ∧ '&' ∉ piece.1 ∧ '&' ∉ piece.2

theorem eq_of_map_joined {pieces others : List (List Char × List Char)}
    (unmarked : Unmarked pieces) (same : pieces.map joined = others.map joined) :
    pieces = others := by
  induction pieces generalizing others with
  | nil => exact (List.map_eq_nil_iff.1 same.symm).symm
  | cons piece pieces ih =>
    cases others with
    | nil => cases same
    | cons other others =>
      obtain ⟨first, unmarked⟩ := List.forall_mem_cons.1 unmarked
      rw [List.map_cons, List.map_cons, List.cons.injEq, joined, joined,
        List.append_cons_inj_of_notMem first.1.1 first.1.2] at same
      rw [ih unmarked same.2, Prod.ext same.1.1 same.1.2.2]

theorem splitOn_joined {pieces : List (List Char × List Char)} (some : pieces ≠ [])
    (unmarked : Unmarked pieces) :
    (['&'].intercalate (pieces.map joined)).splitOn '&' = pieces.map joined := by
  refine List.splitOn_intercalate _ ?_ (by simpa using some)
  rintro _ member
  obtain ⟨piece, inPieces, rfl⟩ := List.mem_map.1 member
  simp [joined, unmarked piece inPieces]

theorem intercalate_joined_eq_nil {pieces : List (List Char × List Char)}
    (empty : ['&'].intercalate (pieces.map joined) = []) : pieces = [] := by
  cases pieces with
  | nil => rfl
  | cons piece pieces => cases pieces <;> simp [List.intercalate, joined] at empty

/-- A text is cut into pieces in one way. -/
theorem eq_of_intercalate_joined {pieces others : List (List Char × List Char)}
    (unmarked : Unmarked pieces) (unmarkedOthers : Unmarked others)
    (same : ['&'].intercalate (pieces.map joined) = ['&'].intercalate (others.map joined)) :
    pieces = others := by
  by_cases none : pieces = []
  · rw [none] at same ⊢
    exact (intercalate_joined_eq_nil same.symm).symm
  · have some : others ≠ [] := by
      rintro rfl
      exact none (intercalate_joined_eq_nil same)
    refine eq_of_map_joined unmarked ?_
    rw [← splitOn_joined none unmarked, same, splitOn_joined some unmarkedOthers]

theorem Carries.unique {text : String} {fields others : List (String × String)}
    (carries : Carries text fields) (also : Carries text others) : fields = others := by
  have unmarked {pieces : List (List Char × List Char)} {fields : List (String × String)}
      (each : List.Forall₂ Tells pieces fields) : Unmarked pieces := by
    induction each with
    | nil => simp [Unmarked]
    | cons first _ ih =>
      exact List.forall_mem_cons.2
        ⟨⟨⟨first.1.noValue, first.2.noValue⟩, first.1.noField, first.2.noField⟩, ih⟩
  obtain ⟨pieces, parts, each⟩ := carries
  obtain ⟨others, otherParts, eachOther⟩ := also
  obtain rfl := eq_of_intercalate_joined (unmarked each) (unmarked eachOther)
    (parts.symm.trans otherParts)
  have unique : Relator.RightUnique Tells := fun _ _ _ tells also =>
    Prod.ext (tells.1.unique also.1) (tells.2.unique also.2)
  exact unique.forall₂ each eachOther

/-- The text of a form carries its fields, and nothing else. -/
theorem carries_encode_iff {fields others : List (String × String)} :
    Carries (encode fields) others ↔ others = fields :=
  ⟨fun also => also.unique (carries_encode fields), fun same => same ▸ carries_encode fields⟩

end Syndication.Form
