import Syndication.Json.Document
import Syndication.Json.Printer
import Syndication.Json.Reader
import Syndication.Proofs.TimeText

namespace Syndication.Json

open Text

/-- Whatever way a character is written, one piece of a literal is read from it, and the piece
stands for the character. -/
theorem exists_piece (c : Char) :
    ∃ piece : Piece,
      (∀ rest, readPieces (escape c ++ rest) =
        (readPieces rest).map fun (pieces, rest) => (piece :: pieces, rest)) ∧
      ∀ pieces, Piece.text? (piece :: pieces) = (Piece.text? pieces).map (c :: ·) := by
  by_cases letter : c = '"' ∨ c = '\\' ∨ c = '\n' ∨ c = '\r' ∨ c = '\t' ∨ c = '\x08' ∨ c = '\x0c'
  · refine ⟨.char c, fun rest => ?_, fun pieces => by rw [Piece.text?]⟩
    rcases letter with rfl | rfl | rfl | rfl | rfl | rfl | rfl <;>
      simp [escape, readPieces, unescape?, Option.map_eq_bind]
  simp only [not_or] at letter
  by_cases control : c.toNat < 0x20
  · have written : escape c = '\\' :: 'u' :: fixedHex 4 c.toNat := by simp [escape, letter, control]
    have fits : c.toNat < Nat.pow 16 4 := control.trans (by decide)
    have read := readHex?_fixedHex fits
    obtain ⟨x, y, z, w, digits⟩ := List.length_eq_four.1 (length_fixedHex 4 c.toNat)
    rw [digits] at read
    refine ⟨.unit c.toNat, fun rest => ?_, fun pieces => ?_⟩
    · simp [written, digits, readPieces, read, Option.map_eq_bind]
    · have high : ¬ Piece.isHighSurrogate c.toNat := by simp [Piece.isHighSurrogate]; omega
      have low : ¬ Piece.isLowSurrogate c.toNat := by simp [Piece.isLowSurrogate]; omega
      rw [Piece.text?.eq_def]
      simp only [if_neg high, if_neg low, Char.ofNat_toNat]
  · refine ⟨.char c, fun rest => ?_, fun pieces => by rw [Piece.text?]⟩
    have written : escape c = [c] := by simp [escape, letter, control]
    rw [written, List.singleton_append, readPieces.eq_def]
    split <;> simp_all [Option.map_eq_bind]

theorem exists_pieces (cs rest : List Char) :
    ∃ pieces, readPieces (cs.flatMap escape ++ '"' :: rest) = some (pieces, rest) ∧
      Piece.text? pieces = some cs := by
  induction cs with
  | nil => exact ⟨[], by simp [readPieces], rfl⟩
  | cons c cs ih =>
    obtain ⟨pieces, read, text⟩ := ih
    obtain ⟨piece, readOne, textOne⟩ := exists_piece c
    refine ⟨piece :: pieces, ?_, by rw [textOne, text, Option.map_some]⟩
    rw [List.flatMap_cons, List.append_assoc, readOne, read, Option.map_some]

/-- A string is read back from its literal, whatever characters it has. -/
theorem readLiteral_quote (s : String) (rest : List Char) :
    readLiteral (s.toList.flatMap escape ++ '"' :: rest) = some (some s, rest) := by
  obtain ⟨pieces, read, text⟩ := exists_pieces s.toList rest
  simp [readLiteral, read, text]

/-- The text does not go on in a way that a number could. -/
def EndsNumber (rest : List Char) : Prop :=
  ∀ c ∈ rest.head?, isDigit c = false ∧ c ≠ '.' ∧ c ≠ 'e' ∧ c ≠ 'E'

theorem EndsNumber.endsNumeral {rest : List Char} (ends : EndsNumber rest) : EndsNumeral rest :=
  fun c first => (ends c first).1

theorem splitDigits_decimal (n : Nat) {rest : List Char} (ends : EndsNumeral rest) :
    splitDigits (decimal n ++ rest) = (decimal n, rest) := by
  rw [splitDigits, takeWhile_isDigit (decimal_digits n) ends,
    dropWhile_isDigit (decimal_digits n) ends]

theorem decimal_head (n : Nat) :
    decimal n = [digit 0] ∨ ∃ d ds, decimal n = digit d :: ds ∧ 0 < d ∧ d < 10 := by
  induction n using decimal.induct with
  | case1 n small =>
    rw [decimal, if_pos small]
    rcases Nat.eq_zero_or_pos n with rfl | positive
    · exact .inl rfl
    · exact .inr ⟨n, [], rfl, positive, small⟩
  | case2 n large ih =>
    rw [decimal, if_neg large]
    rcases ih with zero | ⟨d, ds, front, positive, small⟩
    · have same := congrArg ofDigits zero
      rw [ofDigits_decimal] at same
      have : n / 10 = 0 := same
      omega
    · exact .inr ⟨d, ds ++ [digit (n % 10)], by rw [front, List.cons_append], positive, small⟩

/-- The digits of a number have no leading zero, so that they are a whole number of the grammar. -/
theorem readWhole_decimal (n : Nat) {rest : List Char} (ends : EndsNumeral rest) :
    readWhole (decimal n ++ rest) = some (decimal n, rest) := by
  rw [readWhole, splitDigits_decimal n ends]
  rcases decimal_head n with zero | ⟨d, ds, front, positive, small⟩
  · rw [zero]
    rfl
  · have : digit d ≠ '0' := by
      intro same
      have := congrArg digitValue same
      rw [digitValue_digit small] at this
      have : d = 0 := this
      omega
    rw [front]
    split <;> simp_all

theorem exists_decimal_cons (n : Nat) : ∃ c cs, decimal n = c :: cs ∧ isDigit c = true := by
  obtain ⟨c, cs, front⟩ := List.exists_cons_of_ne_nil (decimal_ne_nil n)
  exact ⟨c, cs, front, decimal_digits n c (by simp [front])⟩

theorem readExponent_intText (n : Int) {rest : List Char} (ends : EndsNumeral rest) :
    readExponent ('e' :: (intText n ++ rest)) = some (some n, rest) := by
  have digits := splitDigits_decimal n.natAbs ends
  have value := ofDigits_decimal n.natAbs
  obtain ⟨c, cs, front, isDigit⟩ := exists_decimal_cons n.natAbs
  rw [front] at digits value
  rw [List.cons_append] at digits
  have noPlus : c ≠ '+' := by rintro rfl; cases isDigit
  have noMinus : c ≠ '-' := by rintro rfl; cases isDigit
  by_cases negative : n < 0
  · rw [intText, if_pos negative, front, List.cons_append, readExponent, if_pos (.inl rfl)]
    simp [readSign, digits, value, abs_of_neg negative]
  · have plus : (n.natAbs : Int) = n := by omega
    rw [intText, if_neg negative, front, readExponent, if_pos (.inl rfl)]
    simp [readSign, noPlus, noMinus, digits, value, plus]

theorem readNumber_decimal (negative : Bool) (n : Nat) {rest : List Char}
    (ends : EndsNumber rest) :
    readNumber negative (decimal n ++ rest) = some (ofNumeral negative n, rest) := by
  have noFraction : readFraction rest = some (none, rest) := by
    cases rest with
    | nil => rfl
    | cons c rest =>
      have := (ends c rfl).2.1
      simp_all [readFraction]
  have noExponent : readExponent rest = some (none, rest) := by
    cases rest with
    | nil => rfl
    | cons c rest =>
      have := (ends c rfl).2.2
      simp_all [readExponent]
  simp [readNumber, readWhole_decimal n ends.endsNumeral, noFraction, noExponent, ofDigits_decimal]

theorem readNumber_decimalText (d : Decimal) {rest : List Char} (ends : EndsNumeral rest) :
    readNumber d.negative (decimal d.digits ++ 'e' :: (intText d.exponent ++ rest)) =
      some (.real d, rest) := by
  have digits : EndsNumeral ('e' :: (intText d.exponent ++ rest)) := by rintro c ⟨⟩; rfl
  simp [readNumber, readWhole_decimal _ digits, readFraction, readExponent_intText _ ends,
    ofDigits_decimal]

mutual

/-- All integers of the value have 64 bits: with a sign, or without one. -/
def Writable : Json → Prop
  | .int n => -(2 ^ 63) ≤ n ∧ n < 2 ^ 64
  | .arr items => ItemsWritable items
  | .obj fields => FieldsWritable fields
  | _ => True

def ItemsWritable : List Json → Prop
  | [] => True
  | item :: rest => Writable item ∧ ItemsWritable rest

def FieldsWritable : List (String × Json) → Prop
  | [] => True
  | (_, value) :: rest => Writable value ∧ FieldsWritable rest

end

theorem fieldsWritable_iff {fields : List (String × Json)} :
    FieldsWritable fields ↔ ∀ field ∈ fields, Writable field.2 := by
  induction fields with
  | nil => simp [FieldsWritable]
  | cons field rest ih => simp [FieldsWritable, ih]

theorem ofNumeral_natAbs {n : Int} (low : -(2 ^ 63) ≤ n) (high : n < 2 ^ 64) :
    ofNumeral (decide (n < 0)) n.natAbs = .int n := by
  have limit : Nat.pow 2 63 = 9223372036854775808 := rfl
  have size : UInt64.size = 18446744073709551616 := rfl
  unfold ofNumeral
  by_cases negative : n < 0
  · have fits : ¬ (n.natAbs = 0 ∨ Nat.pow 2 63 < n.natAbs) := by omega
    rw [decide_eq_true negative, if_pos rfl, if_neg fits]
    congr 1
    omega
  · have fits : n.natAbs < UInt64.size := by omega
    rw [decide_eq_false negative, if_neg Bool.false_ne_true, if_pos fits]
    congr 1
    omega

theorem isSpace_of_isDigit {c : Char} (isDigit : isDigit c = true) : isSpace c = false := by
  simp only [isSpace, Bool.or_eq_false_iff, beq_eq_false_iff_ne]
  refine ⟨⟨⟨?_, ?_⟩, ?_⟩, ?_⟩ <;> (rintro rfl; cases isDigit)

/-- What begins with a digit can only be a number. -/
theorem readValue_digit {c : Char} (isDigit : isDigit c = true) (fuel : Nat) (cs : List Char) :
    readValue (fuel + 1) (c :: cs) = readNumber false (c :: cs) := by
  have here : skipSpace (c :: cs) = c :: cs := by
    simp [skipSpace, isSpace_of_isDigit isDigit]
  rw [readValue, here]
  split <;> simp_all [Text.isDigit]

theorem readValue_intText {n : Int} (low : -(2 ^ 63) ≤ n) (high : n < 2 ^ 64) (fuel : Nat)
    {rest : List Char} (ends : EndsNumber rest) :
    readValue (fuel + 1) (intText n ++ rest) = some (.int n, rest) := by
  have read := readNumber_decimal (decide (n < 0)) n.natAbs ends
  rw [ofNumeral_natAbs low high] at read
  by_cases negative : n < 0
  · rw [decide_eq_true negative] at read
    rw [intText, if_pos negative, List.cons_append, readValue]
    exact read
  · obtain ⟨c, cs, front, isDigit⟩ := exists_decimal_cons n.natAbs
    rw [decide_eq_false negative, front, List.cons_append] at read
    rw [intText, if_neg negative, front, List.cons_append, readValue_digit isDigit, read]

theorem readValue_decimalText (d : Decimal) (fuel : Nat) {rest : List Char}
    (ends : EndsNumber rest) :
    readValue (fuel + 1) (decimalText d ++ rest) = some (.real d, rest) := by
  have read := readNumber_decimalText d ends.endsNumeral
  rw [decimalText, List.append_assoc, List.append_assoc, List.cons_append]
  cases negative : d.negative with
  | true =>
    rw [negative] at read
    exact read
  | false =>
    obtain ⟨c, cs, front, isDigit⟩ := exists_decimal_cons d.digits
    rw [negative, front, List.cons_append] at read
    rw [if_neg Bool.false_ne_true, List.nil_append, front, List.cons_append,
      readValue_digit isDigit, read]

@[simp] theorem print_null : print .null = ['n', 'u', 'l', 'l'] := by
  rw [print.eq_def]
  simp

@[simp] theorem print_true : print (.bool true) = ['t', 'r', 'u', 'e'] := by
  rw [print.eq_def]
  simp

@[simp] theorem print_false : print (.bool false) = ['f', 'a', 'l', 's', 'e'] := by
  rw [print.eq_def]
  simp

@[simp] theorem print_int (n : Int) : print (.int n) = intText n := by rw [print.eq_def]

@[simp] theorem print_real (d : Decimal) : print (.real d) = decimalText d := by rw [print.eq_def]

@[simp] theorem print_str (s : String) : print (.str s) = quote s := by rw [print.eq_def]

@[simp] theorem print_unpaired : print .unpaired = ['"', '\\', 'u', 'd', '8', '0', '0', '"'] := by
  rw [print.eq_def]
  simp

@[simp] theorem print_arr (items : List Json) : print (.arr items) = '[' :: printItems items := by
  rw [print.eq_def]

@[simp] theorem print_obj (fields : List (String × Json)) :
    print (.obj fields) = '\x7b' :: printFields fields := by
  rw [print.eq_def]

/-- No value begins with a blank, or like the end of an array. -/
theorem exists_print_cons (json : Json) :
    ∃ c cs, print json = c :: cs ∧ isSpace c = false ∧ c ≠ ']' := by
  have ofDigit : ∀ c, isDigit c = true → isSpace c = false ∧ c ≠ ']' := by
    intro c isDigit
    refine ⟨isSpace_of_isDigit isDigit, ?_⟩
    rintro rfl
    cases isDigit
  have ofInt : ∀ n, ∃ c cs, intText n = c :: cs ∧ isSpace c = false ∧ c ≠ ']' := by
    intro n
    rw [intText]
    split
    · exact ⟨'-', _, rfl, rfl, by decide⟩
    · obtain ⟨c, cs, front, isDigit⟩ := exists_decimal_cons n.natAbs
      exact ⟨c, cs, front, ofDigit c isDigit⟩
  match json with
  | .null => exact ⟨_, _, print_null, rfl, by decide⟩
  | .bool true => exact ⟨_, _, print_true, rfl, by decide⟩
  | .bool false => exact ⟨_, _, print_false, rfl, by decide⟩
  | .int n =>
    rw [print_int]
    exact ofInt n
  | .real d =>
    rw [print_real, decimalText]
    split
    · exact ⟨'-', _, rfl, rfl, by decide⟩
    · obtain ⟨c, cs, front, isDigit⟩ := exists_decimal_cons d.digits
      exact ⟨c, _, by rw [front]; rfl, ofDigit c isDigit⟩
  | .str s => exact ⟨_, _, print_str s, rfl, by decide⟩
  | .unpaired => exact ⟨_, _, print_unpaired, rfl, by decide⟩
  | .arr items => exact ⟨_, _, print_arr items, rfl, by decide⟩
  | .obj fields => exact ⟨_, _, print_obj fields, rfl, by decide⟩

theorem ofFields_texts (fields : List (String × Json)) :
    ofFields (fields.map fun field => (some field.1, field.2)) = .obj fields := by
  have names : fields.mapM some = some fields := by
    induction fields with
    | nil => rfl
    | cons field rest ih => simp_all
  simp [ofFields, List.mapM_map, Function.comp_def, names]

mutual

/-- A value is read from its text, if there is fuel for twice its length, and what follows it is
left over. -/
theorem readValue_print : ∀ (json : Json) (fuel : Nat) (rest : List Char),
    Writable json → EndsNumber rest → 2 * (print json).length < fuel →
      readValue fuel (print json ++ rest) = some (json, rest)
  | .null, fuel + 1, rest, _, _, _ => by
    simp [readValue, skipSpace, isSpace, readWord, afterMark?]
  | .bool true, fuel + 1, rest, _, _, _ => by
    simp [readValue, skipSpace, isSpace, readWord, afterMark?]
  | .bool false, fuel + 1, rest, _, _, _ => by
    simp [readValue, skipSpace, isSpace, readWord, afterMark?]
  | .int n, fuel + 1, rest, writable, ends, _ => by
    rw [Writable] at writable
    rw [print_int]
    exact readValue_intText writable.1 writable.2 fuel ends
  | .real d, fuel + 1, rest, _, ends, _ => by
    rw [print_real]
    exact readValue_decimalText d fuel ends
  | .str s, fuel + 1, rest, _, _, _ => by
    simp [quote, readValue, skipSpace, isSpace, readLiteral_quote]
  | .unpaired, fuel + 1, rest, _, _, _ => by
    have surrogate : readHex? ['d', '8', '0', '0'] = some 0xD800 := by decide
    simp [readValue, skipSpace, isSpace, readLiteral, readPieces, surrogate, Piece.text?,
      Piece.isHighSurrogate]
  | .arr [], fuel + 1, rest, _, _, _ => by
    simp [printItems, readValue, skipSpace, isSpace]
  | .arr (item :: items), fuel + 1, rest, writable, _, enough => by
    have read := readItems_print item items fuel rest (by simpa [Writable] using writable)
      (by simp at enough; omega)
    obtain ⟨c, cs, front, noSpace, noEnd⟩ := exists_print_cons item
    obtain ⟨ds, same⟩ : ∃ ds, printItems (item :: items) ++ rest = c :: ds := by
      cases items <;> simp [printItems, front]
    rw [same] at read
    have here : skipSpace (c :: ds) = c :: ds := by simp [skipSpace, noSpace]
    rw [print_arr, List.cons_append, same, readValue, skipSpace]
    simp [isSpace, here, noEnd, read]
  | .obj [], fuel + 1, rest, _, _, _ => by
    simp [printFields, readValue, skipSpace, isSpace]
  | .obj (field :: fields), fuel + 1, rest, writable, _, enough => by
    have read := readFields_print field fields fuel rest (by simpa [Writable] using writable)
      (by simp at enough; omega)
    obtain ⟨ds, same⟩ : ∃ ds, printFields (field :: fields) ++ rest = '"' :: ds := by
      cases fields <;> simp [printFields, quote]
    rw [same] at read
    have here : skipSpace ('"' :: ds) = '"' :: ds := by simp [skipSpace, isSpace]
    have whole := ofFields_texts (field :: fields)
    rw [List.map_cons] at whole
    rw [print_obj, List.cons_append, same, readValue, skipSpace]
    simp [isSpace, here, read, whole]

theorem readItems_print : ∀ (item : Json) (items : List Json) (fuel : Nat) (rest : List Char),
    ItemsWritable (item :: items) → 2 * (printItems (item :: items)).length ≤ fuel →
      readItems fuel (printItems (item :: items) ++ rest) = some (item :: items, rest)
  | item, [], 0, rest, _, enough => by simp [printItems] at enough
  | item, [], fuel + 1, rest, writable, enough => by
    simp only [printItems, List.length_append, List.length_singleton] at enough
    have read := readValue_print item fuel (']' :: rest) writable.1
      (by rintro c ⟨⟩; decide) (by omega)
    simp [printItems, readItems, read, skipSpace, isSpace]
  | item, next :: items, 0, rest, _, enough => by simp [printItems] at enough
  | item, next :: items, fuel + 1, rest, writable, enough => by
    simp only [printItems, List.length_append, List.length_cons] at enough
    have read := readValue_print item fuel (',' :: (printItems (next :: items) ++ rest)) writable.1
      (by rintro c ⟨⟩; decide) (by omega)
    have readRest := readItems_print next items fuel rest writable.2 (by omega)
    simp [printItems, readItems, read, readRest, skipSpace, isSpace]

theorem readFields_print : ∀ (field : String × Json) (fields : List (String × Json)) (fuel : Nat)
    (rest : List Char), FieldsWritable (field :: fields) →
      2 * (printFields (field :: fields)).length ≤ fuel →
      readFields fuel (printFields (field :: fields) ++ rest) =
        some ((field :: fields).map fun field => (some field.1, field.2), rest)
  | (name, value), [], 0, rest, _, enough => by simp [printFields] at enough
  | (name, value), [], fuel + 1, rest, writable, enough => by
    simp only [printFields, List.length_append, List.length_cons] at enough
    have read := readValue_print value fuel ('\x7d' :: rest) writable.1
      (by rintro c ⟨⟩; decide) (by omega)
    simp [printFields, quote, readFields, readLiteral_quote, read, skipSpace, isSpace]
  | (name, value), next :: fields, 0, rest, _, enough => by simp [printFields] at enough
  | (name, value), next :: fields, fuel + 1, rest, writable, enough => by
    simp only [printFields, List.length_append, List.length_cons] at enough
    have read := readValue_print value fuel (',' :: (printFields (next :: fields) ++ rest))
      writable.1 (by rintro c ⟨⟩; decide) (by omega)
    have readRest := readFields_print next fields fuel rest writable.2 (by omega)
    simp [printFields, quote, readFields, readLiteral_quote, read, readRest, skipSpace, isSpace]

end

/-- A value is read back from its compact text. -/
theorem ofText?_text {json : Json} (writable : Writable json) : ofText? json.text = some json := by
  have read := readValue_print json (2 * (print json).length + 2) [] writable (by rintro c ⟨⟩)
    (by omega)
  rw [List.append_nil] at read
  have isText : json.text.toList = print json := String.toList_ofList
  rw [ofText?, isText, ofChars?, read]
  rfl

theorem setField_append {name : String} (value : Json) {fields : List (String × Json)}
    (fresh : name ∉ fields.map (·.1)) :
    setField name value fields = fields ++ [(name, value)] := by
  induction fields with
  | nil => rfl
  | cons field rest ih =>
    rw [List.map_cons, List.mem_cons, not_or] at fresh
    rw [setField, if_neg (Ne.symm fresh.1), ih fresh.2, List.cons_append]

/-- Fields with different names all stay, and in their order. -/
theorem foldl_setField {done fields : List (String × Json)}
    (distinct : ((done ++ fields).map (·.1)).Nodup) :
    fields.foldl (fun done (name, value) => setField name value done) done = done ++ fields := by
  induction fields generalizing done with
  | nil => simp
  | cons field rest ih =>
    have fresh : field.1 ∉ done.map (·.1) := by
      rw [List.map_append, List.nodup_append] at distinct
      intro member
      exact distinct.2.2 _ member _ (by simp) rfl
    have longer : ((done ++ [field] ++ rest).map (·.1)).Nodup := by simpa using distinct
    simp only [List.foldl_cons]
    rw [setField_append _ fresh, ih longer, List.append_assoc]
    rfl

/-- What an event's parts are: values that hold no others. -/
def IsScalar : Json → Prop
  | .null | .bool _ | .str _ => True
  | .int n => -(2 ^ 63) ≤ n ∧ n < 2 ^ 64
  | _ => False

theorem IsScalar.writable : ∀ {json : Json}, json.IsScalar → json.Writable
  | .null, _ | .bool _, _ | .str _, _ => by simp [Writable]
  | .int n, scalar => by simpa [Writable, IsScalar] using scalar

theorem IsScalar.document? {json : Json} (scalar : json.IsScalar) (depth : Nat) :
    json.document? depth = some json := by
  cases json with
  | null | bool | int | str => simp [Json.document?]
  | real | unpaired | arr | obj => cases scalar

/-- The fields have different names and hold scalars. -/
structure Flat (fields : List (String × Json)) : Prop where
  distinct : (fields.map (·.1)).Nodup
  scalar : ∀ field ∈ fields, field.2.IsScalar

namespace Flat

variable {fields others : List (String × Json)}

/-- The order of the fields does not matter. -/
theorem perm (flat : Flat fields) (order : others.Perm fields) : Flat others where
  distinct := (order.map (·.1)).nodup_iff.2 flat.distinct
  scalar := fun field member => flat.scalar field (order.mem_iff.1 member)

theorem writable (flat : Flat fields) : Writable (.obj fields) := by
  rw [Writable, fieldsWritable_iff]
  exact fun field member => (flat.scalar field member).writable

theorem document? (flat : Flat fields) (depth : Nat) :
    (Json.obj fields).document? (depth + 1) = some (.obj fields) := by
  have each : documentFields? depth fields = some fields := by
    have scalar := flat.scalar
    clear flat
    induction fields with
    | nil => rfl
    | cons field rest ih =>
      rw [documentFields?, (scalar field (by simp)).document?,
        ih fun other member => scalar other (List.mem_cons_of_mem _ member)]
      rfl
  have folded : fields.foldl (fun done (name, value) => setField name value done) [] =
      [] ++ fields := foldl_setField flat.distinct
  rw [Json.document?, each, Option.map_some, folded, List.nil_append]

end Flat

end Syndication.Json
