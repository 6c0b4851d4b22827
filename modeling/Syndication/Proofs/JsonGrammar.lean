import Mathlib.Data.List.Forall2
import Syndication.Proofs.JsonText

namespace Syndication.Json

open Text

def Blank (cs : List Char) : Prop := ∀ c ∈ cs, isSpace c = true

/-- The code units of sixteen bits that a character has. -/
def codeUnits (c : Char) : List Nat :=
  if c.toNat < 0x10000 then [c.toNat]
  else [0xD800 + (c.toNat - 0x10000) / 0x400, 0xDC00 + (c.toNat - 0x10000) % 0x400]

/-- The escape of a code unit: a mark, and four hexadecimal digits. -/
def UnitEscape (n : Nat) (cs : List Char) : Prop :=
  ∃ digits, digits.length = 4 ∧ readHex? digits = some n ∧ cs = '\\' :: 'u' :: digits

/-- The ways to write a character inside of a string literal. -/
inductive Writes : Char → List Char → Prop
  | plain {c : Char} (printable : 0x20 ≤ c.toNat) (noQuote : c ≠ '"') (noMark : c ≠ '\\') :
      Writes c [c]
  | letter {e c : Char} (known : unescape? e = some c) : Writes c ['\\', e]
  | units {c : Char} {parts : List (List Char)}
      (each : List.Forall₂ UnitEscape (codeUnits c) parts) : Writes c parts.flatten

/-- The inside of a string literal with this text. -/
inductive Inside : List Char → List Char → Prop
  | nil : Inside [] []
  | cons {c : Char} {text cs ds : List Char} (first : Writes c cs) (others : Inside text ds) :
      Inside (c :: text) (cs ++ ds)

/-- A string literal. -/
def Quoted (s : String) (cs : List Char) : Prop :=
  ∃ inside, Inside s.toList inside ∧ cs = '"' :: (inside ++ ['"'])

/-- One digit or more. -/
def Digits (cs : List Char) : Prop := cs ≠ [] ∧ ∀ c ∈ cs, isDigit c = true

/-- The digits before the point. Only a zero alone begins with a zero. -/
def Whole (cs : List Char) : Prop := Digits cs ∧ (cs.head? = some '0' → cs = ['0'])

/-- The places after the point, and how they are written. -/
inductive Fraction : List Char → List Char → Prop
  | none : Fraction [] []
  | some {places : List Char} (digits : Digits places) : Fraction places ('.' :: places)

inductive Sign : Int → List Char → Prop
  | none : Sign 1 []
  | plus : Sign 1 ['+']
  | minus : Sign (-1) ['-']

/-- The power of ten that a number is scaled with, and how it is written. -/
inductive Exponent : Int → List Char → Prop
  | none : Exponent 0 []
  | some {mark : Char} {sign : Int} {cs digits : List Char} (isMark : mark = 'e' ∨ mark = 'E')
      (signed : Sign sign cs) (some : Digits digits) :
      Exponent (sign * ofDigits digits) (mark :: (cs ++ digits))

/-- The text of a number after its sign. -/
inductive Number (negative : Bool) : Json → List Char → Prop
  | integer {whole : List Char} (isWhole : Whole whole) :
      Number negative (ofNumeral negative (ofDigits whole)) whole
  | real {whole places fraction exponent : List Char} {power : Int} (isWhole : Whole whole)
      (isFraction : Fraction places fraction) (isExponent : Exponent power exponent)
      (more : fraction ++ exponent ≠ []) :
      Number negative (.real ⟨negative, ofDigits (whole ++ places), power - places.length⟩)
        (whole ++ (fraction ++ exponent))

mutual

/-- The text of a value. -/
inductive Spells : Json → List Char → Prop
  | null : Spells .null "null".toList
  | boolTrue : Spells (.bool true) "true".toList
  | boolFalse : Spells (.bool false) "false".toList
  | positive {json : Json} {cs : List Char} (number : Number false json cs) : Spells json cs
  | negative {json : Json} {cs : List Char} (number : Number true json cs) :
      Spells json ('-' :: cs)
  | str {s : String} {cs : List Char} (quoted : Quoted s cs) : Spells (.str s) cs
  | noItems {blank : List Char} (isBlank : Blank blank) :
      Spells (.arr []) ('[' :: (blank ++ [']']))
  | arr {items : List Json} {cs : List Char} (each : Items items cs) :
      Spells (.arr items) ('[' :: (cs ++ [']']))
  | noFields {blank : List Char} (isBlank : Blank blank) :
      Spells (.obj []) ('\x7b' :: (blank ++ ['\x7d']))
  | obj {fields : List (String × Json)} {cs : List Char} (each : Fields fields cs) :
      Spells (.obj fields) ('\x7b' :: (cs ++ ['\x7d']))

/-- The text of a value with blanks around it. -/
inductive Padded : Json → List Char → Prop
  | intro {json : Json} {before cs after : List Char} (blankBefore : Blank before)
      (spells : Spells json cs) (blankAfter : Blank after) : Padded json (before ++ (cs ++ after))

/-- One value or more, with commas between them. -/
inductive Items : List Json → List Char → Prop
  | one {item : Json} {cs : List Char} (padded : Padded item cs) : Items [item] cs
  | cons {item : Json} {items : List Json} {cs ds : List Char} (padded : Padded item cs)
      (others : Items items ds) : Items (item :: items) (cs ++ ',' :: ds)

/-- One name with its value. -/
inductive Field : String × Json → List Char → Prop
  | intro {name : String} {value : Json} {before cs after ds : List Char}
      (blankBefore : Blank before) (quoted : Quoted name cs) (blankAfter : Blank after)
      (padded : Padded value ds) : Field (name, value) (before ++ (cs ++ (after ++ ':' :: ds)))

/-- One name with its value or more, with commas between them. A name may be repeated. -/
inductive Fields : List (String × Json) → List Char → Prop
  | one {field : String × Json} {cs : List Char} (isField : Field field cs) : Fields [field] cs
  | cons {field : String × Json} {fields : List (String × Json)} {cs ds : List Char}
      (isField : Field field cs) (others : Fields fields ds) :
      Fields (field :: fields) (cs ++ ',' :: ds)

end

theorem hexValue?_lt {c : Char} {v : Nat} (value : hexValue? c = some v) : v < 16 := by
  unfold hexValue? at value
  split at value
  · rename_i digit
    rw [isDigit_iff] at digit
    cases value
    rw [digitValue, show '0'.toNat = 48 from rfl]
    omega
  · simp only [Bool.and_eq_true, decide_eq_true_eq, Char.le_def, UInt32.le_iff_toNat_le] at value
    have small : 'f'.val.toNat = 'a'.toNat + 5 := rfl
    have large : 'F'.val.toNat = 'A'.toNat + 5 := rfl
    have : c.val.toNat = c.toNat := rfl
    split at value
    · cases value
      omega
    · split at value
      · cases value
        omega
      · cases value

theorem readHex?_lt {cs : List Char} {n : Nat} (read : readHex? cs = some n) :
    n < 16 ^ cs.length := by
  -- The bound for a run of digits depends on the number that was read before it.
  have step : ∀ (cs : List Char) (seen : Nat),
      cs.foldlM (fun n c => (hexValue? c).map (n * 16 + ·)) seen = some n →
        n < (seen + 1) * 16 ^ cs.length := by
    intro cs
    induction cs with
    | nil =>
      rintro seen ⟨⟩
      simp
    | cons c cs ih =>
      intro seen read
      rw [List.foldlM_cons] at read
      obtain ⟨next, first, read⟩ := Option.bind_eq_some_iff.1 read
      obtain ⟨v, value, rfl⟩ := Option.map_eq_some_iff.1 first
      have : v < 16 := hexValue?_lt value
      calc n < (seen * 16 + v + 1) * 16 ^ cs.length := ih _ read
        _ ≤ (seen + 1) * 16 * 16 ^ cs.length := Nat.mul_le_mul_right _ (by omega)
        _ = (seen + 1) * 16 ^ (c :: cs).length := by
          rw [List.length_cons, Nat.pow_succ', Nat.mul_assoc]
  simpa using step cs 0 read

theorem UnitEscape.lt {n : Nat} {cs : List Char} (isEscape : UnitEscape n cs) : n < 0x10000 := by
  obtain ⟨digits, four, read, _⟩ := isEscape
  simpa [four] using readHex?_lt read

theorem toNat_ofNat {n : Nat} (valid : n.isValidChar) : (Char.ofNat n).toNat = n := by
  rw [Char.ofNat, dif_pos valid]
  rfl

theorem codeUnits_ofNat {n : Nat} (small : n < 0x10000) (noHigh : ¬ Piece.isHighSurrogate n)
    (noLow : ¬ Piece.isLowSurrogate n) : codeUnits (Char.ofNat n) = [n] := by
  simp only [Piece.isHighSurrogate, Piece.isLowSurrogate, Bool.and_eq_true, decide_eq_true_eq]
    at noHigh noLow
  have valid : n.isValidChar := by unfold Nat.isValidChar; omega
  rw [codeUnits, toNat_ofNat valid, if_pos small]

theorem codeUnits_joined {high low : Nat} (isHigh : Piece.isHighSurrogate high)
    (isLow : Piece.isLowSurrogate low) : codeUnits (Piece.joined high low) = [high, low] := by
  simp only [Piece.isHighSurrogate, Piece.isLowSurrogate, Bool.and_eq_true, decide_eq_true_eq]
    at isHigh isLow
  have valid : (0x10000 + (high - 0xD800) * 0x400 + (low - 0xDC00)).isValidChar := by
    unfold Nat.isValidChar
    omega
  have value := toNat_ofNat valid
  have large : ¬ 0x10000 + (high - 0xD800) * 0x400 + (low - 0xDC00) < 0x10000 := by omega
  rw [codeUnits, Piece.joined, value, if_neg large]
  simp only [List.cons.injEq, and_true]
  omega

/-- The text of the code units of a character is the character. -/
theorem text?_codeUnits (c : Char) (pieces : List Piece) :
    Piece.text? ((codeUnits c).map .unit ++ pieces) = (Piece.text? pieces).map (c :: ·) := by
  have valid : c.toNat < 0xD800 ∨ 0xDFFF < c.toNat ∧ c.toNat < 0x110000 := c.valid
  by_cases small : c.toNat < 0x10000
  · have high : ¬ Piece.isHighSurrogate c.toNat := by simp [Piece.isHighSurrogate]; omega
    have low : ¬ Piece.isLowSurrogate c.toNat := by simp [Piece.isLowSurrogate]; omega
    rw [codeUnits, if_pos small, List.map_singleton, List.singleton_append, Piece.text?.eq_def]
    simp only [if_neg high, if_neg low, Char.ofNat_toNat]
  · have high : Piece.isHighSurrogate (0xD800 + (c.toNat - 0x10000) / 0x400) := by
      simp [Piece.isHighSurrogate]
      omega
    have low : Piece.isLowSurrogate (0xDC00 + (c.toNat - 0x10000) % 0x400) := by
      simp [Piece.isLowSurrogate]
      omega
    have joins : Piece.joined (0xD800 + (c.toNat - 0x10000) / 0x400)
        (0xDC00 + (c.toNat - 0x10000) % 0x400) = c :=
      (congrArg Char.ofNat (by omega)).trans (Char.ofNat_toNat c)
    rw [codeUnits, if_neg small]
    simp [Piece.text?, high, low, joins]

/-- What a piece of a literal is read from. -/
inductive Piece.Written : Piece → List Char → Prop
  | plain {c : Char} (printable : 0x20 ≤ c.toNat) (noQuote : c ≠ '"') (noMark : c ≠ '\\') :
      Written (.char c) [c]
  | letter {e c : Char} (known : unescape? e = some c) : Written (.char c) ['\\', e]
  | unit {n : Nat} {cs : List Char} (isEscape : UnitEscape n cs) : Written (.unit n) cs

/-- The pieces of a literal are read from parts of it, one part each. -/
theorem readPieces_written {cs rest : List Char} {pieces : List Piece}
    (read : readPieces cs = some (pieces, rest)) :
    ∃ parts, List.Forall₂ Piece.Written pieces parts ∧ cs = parts.flatten ++ '"' :: rest := by
  -- What the reader meets: the end of the text, the quote, the escape of a code unit, another
  -- escape, a character that has to be escaped, and any other character.
  fun_induction readPieces cs generalizing pieces with
  | case1 => cases read
  | case2 =>
    cases read
    exact ⟨[], .nil, rfl⟩
  | case3 a b c d cs ih =>
    obtain ⟨n, value, read⟩ := Option.bind_eq_some_iff.1 read
    obtain ⟨⟨others, after⟩, readOthers, same⟩ := Option.bind_eq_some_iff.1 read
    cases same
    obtain ⟨parts, written, rfl⟩ := ih readOthers
    have isEscape : UnitEscape n ['\\', 'u', a, b, c, d] := ⟨_, rfl, value, rfl⟩
    exact ⟨_ :: parts, .cons (.unit isEscape) written, by simp⟩
  | case4 e cs _ ih =>
    obtain ⟨c, known, read⟩ := Option.bind_eq_some_iff.1 read
    obtain ⟨⟨others, after⟩, readOthers, same⟩ := Option.bind_eq_some_iff.1 read
    cases same
    obtain ⟨parts, written, rfl⟩ := ih readOthers
    exact ⟨['\\', e] :: parts, .cons (.letter known) written, by simp⟩
  | case5 => cases read
  | case6 c cs noQuote _ _ printable ih =>
    rw [not_or] at printable
    obtain ⟨⟨others, after⟩, readOthers, same⟩ := Option.bind_eq_some_iff.1 read
    cases same
    obtain ⟨parts, written, rfl⟩ := ih readOthers
    exact ⟨[c] :: parts, .cons (.plain (by omega) noQuote printable.1) written, by simp⟩

/-- Pieces that have a text are the inside of a literal with this text. A pair of surrogates is one
character of the text. -/
theorem inside_of_written {pieces : List Piece} {parts : List (List Char)} {text : List Char}
    (written : List.Forall₂ Piece.Written pieces parts) (has : Piece.text? pieces = some text) :
    Inside text parts.flatten := by
  fun_induction Piece.text? pieces generalizing parts text with
  | case1 =>
    cases has
    cases written
    exact .nil
  | case2 c rest ih =>
    obtain ⟨others, hasOthers, rfl⟩ := Option.map_eq_some_iff.1 has
    cases written with | cons first written
    cases first with
    | plain printable noQuote noMark =>
      exact .cons (.plain printable noQuote noMark) (ih written hasOthers)
    | letter known => exact .cons (.letter known) (ih written hasOthers)
  | case3 high isHigh low rest isLow ih =>
    -- The two parts are one character, so that they are taken together.
    obtain ⟨others, hasOthers, rfl⟩ := Option.map_eq_some_iff.1 has
    cases written with | cons first written
    cases written with | cons second written
    cases first with | unit first
    cases second with | unit second
    have each : List.Forall₂ UnitEscape [high, low] _ := .cons first (.cons second .nil)
    rw [← codeUnits_joined isHigh isLow] at each
    simpa using Inside.cons (.units each) (ih written hasOthers)
  | case4 => cases has
  | case5 => cases has
  | case6 => cases has
  | case7 n rest noHigh noLow ih =>
    obtain ⟨others, hasOthers, rfl⟩ := Option.map_eq_some_iff.1 has
    cases written with | cons first written
    cases first with | unit first
    have each : List.Forall₂ UnitEscape [n] _ := .cons first .nil
    rw [← codeUnits_ofNat first.lt noHigh noLow] at each
    simpa using Inside.cons (.units each) (ih written hasOthers)

theorem readLiteral_sound {cs rest : List Char} {s : String}
    (read : readLiteral cs = some (some s, rest)) :
    ∃ inside, Inside s.toList inside ∧ cs = inside ++ '"' :: rest := by
  obtain ⟨⟨pieces, after⟩, readAll, same⟩ := Option.bind_eq_some_iff.1 read
  simp only [Option.pure_def, Option.some.injEq, Prod.mk.injEq] at same
  obtain ⟨has, rfl⟩ := same
  obtain ⟨text, hasText, rfl⟩ := Option.map_eq_some_iff.1 has
  obtain ⟨parts, written, rfl⟩ := readPieces_written readAll
  exact ⟨parts.flatten, by simpa using inside_of_written written hasText, rfl⟩

theorem readPieces_unit {n : Nat} {cs : List Char} (isEscape : UnitEscape n cs)
    (rest : List Char) :
    readPieces (cs ++ rest) =
      (readPieces rest).map fun (pieces, rest) => (.unit n :: pieces, rest) := by
  obtain ⟨digits, four, value, rfl⟩ := isEscape
  obtain ⟨a, b, c, d, rfl⟩ := List.length_eq_four.1 four
  simp [readPieces, value, Option.map_eq_bind]

theorem readPieces_units {units : List Nat} {parts : List (List Char)}
    (each : List.Forall₂ UnitEscape units parts) (rest : List Char) :
    readPieces (parts.flatten ++ rest) =
      (readPieces rest).map fun (pieces, rest) => (units.map .unit ++ pieces, rest) := by
  induction each with
  | nil => simp
  | cons first _ ih =>
    rw [List.flatten_cons, List.append_assoc, readPieces_unit first, ih, Option.map_map]
    rfl

/-- Whatever way a character is written, some pieces are read from it, and they stand for the
character. -/
theorem Writes.read {c : Char} {cs : List Char} (writes : Writes c cs) :
    ∃ front : List Piece,
      (∀ rest, readPieces (cs ++ rest) =
        (readPieces rest).map fun (pieces, rest) => (front ++ pieces, rest)) ∧
      ∀ pieces, Piece.text? (front ++ pieces) = (Piece.text? pieces).map (c :: ·) := by
  cases writes with
  | plain printable noQuote noMark =>
    refine ⟨[.char c], fun rest => ?_, fun pieces => by rw [List.singleton_append, Piece.text?]⟩
    have visible : ¬ (c = '\\' ∨ c.toNat < 0x20) := by simp [noMark, printable]
    rw [List.singleton_append, readPieces.eq_def]
    split <;> simp_all [Option.map_eq_bind]
  | @letter e _ known =>
    refine ⟨[.char c], fun rest => ?_, fun pieces => by rw [List.singleton_append, Piece.text?]⟩
    have noUnit : e ≠ 'u' := by rintro rfl; cases known
    rw [List.cons_append, List.singleton_append, readPieces.eq_4 _ _ (by simp [noUnit]), known]
    simp [Option.map_eq_bind]
  | units each => exact ⟨_, readPieces_units each, text?_codeUnits c⟩

theorem Inside.read {text cs : List Char} (inside : Inside text cs) (rest : List Char) :
    ∃ pieces, readPieces (cs ++ '"' :: rest) = some (pieces, rest) ∧
      Piece.text? pieces = some text := by
  induction inside with
  | nil => exact ⟨[], by simp [readPieces], rfl⟩
  | cons first _ ih =>
    obtain ⟨pieces, read, text⟩ := ih
    obtain ⟨front, readFront, textFront⟩ := first.read
    exact ⟨front ++ pieces, by rw [List.append_assoc, readFront, read]; rfl,
      by rw [textFront, text]; rfl⟩

theorem readLiteral_complete {s : String} {cs : List Char} (inside : Inside s.toList cs)
    (rest : List Char) : readLiteral (cs ++ '"' :: rest) = some (some s, rest) := by
  obtain ⟨pieces, read, text⟩ := inside.read rest
  simp [readLiteral, read, text]

theorem splitDigits_sound {cs digits rest : List Char} (split : splitDigits cs = (digits, rest)) :
    cs = digits ++ rest ∧ ∀ c ∈ digits, isDigit c = true := by
  cases split
  exact ⟨List.takeWhile_append_dropWhile.symm, List.all_eq_true.1 List.all_takeWhile⟩

theorem splitDigits_digits {digits rest : List Char} (all : Digits digits)
    (ends : EndsNumeral rest) : splitDigits (digits ++ rest) = (digits, rest) := by
  rw [splitDigits, takeWhile_isDigit all.2 ends, dropWhile_isDigit all.2 ends]

theorem readWhole_sound {cs whole rest : List Char} (read : readWhole cs = some (whole, rest)) :
    Whole whole ∧ cs = whole ++ rest := by
  rcases split : splitDigits cs with ⟨digits, after⟩
  obtain ⟨rfl, all⟩ := splitDigits_sound split
  rw [readWhole, split] at read
  split at read
  · cases read
  · cases read
  · rename_i front rest notNone noZero same
    cases same
    cases read
    refine ⟨⟨⟨notNone, all⟩, fun zero => ?_⟩, rfl⟩
    obtain ⟨others, rfl⟩ := List.head?_eq_some_iff.1 zero
    cases others with
    | nil => rfl
    | cons next others => exact (noZero next others rfl).elim

theorem readWhole_complete {whole rest : List Char} (isWhole : Whole whole)
    (ends : EndsNumeral rest) : readWhole (whole ++ rest) = some (whole, rest) := by
  obtain ⟨digits, alone⟩ := isWhole
  rw [readWhole, splitDigits_digits digits ends]
  split
  · rename_i empty
    cases empty
    exact (digits.1 rfl).elim
  · rename_i zero
    cases zero
    simpa using alone rfl
  · rename_i same
    cases same
    rfl

theorem readFraction_sound {cs rest : List Char} {places : Option (List Char)}
    (read : readFraction cs = some (places, rest)) :
    ∃ front, Fraction (places.getD []) front ∧ cs = front ++ rest ∧
      (places = none ↔ front = []) := by
  unfold readFraction at read
  split at read
  · rename_i cs
    rcases split : splitDigits cs with ⟨digits, after⟩
    obtain ⟨rfl, all⟩ := splitDigits_sound split
    rw [split] at read
    split at read
    · cases read
    · rename_i notNone same
      cases same
      cases read
      exact ⟨'.' :: digits, .some ⟨notNone, all⟩, rfl, by simp⟩
  · cases read
    exact ⟨[], .none, rfl, by simp⟩

theorem readFraction_complete {places front rest : List Char} (isFraction : Fraction places front)
    (ends : EndsNumeral rest) (noPoint : ∀ c ∈ rest.head?, c ≠ '.') :
    ∃ read, readFraction (front ++ rest) = some (read, rest) ∧ read.getD [] = places ∧
      (read = none ↔ front = []) := by
  cases isFraction with
  | none =>
    refine ⟨none, ?_, rfl, by simp⟩
    rw [List.nil_append, readFraction.eq_2]
    rintro cs rfl
    exact noPoint '.' rfl rfl
  | some digits =>
    refine ⟨some places, ?_, rfl, by simp⟩
    rw [List.cons_append, readFraction, splitDigits_digits digits ends]
    split
    · rename_i same
      cases same
      exact (digits.1 rfl).elim
    · rename_i same
      cases same
      rfl

theorem readSign_sound {cs rest : List Char} {sign : Int} (read : readSign cs = (sign, rest)) :
    ∃ front, Sign sign front ∧ cs = front ++ rest := by
  unfold readSign at read
  split at read <;> cases read
  · exact ⟨_, .plus, rfl⟩
  · exact ⟨_, .minus, rfl⟩
  · exact ⟨_, .none, rfl⟩

theorem readSign_complete {sign : Int} {front digits rest : List Char} (isSign : Sign sign front)
    (isDigits : Digits digits) : readSign (front ++ (digits ++ rest)) = (sign, digits ++ rest) := by
  cases isSign with
  | plus | minus => rfl
  | none =>
    obtain ⟨c, cs, rfl⟩ := List.exists_cons_of_ne_nil isDigits.1
    have digit : isDigit c = true := isDigits.2 c (by simp)
    rw [List.nil_append, List.cons_append, readSign.eq_3]
    · rintro _ ⟨⟩
      cases digit
    · rintro _ ⟨⟩
      cases digit

theorem readExponent_sound {cs rest : List Char} {power : Option Int}
    (read : readExponent cs = some (power, rest)) :
    ∃ front, Exponent (power.getD 0) front ∧ cs = front ++ rest ∧
      (power = none ↔ front = []) := by
  unfold readExponent at read
  split at read
  · split at read
    · rename_i mark cs isMark
      rcases signed : readSign cs with ⟨sign, unsigned⟩
      rcases split : splitDigits unsigned with ⟨digits, after⟩
      obtain ⟨front, isSign, rfl⟩ := readSign_sound signed
      obtain ⟨rfl, all⟩ := splitDigits_sound split
      simp only [signed, split] at read
      split at read
      · cases read
      · rename_i notNone same
        cases same
        cases read
        have isExponent : Exponent (sign * ofDigits digits) _ := .some isMark isSign ⟨notNone, all⟩
        exact ⟨mark :: (front ++ digits), isExponent, by simp, by simp⟩
    · cases read
      exact ⟨[], .none, rfl, by simp⟩
  · cases read
    exact ⟨[], .none, rfl, by simp⟩

theorem readExponent_complete {power : Int} {front rest : List Char}
    (isExponent : Exponent power front) (ends : EndsNumber rest) :
    ∃ read, readExponent (front ++ rest) = some (read, rest) ∧ read.getD 0 = power ∧
      (read = none ↔ front = []) := by
  cases isExponent with
  | none =>
    refine ⟨none, ?_, rfl, by simp⟩
    cases rest with
    | nil => rfl
    | cons c rest =>
      have noMark := (ends c rfl).2.2
      rw [List.nil_append, readExponent, if_neg (not_or.2 noMark)]
  | @some mark sign cs digits isMark signed isDigits =>
    refine ⟨some (sign * ofDigits digits), ?_, rfl, by simp⟩
    rw [List.cons_append, List.append_assoc, readExponent, if_pos isMark]
    simp only [readSign_complete signed isDigits, splitDigits_digits isDigits ends.endsNumeral]
    split
    · rename_i same
      cases same
      exact (isDigits.1 rfl).elim
    · rename_i same
      cases same
      rfl

theorem readNumber_sound {negative : Bool} {cs rest : List Char} {json : Json}
    (read : readNumber negative cs = some (json, rest)) :
    ∃ front, Number negative json front ∧ cs = front ++ rest := by
  obtain ⟨⟨whole, _⟩, first, afterWhole⟩ := Option.bind_eq_some_iff.1 read
  obtain ⟨⟨places, _⟩, second, afterFraction⟩ := Option.bind_eq_some_iff.1 afterWhole
  obtain ⟨⟨power, _⟩, third, made⟩ := Option.bind_eq_some_iff.1 afterFraction
  obtain ⟨isWhole, rfl⟩ := readWhole_sound first
  obtain ⟨fraction, isFraction, rfl, noPlaces⟩ := readFraction_sound second
  obtain ⟨exponent, isExponent, rfl, noPower⟩ := readExponent_sound third
  dsimp only at made
  split at made
  · cases made
    refine ⟨whole, .integer isWhole, ?_⟩
    rw [noPlaces.1 rfl, noPower.1 rfl]
    rfl
  · rename_i notBoth
    cases made
    refine ⟨_, .real isWhole isFraction isExponent fun none => ?_, by simp⟩
    rw [List.append_eq_nil_iff] at none
    exact notBoth (noPlaces.2 none.1) (noPower.2 none.2)

/-- What follows the whole part of a number is no digit. -/
theorem EndsNumber.endsNumeral_append {places fraction exponent rest : List Char} {power : Int}
    (isFraction : Fraction places fraction) (isExponent : Exponent power exponent)
    (ends : EndsNumber rest) : EndsNumeral (fraction ++ (exponent ++ rest)) := by
  cases isFraction with
  | some => rintro c ⟨⟩; rfl
  | none =>
    cases isExponent with
    | none => exact ends.endsNumeral
    | some isMark => rcases isMark with rfl | rfl <;> (rintro c ⟨⟩; rfl)

theorem readNumber_complete {negative : Bool} {json : Json} {cs rest : List Char}
    (number : Number negative json cs) (ends : EndsNumber rest) :
    readNumber negative (cs ++ rest) = some (json, rest) := by
  cases number with
  | integer isWhole =>
    obtain ⟨places, readFraction, _, noPlaces⟩ :=
      readFraction_complete .none ends.endsNumeral fun c first => (ends c first).2.1
    obtain ⟨power, readExponent, _, noPower⟩ := readExponent_complete .none ends
    rw [List.nil_append] at readFraction readExponent
    rw [noPlaces.2 rfl] at readFraction
    rw [noPower.2 rfl] at readExponent
    simp [readNumber, readWhole_complete isWhole ends.endsNumeral, readFraction, readExponent]
  | @real whole places fraction exponent power isWhole isFraction isExponent more =>
    have endsFraction : EndsNumeral (exponent ++ rest) := ends.endsNumeral_append .none isExponent
    have noPoint : ∀ c ∈ (exponent ++ rest).head?, c ≠ '.' := by
      cases isExponent with
      | none => exact fun c first => (ends c first).2.1
      | some isMark => rcases isMark with rfl | rfl <;> (rintro c ⟨⟩; decide)
    obtain ⟨readPlaces, second, rfl, noPlaces⟩ :=
      readFraction_complete isFraction endsFraction noPoint
    obtain ⟨readPower, third, rfl, noPower⟩ := readExponent_complete isExponent ends
    have notBoth : ¬ (readPlaces = none ∧ readPower = none) := by
      rw [noPlaces, noPower, ← List.append_eq_nil_iff]
      exact more
    simp only [readNumber, List.append_assoc,
      readWhole_complete isWhole (ends.endsNumeral_append isFraction isExponent), second,
      third, Option.bind_eq_bind, Option.bind_some]
    split
    · exact (notBoth ⟨rfl, rfl⟩).elim
    · rfl

end Syndication.Json
