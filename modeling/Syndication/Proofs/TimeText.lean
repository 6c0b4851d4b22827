import Mathlib.Data.List.TakeWhile
import Syndication.Proofs.AttemptKeys
import Syndication.Proofs.Calendar
import Syndication.Time.Text

namespace Syndication

namespace Text

theorem fixedDecimal_digits (width n : Nat) : ∀ c ∈ fixedDecimal width n, isDigit c = true := by
  induction width generalizing n with
  | zero => simp [fixedDecimal]
  | succ width ih =>
    intro c member
    rcases List.mem_append.1 member with front | last
    · exact ih _ c front
    · rw [List.mem_singleton.1 last]
      exact isDigit_digit (Nat.mod_lt n (by decide))

theorem fixedDecimal_ne_nil {width : Nat} (n : Nat) (positive : 0 < width) :
    fixedDecimal width n ≠ [] := by
  rw [← List.length_pos_iff, length_fixedDecimal]
  exact positive

theorem decimal_digits (n : Nat) : ∀ c ∈ decimal n, isDigit c = true := by
  induction n using decimal.induct with
  | case1 n small =>
    rw [decimal, if_pos small]
    simpa using isDigit_digit small
  | case2 n large ih =>
    rw [decimal, if_neg large]
    intro c member
    rcases List.mem_append.1 member with front | last
    · exact ih c front
    · rw [List.mem_singleton.1 last]
      exact isDigit_digit (Nat.mod_lt n (by decide))

theorem decimal_ne_nil (n : Nat) : decimal n ≠ [] := by
  rw [decimal]
  split <;> simp

theorem ofDigits_fixedDecimal {width n : Nat} (fits : n < 10 ^ width) :
    ofDigits (fixedDecimal width n) = n := by
  induction width generalizing n with
  | zero => simp_all [fixedDecimal, ofDigits]
  | succ width ih =>
    have last : n % 10 < 10 := Nat.mod_lt n (by decide)
    have front : n / 10 < 10 ^ width := by
      rw [Nat.pow_succ] at fits
      omega
    rw [fixedDecimal, ofDigits_append_digit _ last, ih front]
    omega

theorem paddedDecimal_digits (width n : Nat) : ∀ c ∈ paddedDecimal width n, isDigit c = true := by
  unfold paddedDecimal
  split
  · exact fixedDecimal_digits width n
  · exact decimal_digits n

theorem ofDigits_paddedDecimal (width n : Nat) : ofDigits (paddedDecimal width n) = n := by
  unfold paddedDecimal
  split
  · exact ofDigits_fixedDecimal ‹_›
  · exact ofDigits_decimal n

theorem paddedDecimal_ne_nil {width : Nat} (n : Nat) (positive : 0 < width) :
    paddedDecimal width n ≠ [] := by
  unfold paddedDecimal
  split
  · exact fixedDecimal_ne_nil n positive
  · exact decimal_ne_nil n

/-- Zeros that are written after a numeral raise its places. -/
theorem ofDigits_append_zeros (cs : List Char) (places : Nat) :
    ofDigits (cs ++ List.replicate places '0') = ofDigits cs * 10 ^ places := by
  induction places with
  | zero => simp
  | succ places ih =>
    have zero : '0' = digit 0 := rfl
    rw [List.replicate_succ', ← List.append_assoc, zero, ofDigits_append_digit _ (by decide),
      ← zero, ih, Nat.pow_succ, Nat.add_zero, Nat.mul_assoc]

/-- The text does not go on with a digit. -/
def EndsNumeral (rest : List Char) : Prop := ∀ c ∈ rest.head?, isDigit c = false

section Digits

variable {digits rest : List Char} (all : ∀ c ∈ digits, isDigit c = true)
include all

theorem takeWhile_isDigit (ends : EndsNumeral rest) :
    (digits ++ rest).takeWhile isDigit = digits := by
  rw [List.takeWhile_append_of_pos all]
  cases rest with
  | nil => simp
  | cons c rest => simp [ends c rfl]

theorem dropWhile_isDigit (ends : EndsNumeral rest) :
    (digits ++ rest).dropWhile isDigit = rest := by
  rw [List.dropWhile_append_of_pos all]
  cases rest with
  | nil => simp
  | cons c rest => simp [ends c rfl]

end Digits

theorem isDigit_iff {c : Char} : isDigit c = true ↔ 48 ≤ c.toNat ∧ c.toNat ≤ 57 := by
  simp [isDigit, Char.le_def, UInt32.le_iff_toNat_le]

theorem isBlank_of_isDigit {c : Char} (is : isDigit c = true) : isBlank c = false := by
  rw [isDigit_iff] at is
  simp [isBlank]
  omega

theorem dropBlank_of_digits {digits rest : List Char} (all : ∀ c ∈ digits, isDigit c = true)
    (nonempty : digits ≠ []) : dropBlank (digits ++ rest) = digits ++ rest := by
  obtain ⟨c, digits, rfl⟩ := List.exists_cons_of_ne_nil nonempty
  simp [dropBlank, isBlank_of_isDigit (all c (by simp))]

end Text

namespace Timestamp

open Text

theorem readNumber_digits {digits : List Char} (all : ∀ c ∈ digits, isDigit c = true)
    (nonempty : digits ≠ []) (rest : List Char) :
    readNumber digits.length (digits ++ rest) = some (ofDigits digits, rest) := by
  have whole : digits.takeWhile isDigit = digits := List.takeWhile_eq_self_iff.2 all
  simp [readNumber, dropBlank_of_digits all nonempty, whole, nonempty]

/-- A number of known width ends there, whatever comes after it. -/
theorem readNumber_fixedDecimal {width n : Nat} (positive : 0 < width) (fits : n < 10 ^ width)
    (rest : List Char) : readNumber width (fixedDecimal width n ++ rest) = some (n, rest) := by
  have read :=
    readNumber_digits (fixedDecimal_digits width n) (fixedDecimal_ne_nil n positive) rest
  rwa [length_fixedDecimal, ofDigits_fixedDecimal fits] at read

theorem readSigned_paddedDecimal (sign : Int) (n : Nat) {rest : List Char}
    (ends : EndsNumeral rest) :
    readYear.signed sign (paddedDecimal 4 n ++ rest) = some (sign * n, rest) := by
  have all := paddedDecimal_digits 4 n
  simp [readYear.signed, takeWhile_isDigit all ends, paddedDecimal_ne_nil n (by decide : 0 < 4),
    ofDigits_paddedDecimal]

/-- Without a sign in front a year is a number of four digits at most. -/
theorem readYear_digits {digits rest : List Char} (all : ∀ c ∈ digits, isDigit c = true)
    (nonempty : digits ≠ []) :
    readYear (digits ++ rest) = (readNumber 4 (digits ++ rest)).map fun (n, rest) => (n, rest) := by
  obtain ⟨c, digits, rfl⟩ := List.exists_cons_of_ne_nil nonempty
  have isDigit : isDigit c = true := all c (by simp)
  rw [readYear, dropBlank_of_digits all nonempty]
  split
  · next same =>
    cases same
    cases isDigit
  · next same =>
    cases same
    cases isDigit
  · rfl

theorem readYear_yearText (year : Int) {rest : List Char} (ends : EndsNumeral rest) :
    readYear (yearText year ++ rest) = some (year, rest) := by
  unfold yearText
  split
  · next plain =>
    have fits : year.toNat < 10 ^ 4 := by omega
    rw [readYear_digits (fixedDecimal_digits 4 _) (fixedDecimal_ne_nil _ (by decide)),
      readNumber_fixedDecimal (by decide) fits]
    simp [Int.toNat_of_nonneg plain.1]
  · split
    · next negative =>
      have minus : dropBlank ('-' :: paddedDecimal 4 year.natAbs ++ rest)
          = '-' :: (paddedDecimal 4 year.natAbs ++ rest) := rfl
      rw [readYear, minus]
      simp only [readSigned_paddedDecimal (-1) _ ends]
      simp only [Option.some.injEq, Prod.mk.injEq, and_true]
      omega
    · next plus =>
      have plus : dropBlank ('+' :: paddedDecimal 4 year.natAbs ++ rest)
          = '+' :: (paddedDecimal 4 year.natAbs ++ rest) := rfl
      rw [readYear, plus]
      simp only [readSigned_paddedDecimal 1 _ ends]
      simp only [Option.some.injEq, Prod.mk.injEq, and_true]
      omega

@[simp] theorem readMark_dash (rest : List Char) : readMark '-' ('-' :: rest) = some rest := rfl

@[simp] theorem readMark_colon (rest : List Char) : readMark ':' (':' :: rest) = some rest := rfl

/-- A date is read back from its three numbers. -/
theorem readDate_text {date : CivilDate} (isDate : date.Exists) (rest : List Char) :
    readDate (yearText date.year ++ '-' :: (fixedDecimal 2 date.month ++
      '-' :: (fixedDecimal 2 date.day ++ rest))) = some (date, rest) := by
  have ends : ∀ cs, EndsNumeral ('-' :: cs) := by rintro cs c ⟨⟩; rfl
  have month : date.month < 10 ^ 2 := by
    have := isDate.2.1
    omega
  have day : date.day < 10 ^ 2 := by
    have := isDate.2.2.2
    have := CivilDate.daysInMonth_le date.year date.month
    omega
  simp [readDate, readYear_yearText date.year (ends _), readNumber_fixedDecimal two_pos month,
    readNumber_fixedDecimal two_pos day, isDate]

/-- The zeros that a fraction leaves out are filled in again when it is read. -/
theorem readFraction_fixedDecimal {places n : Nat} (positive : 0 < places) (few : places ≤ 9)
    (fits : n < 10 ^ places) {rest : List Char} (ends : EndsNumeral rest) :
    readFraction ('.' :: (fixedDecimal places n ++ rest)) = some (n * 10 ^ (9 - places), rest) := by
  have all := fixedDecimal_digits places n
  have nonempty := fixedDecimal_ne_nil n positive
  have filled : (fixedDecimal places n ++ List.replicate 9 '0').take 9
      = fixedDecimal places n ++ List.replicate (9 - places) '0' := by
    rw [List.take_append, List.take_of_length_le (by simpa using few), List.take_replicate,
      length_fixedDecimal, Nat.min_eq_left (Nat.sub_le _ _)]
  simp only [readFraction, takeWhile_isDigit all ends, List.isEmpty_eq_false_iff.2 nonempty, filled,
    ofDigits_append_zeros, ofDigits_fixedDecimal fits, List.drop_left, Bool.false_eq_true, if_false]

theorem readFraction_fractionText {nanos : Nat} (small : nanos < 10 ^ 9)
    {rest : List Char} (ends : EndsNumeral rest) (noPoint : rest.head? ≠ some '.') :
    readFraction (fractionText nanos ++ rest) = some (nanos, rest) := by
  unfold fractionText
  split
  · next zero =>
    cases rest with
    | nil => simp [readFraction, zero]
    | cons c rest => simp_all [readFraction]
  · split
    · next millis =>
      have fits : nanos / 1000000 < 10 ^ 3 := by omega
      rw [List.cons_append, readFraction_fixedDecimal (by decide) (by decide) fits ends]
      simp only [Option.some.injEq, Prod.mk.injEq, and_true]
      omega
    · split
      · next micros =>
        have fits : nanos / 1000 < 10 ^ 6 := by omega
        rw [List.cons_append, readFraction_fixedDecimal (by decide) (by decide) fits ends]
        simp only [Option.some.injEq, Prod.mk.injEq, and_true]
        omega
      · rw [List.cons_append, readFraction_fixedDecimal (by decide) (by decide) small ends]
        simp

/-- The time of day is read back from its four numbers; the sixtieth second is a leap second. -/
theorem readTime_text {time second nanos : Nat} (inDay : time < 86400)
    (small : nanos < 10 ^ 9) {rest : List Char} (ends : EndsNumeral rest)
    (noPoint : rest.head? ≠ some '.')
    (isSecond : second = time % 60 ∨ time % 60 = 59 ∧ second = 60) :
    readTime (fixedDecimal 2 (time / 3600) ++ ':' :: (fixedDecimal 2 (time / 60 % 60) ++
      ':' :: (fixedDecimal 2 second ++ (fractionText nanos ++ rest)))) =
      some ((time, if second = 60 then nanos + nanosPerSecond else nanos), rest) := by
  have hour : time / 3600 < 10 ^ 2 := by omega
  have minute : time / 60 % 60 < 10 ^ 2 := by omega
  have second' : second < 10 ^ 2 := by omega
  have valid : time / 3600 < 24 ∧ time / 60 % 60 < 60 ∧ second ≤ 60 := by omega
  simp only [readTime, readNumber_fixedDecimal two_pos hour, readNumber_fixedDecimal two_pos minute,
    readNumber_fixedDecimal two_pos second', readFraction_fractionText small ends noPoint,
    readMark_colon, Option.bind_eq_bind, Option.bind_some, if_pos valid]
  split
  · simp only [Option.some.injEq, Prod.mk.injEq, and_true]
    omega
  · simp only [Option.some.injEq, Prod.mk.injEq, and_true]
    omega

theorem of?_self (t : Timestamp) : of? t.seconds t.nanos = some t := of?_eq_some_iff.2 ⟨rfl, rfl⟩

@[simp] theorem readOffset_universal : readOffset ['Z'] = some (0, []) := rfl

/-- What the printed time of day says: the second sixty and its nanoseconds, if it is a leap second,
and else the second of the minute. -/
theorem readTime_print (t : Timestamp) {rest : List Char} (ends : EndsNumeral rest)
    (noPoint : rest.head? ≠ some '.') :
    readTime (fixedDecimal 2 (t.secondOfDay.toNat / 3600) ++
      ':' :: (fixedDecimal 2 (t.secondOfDay.toNat / 60 % 60) ++
      ':' :: (fixedDecimal 2 (if t.inLeapSecond then t.secondOfDay.toNat % 60 + 1
        else t.secondOfDay.toNat % 60) ++
      (fractionText (if t.inLeapSecond then t.nanos - nanosPerSecond else t.nanos) ++ rest)))) =
      some ((t.secondOfDay.toNat, t.nanos), rest) := by
  have inDay : t.secondOfDay.toNat < 86400 := by
    unfold secondOfDay
    omega
  have shape := t.inCalendar.2.2
  by_cases leap : t.inLeapSecond = true
  · have late : nanosPerSecond ≤ t.nanos := by simpa [inLeapSecond] using leap
    have last : t.secondOfDay.toNat % 60 = 59 := by
      unfold secondOfDay
      omega
    have small : t.nanos - nanosPerSecond < 10 ^ 9 := by
      simp only [nanosPerSecond] at shape ⊢
      omega
    rw [if_pos leap, if_pos leap, readTime_text inDay small ends noPoint (by omega), last,
      if_pos rfl, Nat.sub_add_cancel late]
  · have early : t.nanos < 10 ^ 9 := by simpa [inLeapSecond] using leap
    rw [if_neg leap, if_neg leap, readTime_text inDay early ends noPoint (.inl rfl),
      if_neg (by omega)]

theorem ofChars?_print (t : Timestamp) : ofChars? t.print = some t := by
  have clock : t.seconds / 86400 * 86400 + (t.secondOfDay.toNat : Int) = t.seconds := by
    unfold secondOfDay
    omega
  have ends : EndsNumeral ['Z'] := by rintro c ⟨⟩; rfl
  simp only [ofChars?, print, readDate_text (CivilDate.ofDays_exists _), Option.bind_eq_bind,
    Option.bind_some, true_or, if_true, readTime_print t ends (by decide)]
  have nothing : dropBlank ['Z'] = ['Z'] ∧ dropBlank [] = [] := ⟨rfl, rfl⟩
  simp only [nothing, readOffset_universal, CivilDate.toDays_ofDays, clock, Option.bind_some,
    List.isEmpty_nil, if_true, of?_self, Int.sub_zero]

/-- A time is read back from its text, whatever its year, and within a leap second too. -/
theorem ofText?_text (t : Timestamp) : ofText? t.text = some t := by
  rw [ofText?, text, String.toList_ofList, ofChars?_print]

/-- A leap second in the second year before the common era. -/
example :
    (⟨-62167219201, 1500000000, by decide⟩ : Timestamp).text = "-0001-12-31T23:59:60.500Z" := by
  decide

end Timestamp

end Syndication
