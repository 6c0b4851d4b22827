import Mathlib.Data.List.Infix
import Syndication.Event.Basic

namespace Syndication

namespace Text

theorem ofDigits_append_digit (cs : List Char) {n : Nat} (small : n < 10) :
    ofDigits (cs ++ [digit n]) = ofDigits cs * 10 + n := by
  simp [ofDigits, List.foldl_append, digitValue_digit small]

theorem ofDigits_decimal (n : Nat) : ofDigits (decimal n) = n := by
  induction n using decimal.induct with
  | case1 n small =>
    rw [decimal, if_pos small, ← List.nil_append [digit n], ofDigits_append_digit _ small]
    simp [ofDigits]
  | case2 n large ih =>
    have last : n % 10 < 10 := Nat.mod_lt n (by omega)
    rw [decimal, if_neg large, ofDigits_append_digit _ last, ih]
    omega

theorem decimal_injective {m n : Nat} (same : decimal m = decimal n) : m = n := by
  rw [← ofDigits_decimal m, same, ofDigits_decimal]

/-- The mark does not occur in the text. -/
def Lacks (mark cs : List Char) : Prop := splitFirst? mark cs = none

theorem afterMark?_eq_none_iff {mark cs : List Char} :
    afterMark? mark cs = none ↔ ¬ mark <+: cs := by
  rw [← List.isPrefixOf_iff_prefix, afterMark?]
  split <;> simp_all

theorem lacks_cons_iff {mark cs : List Char} {c : Char} :
    Lacks mark (c :: cs) ↔ ¬ mark <+: c :: cs ∧ Lacks mark cs := by
  rw [← afterMark?_eq_none_iff, Lacks, Lacks, splitFirst?]
  cases afterMark? mark (c :: cs) <;> simp

theorem beforeFirst_of_lacks {mark cs : List Char} (lacks : Lacks mark cs) :
    beforeFirst mark cs = cs := by
  rw [beforeFirst, lacks]

theorem lacks_of_splitFirst? {mark cs before after : List Char} (nonempty : mark ≠ [])
    (parts : splitFirst? mark cs = some (before, after)) : Lacks mark before := by
  have emptyLacks : Lacks mark [] := by
    simp [Lacks, splitFirst?, nonempty]
  induction cs generalizing before with
  | nil => simp [splitFirst?, nonempty] at parts
  | cons c cs ih =>
    rw [splitFirst?] at parts
    cases here : afterMark? mark (c :: cs) with
    | some rest =>
      rw [here] at parts
      cases parts
      exact emptyLacks
    | none =>
      rw [here] at parts
      obtain ⟨⟨front, rest⟩, found, same⟩ := Option.map_eq_some_iff.1 parts
      cases same
      have whole := splitFirst?_append found
      refine lacks_cons_iff.2 ⟨fun starts => ?_, ih found⟩
      -- a mark at the front of the first part is one at the front of the whole text
      have longer : c :: front <+: c :: cs := by
        rw [whole, List.append_assoc, ← List.cons_append]
        exact List.prefix_append ..
      exact afterMark?_eq_none_iff.1 here (starts.trans longer)

theorem lacks_beforeFirst {mark : List Char} (nonempty : mark ≠ []) (cs : List Char) :
    Lacks mark (beforeFirst mark cs) := by
  unfold beforeFirst
  split
  · rename_i parts
    exact lacks_of_splitFirst? nonempty parts
  · assumption

/-- A mark whose first character occurs in it only once is found where it was put behind a text
without it. -/
theorem splitFirst?_append_mark {first : Char} {tail base rest : List Char} (once : first ∉ tail)
    (lacks : Lacks (first :: tail) base) :
    splitFirst? (first :: tail) (base ++ (first :: tail) ++ rest) = some (base, rest) := by
  induction base with
  | nil =>
    have found : afterMark? (first :: tail) (first :: tail ++ rest) = some rest :=
      afterMark?_eq_some_iff.2 rfl
    rw [List.nil_append, List.cons_append, splitFirst?, ← List.cons_append, found]
  | cons c base ih =>
    obtain ⟨notHere, lacks⟩ := lacks_cons_iff.1 lacks
    have none : afterMark? (first :: tail) (c :: (base ++ (first :: tail) ++ rest)) = none := by
      refine afterMark?_eq_none_iff.2 fun starts => ?_
      rw [List.append_assoc, ← List.cons_append] at starts
      have front : c :: base <+: c :: base ++ (first :: tail ++ rest) := List.prefix_append ..
      rcases List.prefix_or_prefix_of_prefix starts front with inside | ⟨overlap, parts⟩
      · exact notHere inside
      · -- the mark would go on in the mark that follows, with its first character in its tail
        have within : overlap <+: first :: tail ++ rest := by
          refine (List.prefix_append_right_inj (c :: base)).1 ?_
          rw [parts]
          exact starts
        cases overlap with
        | nil => exact notHere (by simp [← parts])
        | cons x overlap =>
          obtain ⟨same, _⟩ := List.cons_prefix_cons.1 within
          obtain ⟨_, ends⟩ := List.cons.inj parts
          rw [← ends, ← same] at once
          exact once (List.mem_append_right base (List.mem_cons_self ..))
    rw [List.cons_append, List.cons_append, splitFirst?, none, ih lacks]
    rfl

theorem beforeFirst_append_mark {first : Char} {tail base rest : List Char} (once : first ∉ tail)
    (lacks : Lacks (first :: tail) base) :
    beforeFirst (first :: tail) (base ++ (first :: tail) ++ rest) = base := by
  rw [beforeFirst, splitFirst?_append_mark once lacks]

end Text

theorem attemptMark_toList : attemptMark.toList = '#' :: "attempt-".toList := rfl

theorem attemptMark_once : '#' ∉ "attempt-".toList := by decide

/-- The part of a key before its first attempt mark. -/
def keyBase (key : String) : List Char := Text.beforeFirst attemptMark.toList key.toList

/-- The key is that of a later attempt: a part without an attempt mark, the mark and the number. -/
def IsAttemptKey (key : String) (attempt : Nat) : Prop :=
  ∃ base, Text.Lacks attemptMark.toList base ∧
    key.toList = base ++ attemptMark.toList ++ Text.decimal attempt

theorem keyBase_lacks (key : String) : Text.Lacks attemptMark.toList (keyBase key) :=
  Text.lacks_beforeFirst (by decide) key.toList

namespace RetryEvent

theorem nextKey_toList (key : String) (attempt : UInt32) : (nextKey key attempt).toList =
    keyBase key ++ attemptMark.toList ++ Text.decimal attempt.toNat := by
  rw [nextKey, String.toList_ofList, keyBase]

theorem nextKey_isAttemptKey (key : String) (attempt : UInt32) :
    IsAttemptKey (nextKey key attempt) attempt.toNat :=
  ⟨keyBase key, keyBase_lacks key, nextKey_toList key attempt⟩

theorem keyBase_of_parts {key : String} {base digits : List Char}
    (lacks : Text.Lacks attemptMark.toList base)
    (parts : key.toList = base ++ attemptMark.toList ++ digits) : keyBase key = base := by
  rw [keyBase, parts]
  exact Text.beforeFirst_append_mark attemptMark_once lacks

theorem keyBase_nextKey (key : String) (attempt : UInt32) :
    keyBase (nextKey key attempt) = keyBase key :=
  keyBase_of_parts (keyBase_lacks key) (nextKey_toList key attempt)

/-- Two attempts have the same key exactly if their number is the same and so is the part of the
old keys before the first attempt mark. -/
theorem nextKey_eq_iff {key other : String} {attempt number : UInt32} :
    nextKey key attempt = nextKey other number ↔
      keyBase key = keyBase other ∧ attempt = number := by
  constructor
  · intro same
    have sameBase : keyBase key = keyBase other := by
      rw [← keyBase_nextKey key attempt, same, keyBase_nextKey]
    have chars := congrArg String.toList same
    rw [nextKey_toList, nextKey_toList, sameBase, List.append_cancel_left_eq] at chars
    exact ⟨sameBase, UInt32.toNat_inj.1 (Text.decimal_injective chars)⟩
  · rintro ⟨sameBase, rfl⟩
    apply String.toList_injective
    rw [nextKey_toList, nextKey_toList, sameBase]

/-- The next attempt keeps its key exactly if the key was that of the next attempt already. -/
theorem nextKey_eq_self_iff {key : String} {attempt : UInt32} :
    nextKey key attempt = key ↔ IsAttemptKey key attempt.toNat := by
  constructor
  · intro same
    exact same ▸ nextKey_isAttemptKey key attempt
  · rintro ⟨base, lacks, parts⟩
    apply String.toList_injective
    rw [nextKey_toList, keyBase_of_parts lacks parts, parts]

end RetryEvent

end Syndication
