namespace Syndication.Text

/-- Only ASCII letters have an upper and a lower case, so keys with accented or dotless letters stay
different from their plain look-alikes. -/
def upper (s : String) : String := .ofList (s.toList.map Char.toUpper)

def lower (s : String) : String := .ofList (s.toList.map Char.toLower)

/-- Equality up to the case of ASCII letters. -/
def sameLetters (s t : String) : Bool := lower s == lower t

@[simp] theorem sameLetters_self (s : String) : sameLetters s s = true := by
  simp [sameLetters]

/-- Large and small forms of a letter have the same forms again. -/
theorem toUpper_toLower (c : Char) :
    c.toLower.toUpper = c.toUpper ∧ c.toUpper.toLower = c.toLower := by
  by_cases small : c.toNat < 128
  · have all : ∀ n : Fin 128, (Char.ofNat n).toLower.toUpper = (Char.ofNat n).toUpper ∧
        (Char.ofNat n).toUpper.toLower = (Char.ofNat n).toLower := by decide
    rw [← Char.ofNat_toNat c]
    exact all ⟨c.toNat, small⟩
  · have large : 128 ≤ c.val := by
      rw [UInt32.le_iff_toNat_le]
      exact Nat.le_of_not_lt small
    have upper : c.toUpper = c := dif_neg fun h => absurd (UInt32.le_trans large h.2) (by decide)
    have lower : c.toLower = c := dif_neg fun h => absurd (UInt32.le_trans large h.2) (by decide)
    simp only [upper, lower, and_self]

theorem upper_lower (s : String) : upper (lower s) = upper s := by
  simp only [upper, lower, String.toList_ofList, List.map_map, Function.comp_def, toUpper_toLower]

theorem lower_upper (s : String) : lower (upper s) = lower s := by
  simp only [upper, lower, String.toList_ofList, List.map_map, Function.comp_def, toUpper_toLower]

/-- Texts are equal up to letter case if they are when all letters are large. -/
theorem sameLetters_iff {s t : String} : sameLetters s t = true ↔ upper s = upper t := by
  rw [sameLetters, beq_iff_eq]
  constructor
  · intro same
    rw [← upper_lower s, same, upper_lower]
  · intro same
    rw [← lower_upper s, same, lower_upper]

end Syndication.Text
