namespace Syndication.Text

/-- The characters with the Unicode property White_Space. -/
def isBlank (c : Char) : Bool :=
  (9 ≤ c.toNat && c.toNat ≤ 13) || c.toNat == 0x20 || c.toNat == 0x85 || c.toNat == 0xA0 ||
    c.toNat == 0x1680 || (0x2000 ≤ c.toNat && c.toNat ≤ 0x200A) || c.toNat == 0x2028 ||
    c.toNat == 0x2029 || c.toNat == 0x202F || c.toNat == 0x205F || c.toNat == 0x3000

/-- The text without its leading blanks. -/
def dropBlank (cs : List Char) : List Char := cs.dropWhile isBlank

/-- The text without its trailing blanks. -/
def dropTrailingBlank (cs : List Char) : List Char := (dropBlank cs.reverse).reverse

def trim (s : String) : String := .ofList (dropTrailingBlank (dropBlank s.toList))

/-- A text with no character to show: empty, or blanks only. -/
def isBlankText (s : String) : Bool := s.toList.all isBlank

theorem dropBlank_eq_nil_iff {cs : List Char} : dropBlank cs = [] ↔ cs.all isBlank = true := by
  induction cs with
  | nil => simp [dropBlank]
  | cons c rest ih =>
    simp only [dropBlank, List.dropWhile_cons, List.all_cons] at ih ⊢
    cases isBlank c <;> simp [ih]

end Syndication.Text
