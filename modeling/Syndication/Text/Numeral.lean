namespace Syndication.Text

def digit (n : Nat) : Char := Char.ofNat ('0'.toNat + n)

def isDigit (c : Char) : Bool := '0' ≤ c && c ≤ '9'

def digitValue (c : Char) : Nat := c.toNat - '0'.toNat

/-- The digits of a number in base ten, without leading zeros. -/
def decimal (n : Nat) : List Char :=
  if n < 10 then [digit n] else decimal (n / 10) ++ [digit (n % 10)]
termination_by n
decreasing_by omega

/-- Exactly `width` digits in base ten, the most significant first. -/
def fixedDecimal : Nat → Nat → List Char
  | 0, _ => []
  | width + 1, n => fixedDecimal width (n / 10) ++ [digit (n % 10)]

/-- At least `width` digits: shorter numerals are filled up with zeros. -/
def paddedDecimal (width n : Nat) : List Char :=
  if n < Nat.pow 10 width then fixedDecimal width n else decimal n

/-- The number that a run of decimal digits denotes. -/
def ofDigits (cs : List Char) : Nat := cs.foldl (fun n c => n * 10 + digitValue c) 0

/-- A numeral: one digit or more, and nothing else. -/
def readDecimal? (cs : List Char) : Option Nat :=
  if !cs.isEmpty && cs.all isDigit then some (ofDigits cs) else none

/-- A numeral that may carry a plus sign. -/
def readUnsigned? : List Char → Option Nat
  | '+' :: cs => readDecimal? cs
  | cs => readDecimal? cs

def hexDigit (n : Nat) : Char :=
  if n < 10 then digit n else Char.ofNat ('a'.toNat + (n - 10))

/-- The value of a hexadecimal digit in either letter case. -/
def hexValue? (c : Char) : Option Nat :=
  if isDigit c then some (digitValue c)
  else if 'a' ≤ c && c ≤ 'f' then some (c.toNat - 'a'.toNat + 10)
  else if 'A' ≤ c && c ≤ 'F' then some (c.toNat - 'A'.toNat + 10)
  else none

/-- Exactly `width` hexadecimal digits, the most significant first. -/
def fixedHex : Nat → Nat → List Char
  | 0, _ => []
  | width + 1, n => fixedHex width (n / 16) ++ [hexDigit (n % 16)]

/-- The number that a run of hexadecimal digits denotes. -/
def readHex? (cs : List Char) : Option Nat :=
  cs.foldlM (fun n c => (hexValue? c).map (n * 16 + ·)) 0

/-- Two digits for each byte. -/
def hexOfBytes (bytes : List UInt8) : String := .ofList (bytes.flatMap fun b => fixedHex 2 b.toNat)

/-- The bytes that pairs of digits denote. -/
def bytesOfHex? : List Char → Option (List UInt8)
  | [] => some []
  | a :: b :: rest => do return (← readHex? [a, b]).toUInt8 :: (← bytesOfHex? rest)
  | _ => none

@[simp] theorem length_fixedHex (width n : Nat) : (fixedHex width n).length = width := by
  induction width generalizing n with
  | zero => rfl
  | succ width ih => simp [fixedHex, ih]

@[simp] theorem length_fixedDecimal (width n : Nat) : (fixedDecimal width n).length = width := by
  induction width generalizing n with
  | zero => rfl
  | succ width ih => simp [fixedDecimal, ih]

theorem hexValue?_hexDigit {n : Nat} (h : n < 16) : hexValue? (hexDigit n) = some n := by
  have : ∀ k : Fin 16, hexValue? (hexDigit k) = some k.val := by decide
  exact this ⟨n, h⟩

theorem digitValue_digit {n : Nat} (h : n < 10) : digitValue (digit n) = n := by
  have : ∀ k : Fin 10, digitValue (digit k) = k.val := by decide
  exact this ⟨n, h⟩

theorem isDigit_digit {n : Nat} (h : n < 10) : isDigit (digit n) = true := by
  have : ∀ k : Fin 10, isDigit (digit k) = true := by decide
  exact this ⟨n, h⟩

/-- A number that fits into `width` hexadecimal digits is read back from them. -/
theorem readHex?_fixedHex {width n : Nat} (h : n < Nat.pow 16 width) :
    readHex? (fixedHex width n) = some n := by
  induction width generalizing n with
  | zero => simp_all [fixedHex, readHex?]
  | succ width ih =>
    have high : n / 16 < Nat.pow 16 width := by
      have power : Nat.pow 16 (width + 1) = Nat.pow 16 width * 16 := rfl
      exact Nat.div_lt_of_lt_mul (by omega)
    have step := ih high
    simp only [readHex?] at step ⊢
    simp only [fixedHex, List.foldlM_append, step, Option.bind_eq_bind, Option.bind_some,
      List.foldlM_cons, List.foldlM_nil, hexValue?_hexDigit (Nat.mod_lt n (by decide : 0 < 16)),
      Option.map_some, Option.pure_def, Option.some.injEq]
    omega

theorem decimal_eq_toDigits (n : Nat) : decimal n = Nat.toDigits 10 n := by
  induction n using Nat.strongRecOn with
  | ind n ih =>
    have digit_eq : ∀ k < 10, digit k = k.digitChar := by decide
    rw [decimal]
    split
    · rename_i small
      rw [Nat.toDigits_of_lt_base small, digit_eq n small]
    · rename_i large
      rw [Nat.toDigits_of_base_le (by decide) (by omega), ih (n / 10) (by omega),
        digit_eq _ (Nat.mod_lt n (by decide))]

theorem ofList_decimal (n : Nat) : String.ofList (decimal n) = toString n := by
  rw [decimal_eq_toDigits, Nat.toString_eq_repr, Nat.repr_eq_ofList_toDigits]

end Syndication.Text
