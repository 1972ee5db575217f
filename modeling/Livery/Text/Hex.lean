/-!
# Hexadecimal digits

The value of a digit in either case, and bytes and numbers written in upper case.
-/

namespace Livery.Text.Hex

/-- The value of `c` as a hexadecimal digit, upper or lower case. -/
def digit? (c : Char) : Option Nat :=
  let n := c.toNat
  if 0x30 ≤ n ∧ n ≤ 0x39 then some (n - 0x30)
  else if 0x41 ≤ n ∧ n ≤ 0x46 then some (n - 0x41 + 10)
  else if 0x61 ≤ n ∧ n ≤ 0x66 then some (n - 0x61 + 10)
  else none

/-- The upper-case digit of `n`, if `n` is below sixteen. -/
def upperDigit (n : Nat) : Char :=
  if n < 10 then Char.ofNat (0x30 + n) else Char.ofNat (0x41 + (n - 10))

/-- The lower-case digit of `n`, if `n` is below sixteen. -/
def lowerDigit (n : Nat) : Char :=
  if n < 10 then Char.ofNat (0x30 + n) else Char.ofNat (0x61 + (n - 10))

/-- The byte `b` as its two upper-case digits. -/
def byte (b : UInt8) : List Char :=
  [upperDigit (b.toNat / 16), upperDigit (b.toNat % 16)]

/-- The digits of `n` in base sixteen, most significant first, as few as it takes, each written by
`digit`. -/
def digitsOf (digit : Nat → Char) (n : Nat) : List Char :=
  if _h : n < 16 then [digit n] else digitsOf digit (n / 16) ++ [digit (n % 16)]
termination_by n

/-- `digit?` reads back what `upperDigit` writes. -/
theorem digit?_upperDigit {n : Nat} (h : n < 16) : digit? (upperDigit n) = some n := by
  have : ∀ k : Fin 16, digit? (upperDigit k) = some k.val := by decide
  exact this ⟨n, h⟩

theorem digit?_lowerDigit {n : Nat} (h : n < 16) : digit? (lowerDigit n) = some n := by
  have : ∀ k : Fin 16, digit? (lowerDigit k) = some k.val := by decide
  exact this ⟨n, h⟩

/-- Every value of a digit is below sixteen. -/
theorem digit?_lt {c : Char} {n : Nat} (h : digit? c = some n) : n < 16 := by
  unfold digit? at h
  grind

end Livery.Text.Hex
