/-!
# Decimal numerals

Unsigned numerals as they are read from attribute values (`read?`) and written into messages
(`digits`, the standard decimal form of a natural number).
-/

namespace Livery.Text.Decimal

/-- The value of `c` as an ASCII decimal digit. -/
def digit? (c : Char) : Option Nat :=
  if 0x30 ≤ c.toNat ∧ c.toNat ≤ 0x39 then some (c.toNat - 0x30) else none

/-- The value of a run of digits, where `n` is the value of the digits before it. -/
def valueFrom? : Nat → List Char → Option Nat
  | n, [] => some n
  | n, c :: cs => (digit? c).bind fun d => valueFrom? (n * 10 + d) cs

/-- The value of one or more digits, by `valueFrom?`, with any number of leading zeros. -/
def unsigned? : List Char → Option Nat
  | [] => none
  | cs => valueFrom? 0 cs

/-- Reads a numeral: an optional single `+`, then one or more digits. -/
def read? : List Char → Option Nat
  | '+' :: cs => unsigned? cs
  | cs => unsigned? cs

/-- The standard form of `n`. -/
def digits (n : Nat) : String := String.ofList (Nat.toDigits 10 n)

end Livery.Text.Decimal
