import Livery.Font
import Livery.Markup.Entity

/-!
# Weights in words

The number of a weight as a word of sixteen bits. A numeral of up to four bytes is read with
arithmetic that wraps around, unchecked; in a longer one, a product or a sum that does not fit
refuses the numeral. The classes of the named weights are words, too, and so are the distances
between them and the number.
-/

namespace Livery.FontWeight.Word

/-- The product of `a` and `b`, if it fits. -/
def mul? (a b : UInt16) : Option UInt16 :=
  if a.toNat * b.toNat < UInt16.size then some (a * b) else none

/-- The sum of `a` and `b`, if it fits. -/
def add? (a b : UInt16) : Option UInt16 :=
  if a.toNat + b.toNat < UInt16.size then some (a + b) else none

def digit? (c : Char) : Option UInt16 := (Text.Decimal.digit? c).map UInt16.ofNat

/-- The value of a run of digits, where `n` is the value of the digits before it, unchecked. -/
def wrapped? : UInt16 → List Char → Option UInt16
  | n, [] => some n
  | n, c :: cs => (digit? c).bind fun d => wrapped? (n * 10 + d) cs

/-- The same as `wrapped?` with every step checked, by `mul?` and `add?`. -/
def checked? : UInt16 → List Char → Option UInt16
  | n, [] => some n
  | n, c :: cs =>
    (digit? c).bind fun d => (mul? n 10).bind fun tens => (add? tens d).bind (checked? · cs)

/-- The value of one or more digits: `wrapped?` where they take four bytes at most, `checked?`
otherwise. -/
def unsigned? : List Char → Option UInt16
  | [] => none
  | cs => if Markup.utf8Length cs ≤ 4 then wrapped? 0 cs else checked? 0 cs

/-- Reads a numeral: an optional single `+`, then one or more digits. -/
def read? : List Char → Option UInt16
  | '+' :: cs => unsigned? cs
  | cs => unsigned? cs

/-- The class of `weight`. -/
def value (weight : FontWeight) : UInt16 := UInt16.ofNat weight.value

/-- How far the weight classes `a` and `b` are apart. -/
def distance (a b : UInt16) : UInt16 := if a < b then b - a else a - b

/-- The `candidate`, if it is strictly nearer to `n` than the `best` so far. -/
def nearer (n : UInt16) (best candidate : FontWeight) : FontWeight :=
  if distance (value candidate) n < distance (value best) n then candidate else best

/-- The named weight nearest to the class `n`, of two the lighter one. -/
def nearest (n : UInt16) : FontWeight := all.foldl (nearer n) .thin

/-- Reads a weight: a name in any letter case, or a number from 1 to 999 that `read?` reads. -/
def parse (s : String) : Except StyleError FontWeight :=
  let w := Text.lower (Text.trim s)
  match keywords.lookup w with
  | some weight => .ok weight
  | none =>
    match read? w.toList with
    | some n => if 1 ≤ n ∧ n ≤ 999 then .ok (nearest n) else .error (.fontWeight (Text.trim s))
    | none => .error (.fontWeight (Text.trim s))

end Livery.FontWeight.Word
