import Livery.Color
import Livery.Markup.Entity

/-!
# Digits read in place

The digits behind a `#` read where they stand in the UTF-8 of the text: its length in bytes chooses
the form, a range of bytes is cut out for every channel, and each cut is read as a numeral of one
byte. Two things can go wrong on the way that say nothing about the literal, a range that does not
end between characters and a product that does not fit a byte. Both are outcomes here, apart from
the reasons to refuse a literal.
-/

namespace Livery.Color.InPlace

/-- How the digits can end without a colour. -/
inductive Failure where
  | refused (reason : ParseError)
  /-- The `start` or the `stop` of the range is inside a character or outside the text. -/
  | cut (start stop : Nat)
  /-- The `digit` written twice does not fit. -/
  | overflow (digit : UInt8)
  deriving DecidableEq, Repr

/-- The characters that take exactly `count` bytes at the front. -/
def takeBytes? : (count : Nat) → List Char → Option (List Char)
  | 0, _ => some []
  | _ + 1, [] => none
  | n + 1, c :: cs =>
    if c.utf8Size ≤ n + 1 then (takeBytes? (n + 1 - c.utf8Size) cs).map (c :: ·) else none

/-- The characters behind those that take exactly `count` bytes. -/
def dropBytes? : (count : Nat) → List Char → Option (List Char)
  | 0, cs => some cs
  | _ + 1, [] => none
  | n + 1, c :: cs =>
    if c.utf8Size ≤ n + 1 then dropBytes? (n + 1 - c.utf8Size) cs else none

/-- The characters of the bytes from `start` to `stop`, if both ends are between characters. -/
def slice? (start stop : Nat) (cs : List Char) : Option (List Char) :=
  (takeBytes? stop cs).bind (dropBytes? start)

/-- A numeral without its plus sign. -/
def unsigned : List Char → List Char
  | [] => []
  | c :: cs => if c = '+' then cs else c :: cs

/-- The byte of the numeral `cs` in base sixteen: digits, behind a plus sign or not, whose value
fits. -/
def byteOf? (cs : List Char) : Option UInt8 :=
  match unsigned cs with
  | [] => none
  | ds =>
    match Markup.numeral Text.Hex.digit? 16 0 ds with
    | .ok n => if n < 256 then some (UInt8.ofNat n) else none
    | .error _ => none

/-- The numeral in the bytes from `start` to `stop`. -/
def numeralAt (start stop : Nat) (cs : List Char) : Except Failure UInt8 :=
  match slice? start stop cs with
  | none => .error (.cut start stop)
  | some ds =>
    match byteOf? ds with
    | some b => .ok b
    | none => .error (.refused .invalidHex)

/-- The channel of the one digit at `index`, which stands for itself written twice. -/
def nibble (cs : List Char) (index : Nat) : Except Failure UInt8 :=
  match numeralAt index (index + 1) cs with
  | .error failure => .error failure
  | .ok digit => if digit.toNat * 17 < 256 then .ok (digit * 17) else .error (.overflow digit)

/-- The channel of the two digits of the pair `index`. -/
def byte (cs : List Char) (index : Nat) : Except Failure UInt8 :=
  numeralAt (index * 2) (index * 2 + 2) cs

/-- The `channel`s of an opaque colour, in this order. -/
def rgb (channel : Nat → Except Failure UInt8) : Except Failure Color := do
  return .rgb (← channel 0) (← channel 1) (← channel 2)

/-- The `channel`s of a colour with alpha, in this order. -/
def argb (channel : Nat → Except Failure UInt8) : Except Failure Color := do
  return ⟨← channel 0, ← channel 1, ← channel 2, ← channel 3⟩

/-- The colour of the digits `cs` behind a `#`. -/
def read (cs : List Char) : Except Failure Color :=
  if cs.all fun c => (Text.Hex.digit? c).isSome then
    match Markup.utf8Length cs with
    | 3 => rgb (nibble cs)
    | 4 => argb (nibble cs)
    | 6 => rgb (byte cs)
    | 8 => argb (byte cs)
    | _ => .error (.refused .invalidLength)
  else .error (.refused .invalidHex)

end Livery.Color.InPlace
