import Livery.Text.Blank
import Livery.Text.Hex

/-!
# Colours

A colour is four bytes. Its literal is `#` and 3, 4, 6 or 8 hexadecimal digits, alpha first when
present, or one of the names of `Color.Named`; its printed form is the literal of two digits per
channel, without the alpha of an opaque colour.
-/

namespace Livery

/-- An 8-bit colour with alpha. -/
structure Color where
  a : UInt8
  r : UInt8
  g : UInt8
  b : UInt8
  deriving DecidableEq, Repr, Inhabited

namespace Color

/-- An opaque colour of the channels `r`, `g` and `b`. -/
def rgb (r g b : UInt8) : Color := ⟨0xFF, r, g, b⟩

/-- The opaque colour written `0xRRGGBB`. -/
def ofRgb (n : Nat) : Color :=
  rgb (UInt8.ofNat (n / 0x10000)) (UInt8.ofNat (n / 0x100)) (UInt8.ofNat n)

/-- White with alpha zero. -/
def transparent : Color := ⟨0, 0xFF, 0xFF, 0xFF⟩

def isOpaque (c : Color) : Bool := c.a == 0xFF

/-- The characters of the printed form of `c`. -/
def written (c : Color) : List Char :=
  '#' :: ((if c.isOpaque then [] else Text.Hex.byte c.a) ++
    Text.Hex.byte c.r ++ Text.Hex.byte c.g ++ Text.Hex.byte c.b)

/-- The printed form: `#RRGGBB`, or `#AARRGGBB` unless opaque. -/
def text (c : Color) : String := String.ofList c.written

/-- The byte of the two digits `high` and `low`. -/
def pair (high low : Nat) : UInt8 := UInt8.ofNat (high * 16 + low)

/-- A colour from its digits: one or two per channel, alpha first when there is one. A lone digit
stands for itself written twice, a `pair` of one. -/
def ofDigits? : List Nat → Option Color
  | [r, g, b] => some (rgb (pair r r) (pair g g) (pair b b))
  | [a, r, g, b] => some ⟨pair a a, pair r r, pair g g, pair b b⟩
  | [r, r', g, g', b, b'] => some (rgb (pair r r') (pair g g') (pair b b'))
  | [a, a', r, r', g, g', b, b'] => some ⟨pair a a', pair r r', pair g g', pair b b'⟩
  | _ => none

/-- Why a text is no colour. -/
inductive ParseError where
  | empty
  | invalidLength
  | invalidHex
  | unknownName
  deriving DecidableEq, Repr

def ParseError.message : ParseError → String
  | .empty => "color value is empty"
  | .invalidLength => "expected 3, 4, 6 or 8 hex digits"
  | .invalidHex => "contains non-hex digits"
  | .unknownName => "not a known color name"

/-- The colour of the `digits` behind a `#`. A character that is no digit counts before a wrong
number of digits. -/
def ofHex (digits : List Char) : Except ParseError Color :=
  match digits.mapM Text.Hex.digit? with
  | none => .error .invalidHex
  | some values =>
    match ofDigits? values with
    | some c => .ok c
    | none => .error .invalidLength

end Color

end Livery
