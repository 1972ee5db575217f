import Livery.Text.Utf8

/-!
# Positions

A place in a source text, by line and column, both counted from one. Lines end at line feeds and
columns are counted in bytes.
-/

namespace Livery

/-- A line and a column. -/
structure Position where
  line : Nat
  column : Nat
  deriving DecidableEq, Repr

namespace Position

def text (p : Position) : String := s!"line {p.line}, column {p.column}"

/-- The position behind the byte `b`, which stands at `p`. -/
def advance (p : Position) (b : UInt8) : Position :=
  if b = 0x0A then ⟨p.line + 1, 1⟩ else ⟨p.line, p.column + 1⟩

/-- The position of `offset` in `input`. -/
def ofOffset (input : Bytes) (offset : Nat) : Position :=
  (input.take offset).foldl advance ⟨1, 1⟩

/-- The position of the markup at `offset`: an offset just behind a `<` means that `<`. -/
def ofMarkup (input : Bytes) (offset : Nat) : Position :=
  if offset ≠ 0 ∧ input[offset]? ≠ some 0x3C ∧ input[offset - 1]? = some 0x3C then
    ofOffset input (offset - 1)
  else ofOffset input offset

end Position

end Livery
