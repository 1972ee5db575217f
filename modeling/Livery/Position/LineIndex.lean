import Livery.Position

/-!
# Line indices

The starts of the lines of a text, kept so that a position is looked up and not walked to. The line
of an offset is found by halving, and its column is the distance to the start of that line. Numbers
are without sign here: a difference that would fall below zero is an outcome of its own, and so is a
place outside the index or outside the text.

- `LineIndex.ofBytes` goes through a text once;
- `LineIndex.position` is the position of an offset;
- `LineIndex.markup` is the position of the markup at an offset.
-/

namespace Livery

/-- The offsets at which the lines of a text start. -/
structure LineIndex where
  starts : Array Nat
  deriving DecidableEq, Repr

namespace LineIndex

/-- What can go wrong when a position is looked up. -/
inductive Fault where
  /-- The difference of `minuend` and `subtrahend` falls below zero. -/
  | below (minuend subtrahend : Nat)
  /-- The index has no line of the number `line`. -/
  | noLine (line : Nat)
  /-- The text has no byte at `offset`. -/
  | noByte (offset : Nat)
  deriving DecidableEq, Repr

/-- The difference `a - b` of numbers without sign. -/
def difference (a b : Nat) : Except Fault Nat :=
  if b ≤ a then .ok (a - b) else .error (.below a b)

/-- Notes the start of a line in `starts`, if the byte of `entry` is a line feed, behind its
offset. -/
def note (starts : Array Nat) (entry : UInt8 × Nat) : Array Nat :=
  if entry.1 = 0x0A then starts.push (entry.2 + 1) else starts

/-- The index of the text `input`: the lines that `note` finds. -/
def ofBytes (input : Bytes) : LineIndex := ⟨input.zipIdx.foldl note #[0]⟩

/-- Looks `x` up in the increasing numbers `xs` between the places `lo` and `hi` by halving: the
place it is at, or as an error the place it would be at. -/
def bisect (xs : Array Nat) (x lo hi : Nat) (bound : hi ≤ xs.size) : Except Nat Nat :=
  if h : lo < hi then
    let middle := lo + (hi - lo) / 2
    have inside : middle < xs.size := by omega
    if xs[middle] = x then .ok middle
    else if xs[middle] < x then bisect xs x (middle + 1) hi bound
    else bisect xs x lo middle (by omega)
  else .error lo
termination_by hi - lo

/-- The line of `offset`, counted from zero: the one that starts there, or the one before that which
would. -/
def line (index : LineIndex) (offset : Nat) : Except Fault Nat :=
  match bisect index.starts offset 0 index.starts.size (Nat.le_refl _) with
  | .ok line => .ok line
  | .error next => difference next 1

/-- The position of `offset`: its `line`, and its distance from the start of that. -/
def position (index : LineIndex) (offset : Nat) : Except Fault Position := do
  let line ← index.line offset
  match index.starts[line]? with
  | none => .error (.noLine line)
  | some start =>
    let column ← difference offset start
    return ⟨line + 1, column + 1⟩

/-- The position of the markup at `offset`: an offset just behind a `<` means that `<`. -/
def markup (index : LineIndex) (input : Bytes) (offset : Nat) : Except Fault Position :=
  match offset with
  | 0 => index.position 0
  | previous + 1 =>
    if input[previous + 1]? = some 0x3C then index.position (previous + 1)
    else
      match input[previous]? with
      | none => .error (.noByte previous)
      | some b => index.position (if b = 0x3C then previous else previous + 1)

end LineIndex

end Livery
