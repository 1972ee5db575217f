/-!
# UTF-8

Reading takes one byte at a time and splits a byte string into characters and malformed stretches;
the strict reading, the lenient one and the report of the first defect are views of that split.
-/

namespace Livery

/-- A byte string. -/
abbrev Bytes := List UInt8

namespace Text.Utf8

/-- A piece of a byte string read as UTF-8. -/
inductive Segment where
  | char (c : Char)
  /-- Bytes that begin a character and cannot be continued by what follows, or one byte that begins
  none. -/
  | malformed (length : Nat)
  /-- The end of the input inside a character. -/
  | truncated (length : Nat)
  deriving DecidableEq, Repr

/-- A character that is still `owed` bytes: the range from `low` to `high` of the next one, the
`bits` so far and the number of bytes read. -/
structure Pending where
  owed : Nat
  low : Nat
  high : Nat
  bits : Nat
  taken : Nat

/-- Reads `b` as the first byte of a character. -/
def lead (b : UInt8) : List Segment × Option Pending :=
  let n := b.toNat
  if n < 0x80 then ([.char (Char.ofNat n)], none)
  else if n < 0xC2 then ([.malformed 1], none)
  else if n < 0xE0 then ([], some ⟨1, 0x80, 0xBF, n - 0xC0, 1⟩)
  else if n = 0xE0 then ([], some ⟨2, 0xA0, 0xBF, 0, 1⟩)
  else if n = 0xED then ([], some ⟨2, 0x80, 0x9F, n - 0xE0, 1⟩)
  else if n < 0xF0 then ([], some ⟨2, 0x80, 0xBF, n - 0xE0, 1⟩)
  else if n = 0xF0 then ([], some ⟨3, 0x90, 0xBF, 0, 1⟩)
  else if n < 0xF4 then ([], some ⟨3, 0x80, 0xBF, n - 0xF0, 1⟩)
  else if n = 0xF4 then ([], some ⟨3, 0x80, 0x8F, n - 0xF0, 1⟩)
  else ([.malformed 1], none)

/-- Reads one byte behind an unfinished character, or else by `lead`. -/
def step : Option Pending → UInt8 → List Segment × Option Pending
  | none, b => lead b
  | some p, b =>
    if p.low ≤ b.toNat ∧ b.toNat ≤ p.high then
      let bits := p.bits * 64 + (b.toNat - 0x80)
      if p.owed = 1 then ([.char (Char.ofNat bits)], none)
      else ([], some ⟨p.owed - 1, 0x80, 0xBF, bits, p.taken + 1⟩)
    else (.malformed p.taken :: (lead b).1, (lead b).2)

/-- The segments of the bytes behind an unfinished character, if there is one, byte by byte with
`step`. -/
def segmentsFrom : Option Pending → Bytes → List Segment
  | none, [] => []
  | some p, [] => [.truncated p.taken]
  | p, b :: bs => (step p b).1 ++ segmentsFrom (step p b).2 bs

/-- The segments of `bs`. -/
def segments (bs : Bytes) : List Segment := segmentsFrom none bs

/-- The character of a `Segment` that is one. -/
def Segment.char? : Segment → Option Char
  | .char c => some c
  | _ => none

/-- The character that a `Segment` shows as: a malformed one as U+FFFD. -/
def Segment.shown : Segment → Char
  | .char c => c
  | _ => Char.ofNat 0xFFFD

/-- The bytes a `Segment` takes. -/
def Segment.length : Segment → Nat
  | .char c => c.utf8Size
  | .malformed n => n
  | .truncated n => n

/-- The text of `bs`, if all its `segments` are characters. -/
def decode? (bs : Bytes) : Option String :=
  ((segments bs).mapM Segment.char?).map String.ofList

/-- The text of any `bs`, with U+FFFD for each malformed segment. -/
def decodeLossy (bs : Bytes) : String :=
  String.ofList ((segments bs).map Segment.shown)

/-- The bytes of `s`. -/
def encode (s : String) : Bytes :=
  s.toList.flatMap String.utf8EncodeChar

theorem encode_append (s t : String) : encode (s ++ t) = encode s ++ encode t := by
  simp [encode]

/-- The first segment that is no character, with its offset, where the first one begins at
`offset`. -/
def firstDefect? : Nat → List Segment → Option (Nat × Segment)
  | _, [] => none
  | offset, .char c :: rest => firstDefect? (offset + c.utf8Size) rest
  | offset, s :: _ => some (offset, s)

/-- The `firstDefect?` of `bs` as a sentence, if it has one. -/
def defect? (bs : Bytes) : Option String :=
  (firstDefect? 0 (segments bs)).map fun (offset, s) =>
    match s with
    | .truncated _ => s!"incomplete utf-8 byte sequence from index {offset}"
    | s => s!"invalid utf-8 sequence of {s.length} bytes from index {offset}"

end Text.Utf8

end Livery
