import Livery.Catalog.Encoding
import Livery.Grammar.Reading

/-!
# Libraries

What the program leaves to libraries is a parameter of it: the decoders of the `Multibyte` charsets,
and the words in which a text is refused that is no grammar definition or no catalog. A program that
runs has something in their place, and so has a fixed input that is looked at in full. Here is the
least of it. `[Decoders]` and `[Wording ε]` in a statement stand for any others.

- `Decoders.plain` reads what all charsets of a kind have in common, plain ASCII;
- the faults of fields are worded by the names of the fields, all others are left unsaid.
-/

namespace Livery

namespace Markup

/-- The byte `b` stands for itself in `charset`. In ISO-2022-JP the escape and the shifts do not. -/
def Multibyte.isPlain (charset : Multibyte) (b : UInt8) : Bool :=
  b.toNat < 0x80 && !(charset == .iso2022Jp && (b == 0x0E || b == 0x0F || b == 0x1B))

/-- The `Decoders` that read plain values and refuse all others. -/
instance (priority := low) Decoders.plain : Decoders where
  decode? charset bytes :=
    if bytes.all charset.isPlain then
      some (String.ofList (bytes.map fun b => Char.ofNat b.toNat))
    else none

end Markup

/-- A field called `name` that must be there and is not. -/
def fieldMissing (name : String) : String := s!"missing field `{name}`"

/-- A field called `name` that is there more than once. -/
def fieldRepeated (name : String) : String := s!"duplicate field `{name}`"

instance (priority := low) Definition.Fault.wording : Wording Definition.Fault where
  message _
    | .missingField key => fieldMissing key
    | .duplicateField key => fieldRepeated key
    | _ => ""

instance (priority := low) Json.Mismatch.wording : Wording Json.Mismatch where
  message _
    | .missingField name => fieldMissing name
    | .duplicateField name => fieldRepeated name
    | .malformed => ""

end Livery
