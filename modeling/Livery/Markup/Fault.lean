import Livery.Text.Hex
import Livery.Text.Utf8

/-!
# Malformed markup

What can be wrong with a text before it is read as any particular document.
-/

namespace Livery.Markup

/-- A piece of markup that the text may end inside of. -/
inductive Construct where
  | bang
  | comment
  | cdata
  | doctype
  | instruction
  | tag
  deriving DecidableEq, Repr

/-- How messages call a `Construct`. -/
def Construct.name : Construct → String
  | .bang => "Bang"
  | .comment => "Comment"
  | .cdata => "CData"
  | .doctype => "DOCTYPE"
  | .instruction => "XmlDecl"
  | .tag => "Element"

/-- Why a text is not markup. -/
inductive Fault where
  /-- A construct is not closed, or it closes without having begun properly. -/
  | unclosed (what : Construct)
  /-- A byte that cannot follow `<!`. -/
  | strayBang (byte : UInt8)
  | emptyDoctype
  /-- An end tag that does not match the innermost open element. -/
  | mismatchedEnd (expected found : String)
  /-- A namespace declaration that binds a reserved prefix or a reserved name. -/
  | reservedBinding (qualifier uri : Bytes)
  deriving DecidableEq, Repr

/-- A byte shown as the character of the same number, `Char.ofNat`. -/
def shownByte (b : UInt8) : String := String.ofList [Char.ofNat b.toNat]

/-- A byte of a quoted byte string: printable ASCII as it is, all else by its number in hexadecimal
digits. -/
def quotedByte (b : UInt8) : List Char :=
  if b = 0x22 then ['\\', '"']
  else if 0x20 ≤ b ∧ b ≤ 0x7E then [Char.ofNat b.toNat]
  else ['0', 'x'] ++ Text.Hex.digitsOf Text.Hex.upperDigit b.toNat

/-- The byte string `bs` between quotes, each byte by `quotedByte`. -/
def quotedBytes (bs : Bytes) : String :=
  String.ofList ('"' :: bs.flatMap quotedByte ++ ['"'])

def Fault.message : Fault → String
  | .unclosed what => "Unexpected EOF during reading " ++ what.name
  | .strayBang byte =>
    "Only Comment (`--`), CDATA (`[CDATA[`) and DOCTYPE (`DOCTYPE`) nodes can start with a '!', " ++
      "but symbol `" ++ shownByte byte ++ "` found"
  | .emptyDoctype => "DOCTYPE declaration must not be empty"
  | .mismatchedEnd expected found => s!"Expecting </{expected}> found </{found}>"
  | .reservedBinding qualifier uri =>
    "The namespace prefix '" ++ quotedBytes qualifier ++ "' cannot be bound to '" ++
      quotedBytes uri ++ "'"

end Livery.Markup
