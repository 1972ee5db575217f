import Livery.Markup.Fault
import Livery.Text.Decimal
import Livery.Text.Quoted

/-!
# Character references

Attribute values write `<`, `>`, `&` and quotes by name and any character by its number, between
`&` and `;`.

- `unescape` reads references, once, and reports the first that is malformed;
- `escape` writes the five named ones.
-/

namespace Livery.Markup

/-- What is wrong with a reference. The offsets are in UTF-8 bytes of the value. -/
inductive EntityFault where
  | unterminated (start stop : Nat)
  | null (start stop : Nat)
  | unknown (start stop : Nat) (body : String)
  | longHex
  | notHex (byte : UInt8)
  | longDecimal
  | notDecimal (byte : UInt8)
  | notScalar (code : Nat)
  deriving DecidableEq, Repr

def EntityFault.message : EntityFault → String
  | .unterminated start stop =>
    s!"Error while escaping character at range {start}..{stop}: Cannot find ';' after '&'"
  | .null start stop =>
    s!"Error while escaping character at range {start}..{stop}: Null character entity not allowed"
  | .unknown start stop body =>
    s!"Error while escaping character at range {start}..{stop}: Unrecognized escape symbol: " ++
      Text.quoted body
  | .longHex => "Cannot convert hexadecimal to utf8"
  | .notHex byte => "'" ++ shownByte byte ++ "' is not a valid hexadecimal character"
  | .longDecimal => "Cannot convert decimal to utf8"
  | .notDecimal byte => "'" ++ shownByte byte ++ "' is not a valid decimal character"
  | .notScalar code => s!"'{code}' is not a valid codepoint"

/-- The UTF-8 length of the characters `cs`. -/
def utf8Length (cs : List Char) : Nat := cs.foldr (fun c n => c.utf8Size + n) 0

/-- The first byte of the character `c` in UTF-8. -/
def firstByte (c : Char) : UInt8 := (String.utf8EncodeChar c).headD 0

/-- The value of digits in the base `base`, where `n` stands before them, or the first character
that is none. -/
def numeral (digit? : Char → Option Nat) (base : Nat) : Nat → List Char → Except Char Nat
  | n, [] => .ok n
  | n, c :: cs =>
    match digit? c with
    | some d => numeral digit? base (n * base + d) cs
    | none => .error c

/-- The code point of a numeric reference, given what stands behind its `#`. At most six
hexadecimal or seven decimal digits are read. -/
def codePoint : List Char → Except EntityFault Nat
  | 'x' :: ds =>
    if 6 < utf8Length ds then .error .longHex
    else
      match numeral Text.Hex.digit? 16 0 ds with
      | .ok n => .ok n
      | .error c => .error (.notHex (firstByte c))
  | ds =>
    if 7 < utf8Length ds then .error .longDecimal
    else
      match numeral Text.Decimal.digit? 10 0 ds with
      | .ok n => .ok n
      | .error c => .error (.notDecimal (firstByte c))

/-- The character of the entity whose name is `body`. -/
def namedEntity? (body : List Char) : Option Char :=
  match String.ofList body with
  | "lt" => some '<'
  | "gt" => some '>'
  | "amp" => some '&'
  | "apos" => some '\''
  | "quot" => some '"'
  | _ => none

/-- The character of the reference that begins at `start` and has this body. -/
def entity (start : Nat) (body : List Char) : Except EntityFault Char :=
  let stop := start + 1 + utf8Length body
  match body with
  | '#' :: number =>
    match codePoint number with
    | .error fault => .error fault
    | .ok 0 => .error (.null start stop)
    | .ok n => if n.isValidChar then .ok (Char.ofNat n) else .error (.notScalar n)
  | body =>
    match namedEntity? body with
    | some c => .ok c
    | none => .error (.unknown (start + 1) stop (String.ofList body))

/-- A character that may stand in the `body` of a reference. -/
def isEntityBody (c : Char) : Bool := c != '&' && c != ';'

/-- Reads a value whose first character stands at `offset`. -/
def unescapeFrom (offset : Nat) (cs : List Char) : Except EntityFault (List Char) :=
  match cs with
  | [] => .ok []
  | c :: cs =>
    if c = '&' then
      let body := cs.takeWhile isEntityBody
      match _h : cs.dropWhile isEntityBody with
      | ';' :: rest =>
        match entity offset body with
        | .error fault => .error fault
        | .ok d => (unescapeFrom (offset + utf8Length body + 2) rest).map (d :: ·)
      | _ => .error (.unterminated offset (offset + 1 + utf8Length cs))
    else (unescapeFrom (offset + c.utf8Size) cs).map (c :: ·)
termination_by cs.length
decreasing_by
  · have h := (List.dropWhile_sublist isEntityBody (l := cs)).length_le
    rw [_h] at h
    simp only [List.length_cons] at h ⊢
    omega
  · simp

/-- The value that the text `s` with references stands for. -/
def unescape (s : String) : Except EntityFault String :=
  (unescapeFrom 0 s.toList).map String.ofList

/-- A character as it is written inside a value, where `entity` reads it back. -/
def escapedChar : Char → List Char
  | '&' => "&amp;".toList
  | '<' => "&lt;".toList
  | '>' => "&gt;".toList
  | '"' => "&quot;".toList
  | '\'' => "&apos;".toList
  | c => [c]

/-- The text `s` with the five special characters written by name. -/
def escape (s : String) : String :=
  String.ofList (s.toList.flatMap escapedChar)

end Livery.Markup
