import Livery.Text.Hex

/-!
# Reading JSON

What a text says as JSON, as far as it can be read: where it breaks off or goes wrong, the value at
that place is `Reading.broken`, and nothing behind it is looked at. A consumer that walks a reading
from left to right therefore meets the first thing wrong with a text first, be it in the text's form
or in its meaning.
-/

namespace Livery.Json

/-- The value of a text as far as it can be read. -/
inductive Reading where
  | null
  /-- A truth value or a number. -/
  | scalar
  /-- A string; none if it holds half a surrogate pair and so stands for no text. -/
  | string (text : Option String)
  | array (items : List Reading)
  /-- The members in the order of the text, with the strings that are their keys. -/
  | object (members : List (Option String × Reading))
  | broken

/-! ## Blanks and numbers -/

def isBlank (c : Char) : Bool := c == ' ' || c == '\n' || c == '\t' || c == '\r'

def isDigit (c : Char) : Bool := '0' ≤ c && c ≤ '9'

/-- What follows one or more digits, each an `isDigit`. -/
def afterDigits? : List Char → Option (List Char)
  | [] => none
  | c :: cs => if isDigit c then some (cs.dropWhile isDigit) else none

/-- What follows digits without a superfluous zero. -/
def afterInteger? : List Char → Option (List Char)
  | '0' :: cs => some cs
  | cs => afterDigits? cs

/-- What follows a fraction, if there is one. -/
def afterFraction? : List Char → Option (List Char)
  | '.' :: cs => afterDigits? cs
  | cs => some cs

/-- What follows the digits of an exponent and their sign. -/
def afterSigned? : List Char → Option (List Char)
  | '+' :: cs => afterDigits? cs
  | '-' :: cs => afterDigits? cs
  | cs => afterDigits? cs

/-- What follows an exponent, if there is one. -/
def afterExponent? : List Char → Option (List Char)
  | 'e' :: cs => afterSigned? cs
  | 'E' :: cs => afterSigned? cs
  | cs => some cs

/-- What follows a number. -/
def afterNumber? (cs : List Char) : Option (List Char) := do
  let cs ← afterInteger? (match cs with
    | '-' :: rest => rest
    | _ => cs)
  let cs ← afterFraction? cs
  afterExponent? cs

/-! ## Strings

A string is read as a list of codes, which are characters or halves of surrogate pairs. -/

/-- The number of the four hexadecimal digits `a`, `b`, `c` and `d`. -/
def code? (a b c d : Char) : Option Nat := do
  let a ← Text.Hex.digit? a
  let b ← Text.Hex.digit? b
  let c ← Text.Hex.digit? c
  let d ← Text.Hex.digit? d
  pure (((a * 16 + b) * 16 + c) * 16 + d)

/-- The code that a letter behind a backslash stands for. -/
def escapedCode? : Char → Option Nat
  | '"' => some 0x22
  | '\\' => some 0x5C
  | '/' => some 0x2F
  | 'b' => some 0x08
  | 'f' => some 0x0C
  | 'n' => some 0x0A
  | 'r' => some 0x0D
  | 't' => some 0x09
  | _ => none

/-- Puts the code `n` in front of what was read behind it. -/
def before (n : Nat) : Option (List Nat × List Char) → Option (List Nat × List Char)
  | some (codes, rest) => some (n :: codes, rest)
  | none => none

/-- The codes up to the closing quote, and what follows it. `escapedCode?` gives the codes of the
short escapes. -/
def codes? : List Char → Option (List Nat × List Char)
  | [] => none
  | '"' :: rest => some ([], rest)
  | '\\' :: 'u' :: a :: b :: c :: d :: rest =>
    match code? a b c d with
    | some n => before n (codes? rest)
    | none => none
  | '\\' :: c :: rest =>
    match escapedCode? c with
    | some n => before n (codes? rest)
    | none => none
  | c :: rest => if c.toNat < 0x20 then none else before c.toNat (codes? rest)

/-- The first half of a surrogate pair. -/
def isHigh (n : Nat) : Bool := 0xD800 ≤ n && n < 0xDC00

/-- The second half of a surrogate pair. -/
def isLow (n : Nat) : Bool := 0xDC00 ≤ n && n < 0xE000

/-- The characters of codes in which every `isHigh` half of a pair has its `isLow` half behind
it. -/
def chars? : List Nat → Option (List Char)
  | [] => some []
  | [n] => if isHigh n || isLow n then none else some [Char.ofNat n]
  | n :: m :: rest =>
    if isHigh n then
      if isLow m then
        (chars? rest).map (Char.ofNat (0x10000 + (n - 0xD800) * 0x400 + (m - 0xDC00)) :: ·)
      else none
    else if isLow n then none
    else (chars? (m :: rest)).map (Char.ofNat n :: ·)

/-- The text of `codes`, if they stand for one. -/
def text? (codes : List Nat) : Option String := (chars? codes).map String.ofList

/-! ## Values -/

mutual

/-- Reads a value within so many steps, and gives back what follows it: nothing, if the value is
`broken`. -/
def value : Nat → List Char → Reading × List Char
  | 0, _ => (.broken, [])
  | fuel + 1, cs =>
    match cs.dropWhile isBlank with
    | '"' :: rest =>
      match codes? rest with
      | some (codes, rest) => (.string (text? codes), rest)
      | none => (.broken, [])
    | '[' :: rest =>
      match rest.dropWhile isBlank with
      | ']' :: rest => (.array [], rest)
      | rest => (.array (items fuel rest).1, (items fuel rest).2)
    | '\x7b' :: rest =>
      match rest.dropWhile isBlank with
      | '\x7d' :: rest => (.object [], rest)
      | rest => (.object (members fuel rest).1, (members fuel rest).2)
    | 'n' :: 'u' :: 'l' :: 'l' :: rest => (.null, rest)
    | 't' :: 'r' :: 'u' :: 'e' :: rest => (.scalar, rest)
    | 'f' :: 'a' :: 'l' :: 's' :: 'e' :: rest => (.scalar, rest)
    | cs =>
      match afterNumber? cs with
      | some rest => (.scalar, rest)
      | none => (.broken, [])

/-- Reads the items of an array that has some. -/
def items : Nat → List Char → List Reading × List Char
  | 0, _ => ([.broken], [])
  | fuel + 1, cs =>
    match value fuel cs with
    | (item, rest) =>
      match rest.dropWhile isBlank with
      | ',' :: rest => (item :: (items fuel rest).1, (items fuel rest).2)
      | ']' :: rest => ([item], rest)
      | _ => ([item, .broken], [])

/-- Reads the members of an object that has some. -/
def members : Nat → List Char → List (Option String × Reading) × List Char
  | 0, _ => ([(none, .broken)], [])
  | fuel + 1, cs =>
    match cs.dropWhile isBlank with
    | '"' :: rest =>
      match codes? rest with
      | none => ([(none, .broken)], [])
      | some (codes, rest) =>
        match rest.dropWhile isBlank with
        | ':' :: rest =>
          match value fuel rest with
          | (item, rest) =>
            match rest.dropWhile isBlank with
            | ',' :: rest => ((text? codes, item) :: (members fuel rest).1, (members fuel rest).2)
            | '\x7d' :: rest => ([(text? codes, item)], rest)
            | _ => ([(text? codes, item), (none, .broken)], [])
        | _ => ([(text? codes, .broken)], [])
    | _ => ([(none, .broken)], [])

end

/-- Reads the text `s`. No value takes more steps than two for each character. -/
def read (s : String) : Reading × List Char := value (2 * s.length + 1) s.toList

namespace Reading

mutual

/-- Nothing in the value is `broken`. -/
def isWhole : Reading → Bool
  | array items => allWhole items
  | object members => membersWhole members
  | broken => false
  | _ => true

def allWhole : List Reading → Bool
  | [] => true
  | item :: rest => item.isWhole && allWhole rest

def membersWhole : List (Option String × Reading) → Bool
  | [] => true
  | (_, item) :: rest => item.isWhole && membersWhole rest

end

end Reading

end Livery.Json
