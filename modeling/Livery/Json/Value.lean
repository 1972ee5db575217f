import Livery.Text.Hex

/-!
# Writing JSON

Values made of texts, lists and records, and their written form: one item or member a line, two
blanks deeper than the brackets around it.
-/

namespace Livery.Json

/-- A value to be written. -/
inductive Value where
  | string (text : String)
  | array (items : List Value)
  | object (members : List (String × Value))

namespace Value

/-- The character `c` inside quotes: a quote, a backslash or a control character as an escape. -/
def escape (c : Char) : List Char :=
  match c with
  | '"' => ['\\', '"']
  | '\\' => ['\\', '\\']
  | '\x08' => ['\\', 'b']
  | '\x09' => ['\\', 't']
  | '\x0a' => ['\\', 'n']
  | '\x0c' => ['\\', 'f']
  | '\x0d' => ['\\', 'r']
  | c =>
    if c.toNat < 0x20 then
      ['\\', 'u', '0', '0', Text.Hex.lowerDigit (c.toNat / 16), Text.Hex.lowerDigit (c.toNat % 16)]
    else [c]

/-- A text between quotes, each character by `escape`. -/
def quote (text : String) : List Char := '"' :: (text.toList.flatMap escape ++ ['"'])

/-- The beginning of a line at the depth `depth`. -/
def newline (depth : Nat) : List Char := '\n' :: List.replicate (2 * depth) ' '

mutual

/-- The written form of a value at the depth `depth`. -/
def write (depth : Nat) : Value → List Char
  | string text => quote text
  | array [] => ['[', ']']
  | array (item :: rest) =>
    '[' :: (newline (depth + 1) ++ (write (depth + 1) item ++
      (writeItems (depth + 1) rest ++ (newline depth ++ [']']))))
  | object [] => ['\x7b', '\x7d']
  | object ((key, item) :: rest) =>
    '\x7b' :: (newline (depth + 1) ++ (quote key ++ (':' :: ' ' :: (write (depth + 1) item ++
      (writeMembers (depth + 1) rest ++ (newline depth ++ ['\x7d']))))))

/-- The items behind the first one, each behind a comma and on a `newline` of its own. -/
def writeItems (depth : Nat) : List Value → List Char
  | [] => []
  | item :: rest => ',' :: (newline depth ++ (write depth item ++ writeItems depth rest))

/-- The members behind the first one, each behind a comma and on a `newline` of its own. -/
def writeMembers (depth : Nat) : List (String × Value) → List Char
  | [] => []
  | (key, item) :: rest =>
    ',' :: (newline depth ++ (quote key ++ (':' :: ' ' :: (write depth item ++
      writeMembers depth rest))))

end

/-- The text of the value `v`. -/
def text (v : Value) : String := String.ofList (v.write 0)

end Value

end Livery.Json
