import Livery.Text.Hex
import Livery.Text.Printable

/-!
# Quoted text

A text between double quotes in which every character that would not show is written as an escape.
-/

namespace Livery.Text

/-- The character `c` inside quotes: the quote and the backslash behind a backslash, the common
controls by letter, and what is not `isPrintable` by its number. -/
def quotedChar (c : Char) : List Char :=
  match c with
  | '\x00' => ['\\', '0']
  | '\t' => ['\\', 't']
  | '\n' => ['\\', 'n']
  | '\r' => ['\\', 'r']
  | '"' => ['\\', '"']
  | '\\' => ['\\', '\\']
  | c =>
    if isPrintable c then [c]
    else ['\\', 'u', '\x7b'] ++ Hex.digitsOf Hex.lowerDigit c.toNat ++ ['\x7d']

/-- The text `s` between quotes. -/
def quoted (s : String) : String :=
  String.ofList ('"' :: s.toList.flatMap quotedChar ++ ['"'])

/-- Each text of `l` `quoted`, as a list. -/
def quotedList (l : List String) : String :=
  "[" ++ String.intercalate ", " (l.map quoted) ++ "]"

end Livery.Text
