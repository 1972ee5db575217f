/-!
# Splitting

A text cut at every occurrence of a separator.
-/

namespace Livery.Text

/-- The pieces between the characters `separator`, empty ones included: one more than there are
separators. -/
def pieces (separator : Char) : List Char → List (List Char)
  | [] => [[]]
  | c :: cs =>
    if c = separator then [] :: pieces separator cs
    else
      match pieces separator cs with
      | [] => [[c]]
      | p :: ps => (c :: p) :: ps

end Livery.Text
