import Livery.Brush
import Livery.Font

/-!
# Tokens

A token is the style a grammar gives to one kind of text, under a name. Every attribute may be
unset, which means that the text keeps what it has; it never means a default.
-/

namespace Livery

/-- The style recorded under one colour name. -/
structure Token where
  name : String
  foreground : Option Brush := none
  background : Option Brush := none
  underline : Option Bool := none
  fontWeight : Option FontWeight := none
  fontStyle : Option FontStyle := none
  deriving DecidableEq, Repr

/-- The token of `name` that sets nothing. -/
def Token.placeholder (name : String) : Token := { name }

/-- No attribute is set. -/
def Token.isEmpty (t : Token) : Bool :=
  t.foreground.isNone && t.background.isNone && t.underline.isNone && t.fontWeight.isNone &&
    t.fontStyle.isNone

end Livery
