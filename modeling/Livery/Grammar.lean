import Livery.ColorSet

/-!
# Grammars

The part of a highlighting grammar that themes see: its name, its file extensions and its named
colours, in the order in which the grammar first gave them. `Grammar.tint` lays a theme's colours
over them.
-/

namespace Livery

/-- A grammar with its named colours, one `Token` each. -/
structure Grammar where
  name : String
  extensions : List String := []
  colors : List Token := []
  deriving DecidableEq, Repr

namespace Grammar

/-- The list with a token in place of the first one called `name`, if there is one. -/
def replaceNamed? (name : String) (token : Token) : List Token → Option (List Token)
  | [] => none
  | c :: cs =>
    if c.name = name then some (token :: cs)
    else (replaceNamed? name token cs).map (c :: ·)

/-- Gives the grammar `g` the colour `token`: in place of the one of the same name, or as the last
one. -/
def withColor (g : Grammar) (token : Token) : Grammar :=
  match replaceNamed? token.name token g.colors with
  | some colors => { g with colors }
  | none => { g with colors := g.colors ++ [token] }

/-- The colour of `g` called `name`. -/
def color? (g : Grammar) (name : String) : Option Token :=
  g.colors.find? (·.name == name)

/-- Lays one theme colour over the grammar in `result`, or notes its name beside it if the grammar
has none such. -/
def tintOne (result : Grammar × List String) (entry : String × Token) : Grammar × List String :=
  match replaceNamed? entry.1 entry.2 result.1.colors with
  | some colors => ({ result.1 with colors }, result.2)
  | none => (result.1, result.2 ++ [entry.1])

/-- The grammar `g` with each colour that `theme` also has replaced as a whole, and the names of the
colours of `theme` that found no counterpart. -/
def tint (g : Grammar) (theme : ColorSet) : Grammar × List String :=
  theme.colors.entries.foldl tintOne (g, [])

end Grammar

end Livery
