import Livery.Catalog

/-!
# Validation of catalogs

A catalog is usable if it has themes, each with a key of its own, a base and at most one complete
overlay, if the current theme is one of them, and if each grammar has a name of its own and a file.
`Catalog.defect?` gives the first thing that is missing: themes first and in order, then the current
theme, then the grammars in order.
-/

namespace Livery.Catalog

/-- What is wrong with a catalog. -/
inductive Defect where
  | noThemes
  | emptyKey
  | duplicateKey (key : String)
  | emptyBase (key : String)
  | incompleteOverlay (key : String)
  | unknownCurrent (key : String)
  | incompleteGrammar
  | duplicateGrammar (name : String)
  deriving DecidableEq, Repr

def Defect.message : Defect → String
  | noThemes => "no themes were provided"
  | emptyKey => "theme keys must not be empty"
  | duplicateKey key => s!"duplicate theme key '{key}'"
  | emptyBase key => s!"theme '{key}' has an empty base prefix"
  | incompleteOverlay key => s!"theme '{key}' has an incomplete overlay source"
  | unknownCurrent key => s!"current theme '{key}' is not registered"
  | incompleteGrammar => "built-in grammars need a name and a resource"
  | duplicateGrammar name => s!"duplicate grammar '{name}'"

/-- An overlay needs a place, its `base`, and a name. -/
def isComplete (r : ResourceName) : Bool := r.base != "" && r.name != ""

/-- What is wrong with a theme behind themes of the keys `seen`. -/
def themeDefect? (seen : List String) (t : ThemeEntry) : Option Defect :=
  if t.key = "" then some .emptyKey
  else if t.key ∈ seen then some (.duplicateKey t.key)
  else if t.basePrefix = "" then some (.emptyBase t.key)
  else if t.overlay.all isComplete then none
  else some (.incompleteOverlay t.key)

/-- What is first wrong with themes behind themes of the keys `seen`. -/
def themesDefect? (seen : List String) : List ThemeEntry → Option Defect
  | [] => none
  | t :: ts =>
    match themeDefect? seen t with
    | some d => some d
    | none => themesDefect? (t.key :: seen) ts

/-- What is wrong with a grammar behind grammars of the names `seen`. -/
def grammarDefect? (seen : List String) (g : BuiltinGrammar) : Option Defect :=
  if g.name = "" ∨ g.resource = "" then some .incompleteGrammar
  else if g.name ∈ seen then some (.duplicateGrammar g.name)
  else none

/-- What is first wrong with grammars behind grammars of the names `seen`. -/
def grammarsDefect? (seen : List String) : List BuiltinGrammar → Option Defect
  | [] => none
  | g :: gs =>
    match grammarDefect? seen g with
    | some d => some d
    | none => grammarsDefect? (g.name :: seen) gs

/-- What is wrong with the choice of the `current` theme. -/
def currentDefect? (c : Catalog) : Option Defect :=
  if c.current ∈ c.themes.map (·.key) then none else some (.unknownCurrent c.current)

/-- What is first wrong with the catalog `c`: its themes are looked at first, then its choice of
`current`, then its grammars. -/
def defect? (c : Catalog) : Option Defect :=
  if c.themes = [] then some .noThemes
  else
    match themesDefect? [] c.themes with
    | some d => some d
    | none =>
      match c.currentDefect? with
      | some d => some d
      | none => grammarsDefect? [] c.grammars

/-- Refuses a catalog that has a `defect?`. -/
def validate (c : Catalog) : Except ThemeError Unit :=
  match c.defect? with
  | some d => .error (.catalog d.message)
  | none => .ok ()

end Livery.Catalog
