import Livery.Position
import Livery.Token

/-!
# Overlay documents

What an overlay file declares, in the order in which it does: colour sets for grammars, global
styles for the editor's chrome, and free-form properties. A declaration read from a file keeps its
position there.
-/

namespace Livery.Overlay

/-- The namespace of the overlay format. -/
def themeNamespace : String := "http://icsharpcode.net/sharpdevelop/themesyntaxdefinition/2019"

/-- A `Color` of a set, with the position of its element. -/
structure ColorDeclaration where
  name : String
  foreground : Option Brush := none
  background : Option Brush := none
  underline : Option Bool := none
  fontWeight : Option FontWeight := none
  fontStyle : Option FontStyle := none
  exampleText : Option String := none
  position : Option Position := none
  deriving DecidableEq, Repr

/-- The `Token` that a colour declares. -/
def ColorDeclaration.token (d : ColorDeclaration) : Token :=
  { name := d.name, foreground := d.foreground, background := d.background,
    underline := d.underline, fontWeight := d.fontWeight, fontStyle := d.fontStyle }

/-- The `colors` that one grammar takes under the theme. -/
structure SetDeclaration where
  name : String
  extensions : List String := []
  colors : List ColorDeclaration := []
  position : Option Position := none
  deriving DecidableEq, Repr

/-- A style of the editor's chrome. -/
structure StyleDeclaration where
  typeName : String
  foreground : Option Brush := none
  background : Option Brush := none
  border : Option Brush := none
  position : Option Position := none
  deriving DecidableEq, Repr

/-- A free-form property. -/
structure PropertyDeclaration where
  name : String
  value : String
  position : Option Position := none
  deriving DecidableEq, Repr

inductive Declaration where
  | colorSet (set : SetDeclaration)
  | globalStyle (style : StyleDeclaration)
  | property (property : PropertyDeclaration)
  deriving DecidableEq, Repr

def Declaration.position : Declaration → Option Position
  | .colorSet d => d.position
  | .globalStyle d => d.position
  | .property d => d.position

/-- The declarations of an overlay, in their order, under its `name`. -/
structure Document where
  name : String
  declarations : List Declaration := []
  deriving DecidableEq, Repr

namespace Document

def colorSets (d : Document) : List SetDeclaration :=
  d.declarations.filterMap fun | .colorSet s => some s | _ => none

def globalStyles (d : Document) : List StyleDeclaration :=
  d.declarations.filterMap fun | .globalStyle s => some s | _ => none

def properties (d : Document) : List PropertyDeclaration :=
  d.declarations.filterMap fun | .property p => some p | _ => none

end Document

/-! ## Documents up to positions -/

/-- The declaration without the positions it was read from. -/
def Declaration.unplaced : Declaration → Declaration
  | .colorSet d =>
    .colorSet { d with
      colors := d.colors.map fun c => { c with position := none }
      position := none }
  | .globalStyle d => .globalStyle { d with position := none }
  | .property d => .property { d with position := none }

/-- The document `d` without the positions it was read from. -/
def Document.unplaced (d : Document) : Document :=
  { d with declarations := d.declarations.map Declaration.unplaced }

end Livery.Overlay
