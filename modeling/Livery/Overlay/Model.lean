import Livery.ColorSet
import Livery.Overlay.Document

/-!
# Models

A resolved overlay: the colour sets by the grammars they are for, the global styles in order, and
the properties by name.
-/

namespace Livery.Overlay

/-- A style of the editor's chrome. -/
structure GlobalStyle where
  typeName : String
  foreground : Option Brush := none
  background : Option Brush := none
  border : Option Brush := none
  deriving DecidableEq, Repr

/-- The `GlobalStyle` that a declaration declares. -/
def StyleDeclaration.style (d : StyleDeclaration) : GlobalStyle :=
  { typeName := d.typeName, foreground := d.foreground, background := d.background,
    border := d.border }

/-- What a theme adds to the base grammars: a `Document` with its names resolved. -/
structure Model where
  name : String
  colorSets : NameMap ColorSet := .empty
  globalStyles : List GlobalStyle := []
  properties : NameMap String := .empty
  deriving DecidableEq

/-- The `ColorSet` for the grammar called `grammar`. -/
def Model.colorSet? (m : Model) (grammar : String) : Option ColorSet := m.colorSets.get? grammar

end Livery.Overlay
