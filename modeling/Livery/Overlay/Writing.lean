import Livery.Extension
import Livery.Markup.Entity
import Livery.Overlay.Document

/-!
# Writing overlays

The text of a document: one element for each declaration in order, each global style in a group of
its own, and an attribute for each field that is set. Positions are not written.
-/

namespace Livery.Overlay

/-- The attribute `key` behind a blank. -/
def field (key value : String) : String :=
  " " ++ key ++ "=\"" ++ Markup.escape value ++ "\""

/-- The attribute `key` of a field that may be unset. -/
def fieldOf {α : Type} (key : String) (text : α → String) : Option α → String
  | some a => field key (text a)
  | none => ""

/-- An element without content. -/
def emptyElement (name attributes : String) : String := "<" ++ name ++ attributes ++ "/>"

/-- An element around its content. -/
def elementAround (name attributes content : String) : String :=
  "<" ++ name ++ attributes ++ ">" ++ content ++ "</" ++ name ++ ">"

def ColorDeclaration.write (d : ColorDeclaration) : String :=
  emptyElement "Color" (field "name" d.name ++
    fieldOf "foreground" Brush.text d.foreground ++
    fieldOf "background" Brush.text d.background ++
    fieldOf "fontWeight" FontWeight.name d.fontWeight ++
    fieldOf "fontStyle" FontStyle.name d.fontStyle ++
    fieldOf "underline" Underline.text d.underline ++
    fieldOf "exampleText" id d.exampleText)

def SetDeclaration.write (d : SetDeclaration) : String :=
  elementAround "SyntaxDefinition" (field "name" d.name ++
      fieldOf "extensions" Extension.join (if d.extensions = [] then none else d.extensions))
    (String.join (d.colors.map ColorDeclaration.write))

def StyleDeclaration.write (d : StyleDeclaration) : String :=
  elementAround "GlobalStyles" "" (emptyElement d.typeName (
    fieldOf "foreground" Brush.text d.foreground ++
    fieldOf "background" Brush.text d.background ++
    fieldOf "border" Brush.text d.border))

def PropertyDeclaration.write (d : PropertyDeclaration) : String :=
  emptyElement "Property" (field "name" d.name ++ field "value" d.value)

def Declaration.write : Declaration → String
  | .colorSet d => d.write
  | .globalStyle d => d.write
  | .property d => d.write

/-- The text of the document `d`, which `readText` reads back. -/
def Document.write (d : Document) : String :=
  elementAround "ThemeSyntaxDefinition"
    (field "xmlns" themeNamespace ++ field "name" d.name)
    (String.join (d.declarations.map Declaration.write))

end Livery.Overlay
