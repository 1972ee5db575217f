import Livery.Notice
import Livery.Overlay.Model

/-!
# Resolving overlays

A document becomes a model in two passes. The first registers every set and every colour name and
refuses empty and repeated ones; the second fills the values in. The passes may also be run over two
different documents, in which case the second may name something that the first does not know.
-/

namespace Livery.Overlay

/-- A rule about names that a `Document` breaks. -/
inductive Violation where
  | emptyName
  | duplicateSet (name : String)
  | duplicateColor (name : String)
  | unknownSet (name : String)
  | unknownColor (name : String)
  deriving DecidableEq, Repr

def Violation.message : Violation → String
  | .emptyName => "Name must not be the empty string"
  | .duplicateSet name => s!"Duplicate syntax definition name '{name}'."
  | .duplicateColor name => s!"Duplicate color name '{name}'."
  | .unknownSet name => s!"Themed Syntax Definition does not exist '{name}'."
  | .unknownColor name => s!"Color '{name}' does not exist."

/-- The `Violation` that a `ColorSetError` stands for. -/
def Violation.ofColorSetError : ColorSetError → Violation
  | .emptyName => .emptyName
  | .duplicateColor name => .duplicateColor name
  | .unknownColor name => .unknownColor name

/-- A `Violation` and the position of the declaration that commits it. -/
structure Objection where
  position : Option Position
  violation : Violation
  deriving DecidableEq, Repr

def Objection.error (o : Objection) : ThemeError := .semantic o.position o.violation.message

/-- Sets under construction, by the names of their grammars. -/
abbrev Drafts := NameMap ColorSet.Draft

/-- Puts the blame for a refused colour on the declaration at `position`. -/
def blame {α : Type} (position : Option Position) : Except ColorSetError α → Except Objection α
  | .ok a => .ok a
  | .error e => .error ⟨position, .ofColorSetError e⟩

/-- Registers the colour name of `d` in `draft`. -/
def registerColor (draft : ColorSet.Draft) (d : ColorDeclaration) :
    Except Objection ColorSet.Draft :=
  blame d.position (draft.register d.name)

/-- Registers the set `d` with its colour names. -/
def registerSet (drafts : Drafts) (d : SetDeclaration) : Except Objection Drafts :=
  if d.name = "" then .error ⟨d.position, .emptyName⟩
  else if drafts.contains d.name then .error ⟨d.position, .duplicateSet d.name⟩
  else do
    let draft ← blame d.position (ColorSet.Draft.start d.name)
    let draft ← d.colors.foldlM registerColor draft
    pure (drafts.insert d.name draft)

/-- The first pass over `document`: a draft for every set, with a placeholder for every colour. -/
def register (document : Document) : Except Objection Drafts :=
  document.colorSets.foldlM registerSet .empty

/-- Fills in the colour that `d` declares. -/
def populateColor (draft : ColorSet.Draft) (d : ColorDeclaration) :
    Except Objection ColorSet.Draft :=
  if d.name = "" then .error ⟨d.position, .emptyName⟩
  else blame d.position (draft.populate d.token)

/-- Fills in the set that `d` declares. -/
def populateSet (drafts : Drafts) (d : SetDeclaration) : Except Objection Drafts :=
  match drafts.get? d.name with
  | none => .error ⟨d.position, .unknownSet d.name⟩
  | some draft => do
    let draft ← d.colors.foldlM populateColor (draft.setExtensions d.extensions)
    pure (drafts.insert d.name draft)

/-- The finished sets. -/
def finish (drafts : Drafts) : NameMap ColorSet := drafts.map ColorSet.Draft.finish

/-- The second pass over `document`: the values of every colour and the extensions of every set. -/
def populate (document : Document) (drafts : Drafts) : Except Objection (NameMap ColorSet) := do
  let drafts ← document.colorSets.foldlM populateSet drafts
  pure (finish drafts)

/-- The last value of every property of `document`. -/
def propertiesOf (document : Document) : NameMap String :=
  document.properties.foldl (fun m p => m.insert p.name p.value) .empty

/-- The `Model` of `document`: the first pass, then the second. -/
def resolve (document : Document) : Except Objection Model := do
  let drafts ← register document
  let colorSets ← populate document drafts
  pure { name := document.name, colorSets,
         globalStyles := document.globalStyles.map StyleDeclaration.style,
         properties := propertiesOf document }

end Livery.Overlay
