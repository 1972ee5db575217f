import Livery.Brush

/-!
# Chrome

The editor's own surfaces that a theme may recolour: the slots they are stored under, and the kinds
of global style with the slots each one writes.
-/

namespace Livery

/-- A colour resource of the editor's own surface. -/
inductive Slot where
  | editorBackground
  | editorForeground
  | currentLineBackground
  | currentLineBorder
  | lineNumbersForeground
  | selectionBackground
  | selectionBorder
  | linkTextBackground
  | linkTextForeground
  | nonPrintableCharacter
  deriving DecidableEq, Repr

namespace Slot

def all : List Slot :=
  [.editorBackground, .editorForeground, .currentLineBackground, .currentLineBorder,
   .lineNumbersForeground, .selectionBackground, .selectionBorder, .linkTextBackground,
   .linkTextForeground, .nonPrintableCharacter]

/-- The key under which the editor keeps the resource of a `Slot`. -/
def key : Slot → String
  | .editorBackground => "EditorBackground"
  | .editorForeground => "EditorForeground"
  | .currentLineBackground => "EditorCurrentLineBackground"
  | .currentLineBorder => "EditorCurrentLineBorder"
  | .lineNumbersForeground => "EditorLineNumbersForeground"
  | .selectionBackground => "EditorSelectionBrush"
  | .selectionBorder => "EditorSelectionBorder"
  | .linkTextBackground => "EditorLinkTextBackgroundBrush"
  | .linkTextForeground => "EditorLinkTextForegroundBrush"
  | .nonPrintableCharacter => "EditorNonPrintableCharacterBrush"

def ofKey? (key : String) : Option Slot := all.find? (·.key == key)

end Slot

/-- One of the three colours of a global style. -/
inductive Channel where
  | foreground
  | background
  | border
  deriving DecidableEq, Repr

/-- A kind of global style. -/
inductive StyleKind where
  | defaultStyle
  | currentLineBackground
  | lineNumbersForeground
  | selection
  | hyperlink
  | nonPrintableCharacter
  deriving DecidableEq, Repr

namespace StyleKind

def all : List StyleKind :=
  [.defaultStyle, .currentLineBackground, .lineNumbersForeground, .selection, .hyperlink,
   .nonPrintableCharacter]

/-- The `type` of the style in an overlay. -/
def name : StyleKind → String
  | .defaultStyle => "DefaultStyle"
  | .currentLineBackground => "CurrentLineBackground"
  | .lineNumbersForeground => "LineNumbersForeground"
  | .selection => "Selection"
  | .hyperlink => "Hyperlink"
  | .nonPrintableCharacter => "NonPrintableCharacter"

/-- The kind whose `StyleKind.name` is exactly `name`. -/
def ofName? (name : String) : Option StyleKind := all.find? (·.name == name)

/-- The slots a style writes, in order, each with the `Channel` whose colour it takes. -/
def targets : StyleKind → List (Slot × Channel)
  | .defaultStyle => [(.editorBackground, .background), (.editorForeground, .foreground)]
  | .currentLineBackground => [(.currentLineBackground, .background), (.currentLineBorder, .border)]
  | .lineNumbersForeground => [(.lineNumbersForeground, .foreground)]
  | .selection => [(.selectionBackground, .background), (.selectionBorder, .border)]
  | .hyperlink => [(.linkTextBackground, .background), (.linkTextForeground, .foreground)]
  | .nonPrintableCharacter => [(.nonPrintableCharacter, .foreground)]

end StyleKind

end Livery
