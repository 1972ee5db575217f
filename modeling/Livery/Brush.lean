import Livery.Color.System

/-!
# Brushes

A brush is a fixed colour or a reference into the system palette. `Brush.parse` reads either
literal, `Brush.text` writes it.
-/

namespace Livery

/-- The value of a colour attribute. -/
inductive Brush where
  | fixed (color : Color)
  | system (entry : SystemColor)
  deriving DecidableEq, Repr

namespace Brush

/-- The colour a brush paints with. -/
def color : Brush → Color
  | .fixed c => c
  | .system s => s.color

/-- The literal that `parse` reads back as the brush. -/
def text : Brush → String
  | .fixed c => c.text
  | .system s => s.text

/-- Why a text is no brush. -/
inductive ParseError where
  | color (reason : Color.ParseError)
  | unknownReference (reference : String)
  deriving DecidableEq, Repr

def ParseError.message : ParseError → String
  | .color reason => reason.message
  | .unknownReference reference => s!"Cannot find '{reference}'"

/-- The characters behind `lead`, if the text starts with it. -/
def behind? : (lead : List Char) → List Char → Option (List Char)
  | [], cs => some cs
  | _ :: _, [] => none
  | p :: ps, c :: cs => if p = c then behind? ps cs else none

/-- Reads a brush: `SystemColors.` and a name of the palette, or else a colour literal. -/
def parse (s : String) : Except ParseError Brush :=
  match behind? SystemColor.marker.toList (Text.trimmed s.toList) with
  | some name =>
    match SystemColor.ofName? (String.ofList name) with
    | some entry => .ok (.system entry)
    | none => .error (.unknownReference (Text.trim s))
  | none =>
    match Color.parse s with
    | .ok c => .ok (.fixed c)
    | .error e => .error (.color e)

end Brush

end Livery
