import Livery.Chrome

/-!
# Resource tables

The values an editor keeps under its slots. A table only ever recolours: a slot that is missing or
holds something other than a colour is left alone.
-/

namespace Livery

/-- The value of a `Slot`: a colour, or something else that only the editor understands. -/
inductive ResourceValue where
  | color (color : Color)
  | opaqueText (text : String)
  deriving DecidableEq, Repr

/-- The value of each `Slot`, for the slots that have one. -/
structure ResourceTable where
  get? : Slot → Option ResourceValue

namespace ResourceTable

/-- The table without values. -/
def empty : ResourceTable := ⟨fun _ => none⟩

/-- The colour of `slot`, if it holds one. -/
def color? (t : ResourceTable) (slot : Slot) : Option Color :=
  match t.get? slot with
  | some (.color c) => some c
  | _ => none

/-- Stores `value` whatever `slot` holds. -/
def insert (t : ResourceTable) (slot : Slot) (value : ResourceValue) : ResourceTable :=
  ⟨fun s => if s = slot then some value else t.get? s⟩

/-- Recolours `slot` if it holds a colour. -/
def recolor (t : ResourceTable) (slot : Slot) (color : Color) : ResourceTable :=
  match t.color? slot with
  | some _ => t.insert slot (.color color)
  | none => t

@[ext] theorem ext {t u : ResourceTable} (h : ∀ slot, t.get? slot = u.get? slot) : t = u := by
  cases t; cases u; simpa using funext h

@[simp] theorem get?_insert (t : ResourceTable) (slot s : Slot) (value : ResourceValue) :
    (t.insert slot value).get? s = if s = slot then some value else t.get? s := rfl

/-- The colour of each `Slot` in a light editor. -/
def defaultColor : Slot → Color
  | .editorBackground => .rgb 0xFF 0xFF 0xFF
  | .editorForeground => .rgb 0x00 0x00 0x00
  | .currentLineBackground => ⟨0x22, 0x00, 0x00, 0xFF⟩
  | .currentLineBorder => ⟨0x00, 0xFF, 0xFF, 0xFF⟩
  | .lineNumbersForeground => .rgb 0x2B 0x91 0xAF
  | .selectionBackground => ⟨0x60, 0x33, 0x99, 0xFF⟩
  | .selectionBorder => .rgb 0x33 0x99 0xFF
  | .linkTextBackground => .rgb 0xFF 0xFF 0xFF
  | .linkTextForeground => .rgb 0x00 0x00 0xFF
  | .nonPrintableCharacter => .rgb 0xC0 0xC0 0xC0

/-- The table of a light editor, with the `defaultColor` for every slot. -/
def editorDefaults : ResourceTable := ⟨fun slot => some (.color (defaultColor slot))⟩

end ResourceTable

end Livery
