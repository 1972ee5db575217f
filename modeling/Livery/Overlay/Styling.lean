import Livery.Notice
import Livery.Overlay.Model

/-!
# Applying global styles

The global styles of a model are pushed into a sink, which takes colours for slots one at a time.
Styles apply in order, and one of unknown kind stops them; what was written before it stays.

- `applyStyles` works for any sink;
- `recorded` is the sink that remembers the calls.
-/

namespace Livery.Overlay

/-- The colour that the style `s` has for a `Channel`. -/
def GlobalStyle.brush? (s : GlobalStyle) : Channel → Option Brush
  | .foreground => s.foreground
  | .background => s.background
  | .border => s.border

/-- A receiver of colours: what becomes of it when a `Slot` is given a `Color`. -/
abbrev Sink (σ : Type) := σ → Slot → Color → σ

/-- What applying styles does: the `sink` afterwards, the `notices`, and whether all went well. -/
structure Styling (σ : Type) where
  sink : σ
  notices : List Notice
  result : Except ThemeError Unit

variable {σ : Type}

/-- Writes one `target` of `style` to the sink, if the style has a colour for it. -/
def applyTarget (set : Sink σ) (theme : String) (style : GlobalStyle) (acc : σ × List Notice)
    (target : Slot × Channel) : σ × List Notice :=
  match style.brush? target.2 with
  | none => acc
  | some brush =>
    (set acc.1 target.1 brush.color, acc.2 ++ [.styleApplied theme target.1 brush])

/-- Applies styles in order, behind what is in `acc` so far. -/
def applyFrom (set : Sink σ) (theme : String) (acc : σ × List Notice) :
    List GlobalStyle → Styling σ
  | [] => ⟨acc.1, acc.2, .ok ()⟩
  | style :: rest =>
    match StyleKind.ofName? style.typeName with
    | none => ⟨acc.1, acc.2, .error (.unsupportedStyle style.typeName)⟩
    | some kind => applyFrom set theme (kind.targets.foldl (applyTarget set theme style) acc) rest

/-- Applies the global styles of `model` to `sink`. -/
def applyStyles (set : Sink σ) (model : Model) (sink : σ) : Styling σ :=
  applyFrom set model.name (sink, []) model.globalStyles

/-- A `Sink` that remembers the calls in order. -/
def recorded : Sink (List (Slot × Color)) := fun calls slot color => calls ++ [(slot, color)]

end Livery.Overlay
