import Livery.Overlay.Reading
import Livery.Overlay.Resolution

/-!
# Loading overlays

From the bytes of a file to a model, with the notices of the way.
-/

namespace Livery.Overlay

/-- The failure `f` as a `ThemeError`. -/
def Failure.error (f : Failure) : ThemeError := .format (some f.position) f.cause.message

/-- Reads an overlay from a `source` that may itself break down. -/
def readSource [Markup.Decoders] (source : Except String Bytes) (strict : Bool) :
    Except ThemeError Document :=
  match source with
  | .error reason => .error (.format none s!"failed to read overlay: {reason}")
  | .ok input =>
    match read input strict with
    | .ok d => .ok d
    | .error f => .error f.error

/-- The result of `load`, with the notices of the way. -/
structure Loading where
  notices : List Notice
  result : Except ThemeError Model

/-- Loads the bytes `input` of an overlay file, under the whole of the schema. -/
def load [Markup.Decoders] (input : Bytes) : Loading :=
  match readSource (.ok input) true with
  | .error e => ⟨[], .error e⟩
  | .ok d =>
    let readNotice := Notice.overlayRead d.name d.declarations.length
    match resolve d with
    | .error o => ⟨[readNotice], .error o.error⟩
    | .ok m => ⟨[readNotice, .overlayResolved m.name m.colorSets.size], .ok m⟩

end Livery.Overlay
