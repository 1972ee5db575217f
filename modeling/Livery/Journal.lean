import Livery.ColorSet
import Livery.Notice
import Livery.Text.Utf8

/-!
# Journals

Everything that a run of calls does to the world outside: the resources it opens, the loaders it
runs and the notices it gives, in order.
-/

namespace Livery

/-- What a resource is opened for. -/
inductive Purpose where
  /-- The overlay of a theme. -/
  | overlay (theme : String)
  /-- A grammar of a theme, by the number of its registration there. -/
  | grammar (theme : String) (ticket : Nat)
  deriving DecidableEq, Repr

/-- One thing that was done: a resource was `opened`, a loader `ran`, or a notice was `noted`. -/
inductive Incident where
  | opened (purpose : Purpose) (resource : ResourceName) (succeeded : Bool)
  /-- A loader was run, in the colours that the theme has for the grammar. -/
  | ran (theme : String) (ticket : Nat) (grammar : String) (custom : Bool)
    (colors : Option ColorSet)
  | noted (notice : Notice)
  deriving DecidableEq

/-- The incidents of what was done so far, first things first. -/
abbrev Journal := List Incident

namespace Journal

/-- The resources that `j` says were `opened`, with whether they could be. -/
def opens (j : Journal) : List (ResourceName × Bool) :=
  j.filterMap fun
    | .opened _ resource succeeded => some (resource, succeeded)
    | _ => none

/-- The runs of `custom` loaders, which do not come from the catalog. -/
def customRuns (j : Journal) : List (String × Option ColorSet) :=
  j.filterMap fun
    | .ran _ _ grammar true colors => some (grammar, colors)
    | _ => none

def notices (j : Journal) : List Notice :=
  j.filterMap fun
    | .noted notice => some notice
    | _ => none

end Journal

/-- What a call leaves behind: the new `state`, the `journal` and the answer. -/
structure Outcome (σ α : Type) where
  state : σ
  journal : Journal
  result : Except ThemeError α

namespace Outcome

variable {σ τ α β : Type}

/-- Goes on with the answer of `o`; an error ends the call. -/
def andThen (o : Outcome σ α) (next : σ → Journal → α → Outcome σ β) : Outcome σ β :=
  match o with
  | ⟨s, j, .ok a⟩ => next s j a
  | ⟨s, j, .error e⟩ => ⟨s, j, .error e⟩

/-- Changes the answer of `o` by `f`. -/
def map (f : α → β) (o : Outcome σ α) : Outcome σ β := ⟨o.state, o.journal, o.result.map f⟩

/-- Puts the state of `o` into a larger one by `f`. -/
def within (f : σ → τ) (o : Outcome σ α) : Outcome τ α := ⟨f o.state, o.journal, o.result⟩

end Outcome

end Livery
