import Livery.Libraries
import Livery.Registry

/-!
# Runs of calls

The calls that a registry takes as data, so that a whole run of them is a list. Styles are applied
to a sink that records what it is given.
-/

namespace Livery.Registry

/-- A call on a `Registry`. -/
inductive Call where
  | currentKey
  | keys
  | displayName (key : String)
  | select (key : String)
  | definition (name : String)
  | definitionFor (extension : String)
  | definitions
  | register (name : String) (extensions : List String) (grammar : Grammar)
  | registerDeferred (name : String) (extensions : List String) (loader : Loader)
  | colorSet (grammar : String)
  | model
  | applyStyles

/-- What a `Call` gives back. -/
inductive Reply where
  | done
  | key (key : String)
  | keys (keys : List String)
  | displayName (name : Option String)
  | definition (handle : Option Handle)
  | definitions (handles : List Handle)
  | colorSet (colors : Option ColorSet)
  | model (model : Option Overlay.Model)
  deriving DecidableEq

/-- The `reply` to a call, and what a sink was given on the way. -/
structure Result where
  reply : Except ThemeError Reply
  writes : List (Slot × Color) := []

/-- Puts the answer of `o` among the replies. -/
def replying {α : Type} (f : α → Reply) (o : Outcome Registry α) : Registry × Journal × Result :=
  (o.state, o.journal, ⟨o.result.map f, []⟩)

/-- One `Call`: the registry and the journal afterwards, and its `Result`. -/
def step [Markup.Decoders] (env : Environment) (r : Registry) (j : Journal) :
    Call → Registry × Journal × Result
  | .currentKey => (r, j, ⟨.ok (.key r.currentKey), []⟩)
  | .keys => (r, j, ⟨.ok (.keys r.keys), []⟩)
  | .displayName key => (r, j, ⟨.ok (.displayName (r.displayName? key)), []⟩)
  | .select key => replying (fun _ => .done) (r.select j key)
  | .definition name => replying .definition (r.definition env j name)
  | .definitionFor extension => replying .definition (r.definitionFor env j extension)
  | .definitions => replying .definitions (r.definitions env j)
  | .register name extensions grammar => (r.register name extensions grammar, j, ⟨.ok .done, []⟩)
  | .registerDeferred name extensions loader =>
    (r.registerDeferred name extensions loader, j, ⟨.ok .done, []⟩)
  | .colorSet grammar => replying .colorSet (r.colorSet env j grammar)
  | .model => replying .model (r.model env j)
  | .applyStyles =>
    match r.applyStyles env Overlay.recorded j [] with
    | ⟨(r, writes), j, result⟩ => (r, j, ⟨result.map fun _ => .done, writes⟩)

/-- A run of calls: the registry and the journal afterwards, and the `Result`s in order. -/
def run [Markup.Decoders] (env : Environment) (r : Registry) (j : Journal) :
    List Call → Registry × Journal × List Result
  | [] => (r, j, [])
  | call :: calls =>
    match step env r j call with
    | (r, j, result) =>
      match run env r j calls with
      | (r, j, results) => (r, j, result :: results)

end Livery.Registry
