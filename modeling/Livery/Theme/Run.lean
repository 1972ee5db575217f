import Livery.Theme

/-!
# Histories of a theme

The calls that a theme takes as data, so that what it went through is a list. Each call comes with
the environment of its time: resources may come and go between two calls.
-/

namespace Livery.Theme

/-- A call on a `Theme`. -/
inductive Call where
  | register (name : String) (extensions : List String) (grammar : Grammar)
  | registerDeferred (name : String) (extensions : List String) (loader : Loader)
  | definition (name : String)
  | definitionFor (extension : String)
  | definitions
  | resolve
  | colorSet (grammar : String)

/-- The name that a `Call` registers a grammar under. -/
def Call.registers? : Call → Option String
  | .register name _ _ => some name
  | .registerDeferred name _ _ => some name
  | _ => none

/-- The theme and the journal behind one `Call`. -/
def step [Markup.Decoders] (env : Environment) (t : Theme) (j : Journal) : Call → Theme × Journal
  | .register name extensions grammar => (t.register name extensions grammar, j)
  | .registerDeferred name extensions loader => (t.registerDeferred name extensions loader, j)
  | .definition name => ((t.definition env j name).state, (t.definition env j name).journal)
  | .definitionFor extension =>
    ((t.definitionFor env j extension).state, (t.definitionFor env j extension).journal)
  | .definitions => ((t.definitions env j).state, (t.definitions env j).journal)
  | .resolve => ((t.resolve env j).state, (t.resolve env j).journal)
  | .colorSet grammar => ((t.colorSet env j grammar).state, (t.colorSet env j grammar).journal)

/-- Calls in order, each in an `Environment` of its own. -/
abbrev History := List (Environment × Call)

/-- The names registered in the course of the history `h`, in order. -/
def History.names (h : History) : List String := h.filterMap (·.2.registers?)

/-- The theme and the journal behind a `History`. -/
def after [Markup.Decoders] (t : Theme) (j : Journal) : History → Theme × Journal
  | [] => (t, j)
  | (env, call) :: h => after (step env t j call).1 (step env t j call).2 h

end Livery.Theme
