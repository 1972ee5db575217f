import Livery.ColorSet

/-!
# Runs of calls on a colour set

The calls on a draft, and the replacements in a finished set, as data. A run keeps a log of them
with their answers. A call that is refused leaves everything as it is.
-/

namespace Livery

/-- Calls in order: what `step` leads to from `s`, and a log of the calls with their answers. -/
def logged {σ κ α : Type} (step : σ → κ → σ × α) (s : σ) : List κ → σ × List (κ × α)
  | [] => (s, [])
  | call :: calls =>
    match step s call with
    | (s, answer) =>
      match logged step s calls with
      | (s, log) => (s, (call, answer) :: log)

namespace ColorSet

namespace Draft

/-- A call on a `Draft`. -/
inductive Call where
  | register (name : String)
  | populate (token : Token)
  | setExtensions (extensions : List String)

/-- The draft that a call leads to, or `d` as it is when the call is refused. -/
def accept (d : Draft) : Except ColorSetError Draft → Draft × Except ColorSetError Unit
  | .ok d' => (d', .ok ())
  | .error e => (d, .error e)

/-- One `Call` on the draft `d`, and its answer. -/
def step (d : Draft) : Call → Draft × Except ColorSetError Unit
  | .register name => d.accept (d.register name)
  | .populate token => d.accept (d.populate token)
  | .setExtensions extensions => d.accept (.ok (d.setExtensions extensions))

/-- Calls with their answers. -/
abbrev Log := List (Call × Except ColorSetError Unit)

def run (d : Draft) (calls : List Call) : Draft × Log := logged step d calls

/-- The names that `register` took, in order. -/
def Log.registered (log : Log) : List String :=
  log.filterMap fun | (.register name, .ok _) => some name | _ => none

/-- The tokens that `populate` stored, in order. -/
def Log.populated (log : Log) : List Token :=
  log.filterMap fun | (.populate token, .ok _) => some token | _ => none

/-- The extensions that `setExtensions` set last. -/
def Log.extensions (log : Log) : List String :=
  (log.filterMap fun | (.setExtensions extensions, _) => some extensions | _ => none).getLastD []

end Draft

/-- One `replace`: its answer is the token that is displaced, and on an error `s` stays as it is. -/
def exchange (s : ColorSet) (token : Token) : ColorSet × Except ColorSetError Token :=
  match s.replace token with
  | .ok (displaced, s') => (s', .ok displaced)
  | .error e => (s, .error e)

/-- Calls of `replace` with their answers. -/
abbrev Exchanges := List (Token × Except ColorSetError Token)

def run (s : ColorSet) (tokens : List Token) : ColorSet × Exchanges := logged exchange s tokens

/-- The tokens that `replace` stored, in order. -/
def Exchanges.stored (log : Exchanges) : List Token :=
  log.filterMap fun | (token, .ok _) => some token | _ => none

/-- The set `s` was started under a name, drafted by any `Draft.Call`s and finished, and had any
tokens exchanged by `replace`. -/
def IsBuilt (s : ColorSet) : Prop :=
  ∃ name start calls replacements, Draft.start name = .ok start ∧
    ((start.run calls).1.finish.run replacements).1 = s

end ColorSet

end Livery
