import Livery.Catalog
import Livery.GrammarTable
import Livery.Overlay.Loading

/-!
# Themes

A theme with its overlay and its grammars. The overlay is loaded when something first needs it, and
only once: if that fails, the call that needed it fails, and from then on the theme is one without
an overlay. A grammar is loaded when it is first looked up, in the colours of the overlay.

- `Theme.resolve` gives the model of the overlay.
- `Theme.definition` looks a grammar up.
- `Theme.definitions` looks all of them up.
-/

namespace Livery

/-- The world that themes live in: how resources are opened, `fetch`, and how grammar files are
read. Either may depend on the `Journal` of what was done so far. -/
structure Environment where
  fetch : Journal → ResourceName → Except ThemeError Bytes
  load : Journal → String → Bytes → Option ColorSet → Grammar.Loading

/-- The environment of a fixed store `fetch`, which reads grammar files as `Grammar.load` does. -/
def Environment.ofStore [Markup.Decoders] [Wording Definition.Fault]
    (fetch : ResourceName → Except ThemeError Bytes) : Environment :=
  ⟨fun _ => fetch, fun _ => Grammar.load⟩

/-- How far the overlay of a theme is. -/
inductive Resolution where
  | pending
  /-- It was tried; there is no `model` if it failed or there is no overlay. -/
  | settled (model : Option Overlay.Model)
  deriving DecidableEq

/-- A theme, some of which may not be loaded yet. -/
structure Theme where
  key : String
  displayName : String
  basePrefix : String
  overlay : Option ResourceName
  resolution : Resolution := .pending
  grammars : GrammarTable := {}

/-- A grammar that was handed out, and the `ticket` of its registration: handles of one registration
are handles of one grammar. -/
structure Handle where
  theme : String
  ticket : Nat
  grammar : Grammar
  deriving DecidableEq, Repr

namespace Theme

/-- The theme of the catalog entry `e`, of which nothing is loaded yet. -/
def ofEntry (e : ThemeEntry) : Theme :=
  { key := e.key, displayName := e.label, basePrefix := e.basePrefix, overlay := e.overlay }

/-- Whether the overlay of `t` was tried. -/
def isSettled (t : Theme) : Bool :=
  match t.resolution with
  | .pending => false
  | .settled _ => true

/-! ## The overlay -/

variable [Markup.Decoders]

/-- Opens and loads the overlay at `r` for the theme called `key`. -/
def loadOverlay (env : Environment) (j : Journal) (key : String) (r : ResourceName) :
    Journal × Except ThemeError Overlay.Model :=
  match env.fetch j r with
  | .error e => (j ++ [.opened (.overlay key) r false], .error e)
  | .ok data =>
    let loading := Overlay.load data
    (j ++ .opened (.overlay key) r true :: loading.notices.map .noted, loading.result)

/-- The model of the overlay, if there is one. Only the first call on a `pending` theme looks for
it, and only that call fails if it cannot be had. -/
def resolve (env : Environment) (j : Journal) (t : Theme) : Outcome Theme (Option Overlay.Model) :=
  match t.resolution with
  | .settled model => ⟨t, j, .ok model⟩
  | .pending =>
    match t.overlay with
    | none => ⟨{ t with resolution := .settled none }, j, .ok none⟩
    | some r =>
      match loadOverlay env j t.key r with
      | (j, .ok model) =>
        ⟨{ t with resolution := .settled (some model) },
          j ++ [.noted (.overlayReady t.key model.colorSets.size)], .ok (some model)⟩
      | (j, .error e) =>
        ⟨{ t with resolution := .settled none }, j ++ [.noted (.overlayFailed t.key e)],
          .error (.inTheme t.key e)⟩

/-- The `ColorSet` that `t` has for the grammar called `grammar`. -/
def colorSet (env : Environment) (j : Journal) (t : Theme) (grammar : String) :
    Outcome Theme (Option ColorSet) :=
  (t.resolve env j).map fun model => model.bind (·.colorSet? grammar)

/-! ## The grammars -/

def register (t : Theme) (name : String) (extensions : List String) (grammar : Grammar) : Theme :=
  { t with grammars := t.grammars.register name extensions (.loaded grammar) }

def registerDeferred (t : Theme) (name : String) (extensions : List String) (loader : Loader) :
    Theme :=
  { t with grammars := t.grammars.register name extensions (.deferred loader) }

def contains (t : Theme) (name : String) : Bool := t.grammars.contains name

/-- Runs a `Loader` with the theme's `colors`. -/
def runLoader (env : Environment) (j : Journal) (key name : String) (ticket : Nat)
    (colors : Option ColorSet) : Loader → Journal × Except ThemeError Grammar
  | .custom load =>
    let j := j ++ [.ran key ticket name true colors]
    let loading := load j colors
    (j ++ loading.notices.map .noted, loading.result)
  | .resource r =>
    let j := j ++ [.ran key ticket name false colors]
    match env.fetch j r with
    | .error e => (j ++ [.opened (.grammar key ticket) r false], .error e)
    | .ok data =>
      let j := j ++ [.opened (.grammar key ticket) r true]
      let loading := env.load j name data colors
      (j ++ loading.notices.map .noted, loading.result)

/-- Loads by `loader` what is deferred under `name`, and keeps the result, be it a grammar or an
error. -/
def loadDeferred (env : Environment) (j : Journal) (t : Theme) (name : String) (ticket : Nat)
    (loader : Loader) (colors : Option ColorSet) : Outcome Theme (Option Handle) :=
  match runLoader env j t.key name ticket colors loader with
  | (j, .ok g) =>
    ⟨{ t with grammars := t.grammars.settle name ticket (.loaded g) },
      j ++ [.noted (.grammarLoaded t.key name)], .ok (some ⟨t.key, ticket, g⟩)⟩
  | (j, .error e) =>
    ⟨{ t with grammars := t.grammars.settle name ticket (.failed (.inGrammar name e)) }, j,
      .error (.inGrammar name e)⟩

/-- The grammar registered under `name`, loaded if need be. -/
def definition (env : Environment) (j : Journal) (t : Theme) (name : String) :
    Outcome Theme (Option Handle) :=
  match t.grammars.get? name with
  | none => ⟨t, j, .ok none⟩
  | some ⟨ticket, .loaded g⟩ => ⟨t, j, .ok (some ⟨t.key, ticket, g⟩)⟩
  | some ⟨_, .failed e⟩ => ⟨t, j, .error e⟩
  | some ⟨ticket, .deferred loader⟩ =>
    (t.resolve env j).andThen fun t j model =>
      t.loadDeferred env j name ticket loader (model.bind (·.colorSet? name))

/-- The grammar whose name has `extension`. -/
def definitionFor (env : Environment) (j : Journal) (t : Theme) (extension : String) :
    Outcome Theme (Option Handle) :=
  match t.grammars.owner? extension with
  | some name => t.definition env j name
  | none => ⟨t, j, .ok none⟩

/-- The `definition`s of names in order, up to the first that cannot be had. -/
def definitionsOf (env : Environment) : List String → Journal → Theme → Outcome Theme (List Handle)
  | [], j, t => ⟨t, j, .ok []⟩
  | name :: names, j, t =>
    (t.definition env j name).andThen fun t j handle =>
      (definitionsOf env names j t).map (handle.toList ++ ·)

/-- All grammars of `t` in the order in which their names first came. -/
def definitions (env : Environment) (j : Journal) (t : Theme) : Outcome Theme (List Handle) :=
  definitionsOf env t.grammars.order j t

end Theme

end Livery
