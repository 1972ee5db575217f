import Livery.Catalog.Validation
import Livery.Overlay.Styling
import Livery.Theme

/-!
# Registries

The themes of a catalog, one of which is current. Look-ups go to the current theme and touch no
other one. When a theme becomes current it gets those grammars of the catalog whose names it does
not know yet.
-/

namespace Livery

/-- Themes, of which one is `current`, and the grammars that each gets when it becomes so. -/
structure Registry where
  builtins : List BuiltinGrammar
  themes : List Theme
  /-- The index of the current theme. -/
  current : Nat
  current_lt : current < themes.length

namespace Registry

/-- The theme at the index `current`. -/
def theme (r : Registry) : Theme := r.themes.get ⟨r.current, r.current_lt⟩

/-- The registry `r` with `t` for the current theme. -/
def withTheme (r : Registry) (t : Theme) : Registry :=
  { r with
    themes := r.themes.set r.current t
    current_lt := by simpa using r.current_lt }

@[simp] theorem withTheme_theme (r : Registry) : r.withTheme r.theme = r := by
  unfold withTheme theme
  simp

@[simp] theorem theme_withTheme (r : Registry) (t : Theme) : (r.withTheme t).theme = t := by
  unfold withTheme theme
  simp

/-- Defers the grammar `b` of the catalog, unless the theme `t` knows the name. -/
def addBuiltin (t : Theme) (b : BuiltinGrammar) : Theme :=
  if t.contains b.name then t
  else t.registerDeferred b.name b.extensions (.resource ⟨t.basePrefix, b.resource⟩)

/-- Defers the `builtins` in the current theme. -/
def addBuiltins (r : Registry) : Registry := r.withTheme (r.builtins.foldl addBuiltin r.theme)

/-- The index of the theme whose key is `key`. -/
def indexOf? (themes : List Theme) (key : String) : Option { i : Nat // i < themes.length } :=
  match h : themes.findIdx? (·.key == key) with
  | none => none
  | some i => some ⟨i, (List.findIdx?_eq_some_iff_getElem.1 h).1⟩

/-- The registry of the catalog `c`, which must have no `defect?`. -/
def ofCatalog (c : Catalog) : Except ThemeError Registry :=
  match c.validate with
  | .error e => .error e
  | .ok () =>
    let themes := c.themes.map Theme.ofEntry
    match indexOf? themes c.current with
    | none => .error (.keyNotFound c.current)
    | some i => .ok (addBuiltins ⟨c.grammars, themes, i.1, i.2⟩)

/-! ## Themes -/

def currentKey (r : Registry) : String := r.theme.key

def keys (r : Registry) : List String := r.themes.map (·.key)

/-- The name to show for the theme of `key`. -/
def displayName? (r : Registry) (key : String) : Option String :=
  (r.themes.find? (·.key == key)).map (·.displayName)

/-- Makes the theme of `key` current. -/
def select (r : Registry) (j : Journal) (key : String) : Outcome Registry Unit :=
  match indexOf? r.themes key with
  | none => ⟨r, j, .error (.keyNotFound key)⟩
  | some i =>
    ⟨addBuiltins { r with current := i.1, current_lt := i.2 },
      j ++ [.noted (.themeChanged key)], .ok ()⟩

/-! ## The current theme -/

/-- Lets a call on the current theme with the outcome `o` act on the registry. -/
def onTheme {α : Type} (r : Registry) (o : Outcome Theme α) : Outcome Registry α :=
  o.within r.withTheme

variable [Markup.Decoders]

def definition (env : Environment) (r : Registry) (j : Journal) (name : String) :
    Outcome Registry (Option Handle) :=
  r.onTheme (r.theme.definition env j name)

def definitionFor (env : Environment) (r : Registry) (j : Journal) (extension : String) :
    Outcome Registry (Option Handle) :=
  r.onTheme (r.theme.definitionFor env j extension)

def definitions (env : Environment) (r : Registry) (j : Journal) : Outcome Registry (List Handle) :=
  r.onTheme (r.theme.definitions env j)

def register (r : Registry) (name : String) (extensions : List String) (grammar : Grammar) :
    Registry :=
  r.withTheme (r.theme.register name extensions grammar)

def registerDeferred (r : Registry) (name : String) (extensions : List String) (loader : Loader) :
    Registry :=
  r.withTheme (r.theme.registerDeferred name extensions loader)

def colorSet (env : Environment) (r : Registry) (j : Journal) (grammar : String) :
    Outcome Registry (Option ColorSet) :=
  r.onTheme (r.theme.colorSet env j grammar)

def model (env : Environment) (r : Registry) (j : Journal) :
    Outcome Registry (Option Overlay.Model) :=
  r.onTheme (r.theme.resolve env j)

/-- Applies the global styles of the current theme to `sink`. A theme without an overlay leaves it
alone. -/
def applyStyles {σ : Type} (env : Environment) (set : Overlay.Sink σ) (r : Registry) (j : Journal)
    (sink : σ) : Outcome (Registry × σ) Unit :=
  match r.model env j with
  | ⟨r, j, .error e⟩ => ⟨(r, sink), j, .error e⟩
  | ⟨r, j, .ok none⟩ => ⟨(r, sink), j, .ok ()⟩
  | ⟨r, j, .ok (some m)⟩ =>
    let styling := Overlay.applyStyles set m sink
    ⟨(r, styling.sink), j ++ styling.notices.map .noted, styling.result⟩

/-! ## The registry as a whole -/

/-- The registry `r` in its inspected form, which tells the number of its `builtins`. -/
def inspected (r : Registry) : String :=
  "ThemeRegistry \x7b builtin_grammars: " ++ Text.Decimal.digits r.builtins.length ++ ", .. \x7d"

/-- Puts the registry `r` into a `place` for one. A place that is taken keeps what it has, and `r`
is given back. -/
def install (place : Option Registry) (r : Registry) : Option Registry × Except Registry Unit :=
  match place with
  | none => (some r, .ok ())
  | some installed => (some installed, .error r)

end Registry

end Livery
