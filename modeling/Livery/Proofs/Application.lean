import Livery.Libraries
import Livery.Proofs.Once
import Livery.Proofs.Resolution
import Livery.Proofs.RoundTrip
import Livery.Proofs.Styles
import Livery.Proofs.Warnings
import Livery.Resource.FileTree
import Livery.Resource.MemoryStore

/-!
# Styles are applied in full or not at all

A theme keeps what its overlay gave when it was loaded, and that load is in the journal. So the
model that styles are applied from has styles of known kinds only, and nothing stops half way: it
fails, if at all, with the load of the overlay, before anything is written.

* `Theme.Faithful.moves`: look-ups keep the models of themes true to their overlays.
* `Registry.faithful_run`: so does every run, for all themes.
* `Registry.styles_all_or_nothing`: applying styles behind any run of calls.
-/

namespace Livery

/-! ## Errors of stores and overlays -/

/-- A resource is not there, or `fetch` cannot read it. -/
def ThemeError.isMissing : ThemeError → Bool
  | .resourceNotFound _ => true
  | .resourceRead _ _ => true
  | _ => false

/-- An overlay is malformed or inconsistent, or its file `isMissing`. -/
def ThemeError.spoilsOverlay : ThemeError → Bool
  | .format _ _ => true
  | .semantic _ _ => true
  | e => e.isMissing

theorem ThemeError.spoils_of_isMissing {e : ThemeError} (h : e.isMissing = true) :
    e.spoilsOverlay = true := by
  cases e with
  | resourceNotFound => rfl
  | resourceRead => rfl
  | _ => cases h

/-- An error that `spoilsOverlay` is no wrapping of another one. -/
theorem ThemeError.root_inTheme {key : String} {cause : ThemeError}
    (h : cause.spoilsOverlay = true) : (ThemeError.inTheme key cause).root = cause := by
  cases cause with
  | inGrammar => cases h
  | inTheme => cases h
  | _ => rfl

/-- A `MemoryStore` has a file or it has not. -/
theorem MemoryStore.fetch_missing {s : MemoryStore} {a : ResourceName} {e : ThemeError}
    (h : s.fetch a = .error e) : e.isMissing = true := by
  unfold fetch at h
  split at h
  · cases h
  · cases h
    rfl

/-- A `FileTree` has a file, or there is no way to read one. -/
theorem FileTree.fetch_missing {t : FileTree} {a : ResourceName} {e : ThemeError}
    (h : t.fetch a = .error e) : e.isMissing = true := by
  unfold fetch at h
  split at h
  · cases h
  · cases h
    rfl
  · cases h
    rfl

/-- There are no files in an empty tree. -/
theorem FileTree.fetch_empty (a : ResourceName) (data : Bytes) : fetch {} a ≠ .ok data := by
  intro h
  unfold fetch at h
  split at h
  · next hread =>
    unfold read at hread
    split at hread
    · cases hread
    · cases hread
    · simp [file?] at hread
  · cases h
  · cases h

namespace Theme

variable {env : Environment} {t t' : Theme} {j j' : Journal} {key : String} {a : ResourceName}

/-! ## Loading an overlay -/

variable [Markup.Decoders]

/-- What could be opened is loaded. -/
theorem loadOverlay_result {data : Bytes} (h : env.fetch j a = .ok data) :
    (loadOverlay env j key a).2 = (Overlay.load data).result := by
  rw [loadOverlay, h]

/-- The overlay that `loadOverlay` loads was opened, and what it holds gives the model. -/
theorem loadOverlay_ok {m : Overlay.Model} (h : (loadOverlay env j key a).2 = .ok m) :
    ∃ data, env.fetch j a = .ok data ∧ (Overlay.load data).result = .ok m ∧
      j ++ [.opened (.overlay key) a true] <+: (loadOverlay env j key a).1 := by
  unfold loadOverlay at h ⊢
  cases hfetch : env.fetch j a with
  | error e => rw [hfetch] at h; cases h
  | ok data =>
    rw [hfetch] at h
    refine ⟨data, rfl, h, (Overlay.load data).notices.map .noted, ?_⟩
    simp

/-- If `loadOverlay` fails, the store has failed, or what was opened is malformed or
inconsistent. -/
theorem loadOverlay_error (hstore : ∀ e, env.fetch j a = .error e → e.isMissing = true)
    {cause : ThemeError} (h : (loadOverlay env j key a).2 = .error cause) :
    cause.spoilsOverlay = true := by
  unfold loadOverlay at h
  cases hfetch : env.fetch j a with
  | error e =>
    rw [hfetch] at h
    obtain rfl := Except.error.inj h
    exact ThemeError.spoils_of_isMissing (hstore e hfetch)
  | ok data =>
    rw [hfetch] at h
    simp only [Overlay.load, Overlay.readSource] at h
    cases hread : Overlay.read data true with
    | error f =>
      simp only [hread] at h
      obtain rfl := Except.error.inj h
      rfl
    | ok d =>
      cases hresolve : Overlay.resolve d with
      | error o =>
        simp only [hread, hresolve] at h
        obtain rfl := Except.error.inj h
        rfl
      | ok m =>
        simp only [hread, hresolve] at h
        cases h

/-! ## Models are true to overlays -/

/-- What the overlay of the theme `t` has given by the time of the journal `j`: the model that its
load gave, or none if that failed, or if there is no overlay. -/
inductive Gives (env : Environment) (j : Journal) (t : Theme) : Option Overlay.Model → Prop
  | nothing (hoverlay : t.overlay = none) : Gives env j t none
  | failed {a : ResourceName} {before : Journal} {cause : ThemeError}
    (hoverlay : t.overlay = some a) (hbefore : (loadOverlay env before t.key a).1 <+: j)
    (hload : (loadOverlay env before t.key a).2 = .error cause) : Gives env j t none
  | model {a : ResourceName} {before : Journal} {m : Overlay.Model}
    (hoverlay : t.overlay = some a) (hbefore : (loadOverlay env before t.key a).1 <+: j)
    (hload : (loadOverlay env before t.key a).2 = .ok m) : Gives env j t (some m)

/-- A journal that goes on keeps what `Gives` says. -/
theorem Gives.mono {model : Option Overlay.Model} (h : t.Gives env j model) (hj : j <+: j') :
    t.Gives env j' model := by
  cases h with
  | nothing ho => exact .nothing ho
  | failed ho hbefore hload => exact .failed ho (hbefore.trans hj) hload
  | model ho hbefore hload => exact .model ho (hbefore.trans hj) hload

/-- It is a matter of the `entry` that the theme is declared with. -/
theorem Gives.declared {model : Option Overlay.Model} (h : t.Gives env j model)
    (ht : t'.entry = t.entry) : t'.Gives env j model := by
  have hkey : t'.key = t.key := congrArg (·.1) ht
  have hoverlay : t'.overlay = t.overlay := congrArg (·.2.2.2) ht
  cases h with
  | nothing ho => exact .nothing (hoverlay.trans ho)
  | failed ho hbefore hload =>
    exact .failed (hoverlay.trans ho) (by rwa [hkey]) (by rwa [hkey])
  | model ho hbefore hload => exact .model (hoverlay.trans ho) (by rwa [hkey]) (by rwa [hkey])

/-- A settled theme has the model that its overlay `Gives`. -/
def Faithful (env : Environment) (j : Journal) (t : Theme) : Prop :=
  ∀ model, t.resolution = .settled model → t.Gives env j model

theorem Faithful.mono (h : t.Faithful env j) (hj : j <+: j') : t.Faithful env j' :=
  fun model hmodel => (h model hmodel).mono hj

/-- Being `Faithful` does not depend on the grammars. -/
theorem Faithful.withGrammars (h : t.Faithful env j) (g : GrammarTable) :
    Faithful env j { t with grammars := g } :=
  fun model hmodel => (h model hmodel).declared rfl

theorem faithful_ofEntry (env : Environment) (j : Journal) (e : ThemeEntry) :
    (ofEntry e).Faithful env j := by
  intro model hmodel
  cases hmodel

/-- A theme that comes to its model has it from its overlay. -/
theorem Faithful.resolve (h : t.Faithful env j) :
    (t.resolve env j).state.Faithful env (t.resolve env j).journal := by
  rcases resolve_cases env j t with
    ⟨m, hres, he⟩ | ⟨-, ho, he⟩ | ⟨a, -, ho, ⟨m, hload, he⟩ | ⟨e, hload, he⟩⟩
  · rw [he]
    exact h
  · rw [he]
    rintro model ⟨⟩
    exact .nothing ho
  · rw [he]
    rintro model ⟨⟩
    exact .model ho (List.prefix_append _ _) hload
  · rw [he]
    rintro model ⟨⟩
    exact .failed ho (List.prefix_append _ _) hload

/-- What `resolve` answers for a `Faithful` theme is what its overlay gave. -/
theorem Faithful.gives (h : t.Faithful env j) {model : Option Overlay.Model}
    (hmodel : (t.resolve env j).result = .ok model) :
    t.Gives env (t.resolve env j).journal model :=
  (h.resolve model (resolve_settled hmodel)).declared (Move.resolve t j).entry_eq.symm

theorem Faithful.move (h : t.Faithful env j) (hm : Move env t j t' j') : t'.Faithful env j' := by
  have hj : j <+: j' := by
    obtain ⟨added, rfl, -⟩ := hm.added
    exact List.prefix_append j added
  cases hm with
  | resolve => exact h.resolve
  | @load name ticket loader model hslot hres =>
    obtain ⟨slot, -, -, -, hstate, -⟩ :=
      loadDeferred_added env j t name ticket loader (model.bind (·.colorSet? name))
    rw [hstate]
    exact (h.mono hj).withGrammars _
  | note => exact h.mono hj

/-- **Look-ups keep the models of themes true to their overlays**, whatever `Moves` they make. -/
theorem Faithful.moves (h : t.Faithful env j) (hm : Moves env t j t' j') : t'.Faithful env j' :=
  hm.keep (P := fun t j => t.Faithful env j) (fun hm' ht => ht.move hm') h

theorem Faithful.addBuiltins (h : t.Faithful env j) (bs : List BuiltinGrammar) :
    (bs.foldl Registry.addBuiltin t).Faithful env j := by
  induction bs generalizing t with
  | nil => exact h
  | cons b bs ih =>
    refine ih ?_
    unfold Registry.addBuiltin
    split
    · exact h
    · exact h.withGrammars _

end Theme

namespace Registry

variable {env : Environment} {c : Catalog} {r r' r₀ : Registry} {j j' : Journal} {call : Call}

/-! ## Runs -/

section Runs

variable [Markup.Decoders]

/-- All themes of `r` have the models that their overlays gave. -/
def Faithful (env : Environment) (j : Journal) (r : Registry) : Prop :=
  ∀ t ∈ r.themes, t.Faithful env j

theorem Faithful.step (h : r.Faithful env j) (hstep : Step env r j call r' j') :
    r'.Faithful env j' := by
  intro t ht
  cases hstep with
  | look _ _ hm =>
    rcases mem_withTheme ht with rfl | ht
    · exact (h _ (theme_mem r)).moves hm
    · obtain ⟨added, rfl, -⟩ := hm.added
      exact (h t ht).mono (List.prefix_append j added)
  | register =>
    rcases mem_withTheme ht with rfl | ht
    · exact (h _ (theme_mem r)).withGrammars _
    · exact h t ht
  | @select key i hi =>
    refine Theme.Faithful.mono ?_ (List.prefix_append j _)
    rcases mem_withTheme ht with rfl | ht
    · exact (h _ (List.getElem_mem i.2)).addBuiltins _
    · exact h t ht
  | unknown => exact h t ht

/-- **Every run keeps all themes `Faithful`.** -/
theorem faithful_run (h : r.Faithful env j) (calls : List Call) :
    (run env r j calls).1.Faithful env (run env r j calls).2.1 := by
  induction calls generalizing r j with
  | nil => exact h
  | cons call calls ih => exact ih (h.step (step_cases env r j call))

theorem faithful_ofCatalog (hc : ofCatalog c = .ok r) (env : Environment) :
    r.Faithful env [] := by
  obtain ⟨-, r₁, rfl, hthemes, -⟩ := of_ofCatalog hc
  have hfresh : ∀ t ∈ r₁.themes, t.Faithful env [] := by
    intro t ht
    rw [hthemes, List.mem_map] at ht
    obtain ⟨e, -, rfl⟩ := ht
    exact Theme.faithful_ofEntry env [] e
  intro t ht
  rcases mem_withTheme ht with rfl | ht
  · exact (hfresh _ (theme_mem r₁)).addBuiltins _
  · exact hfresh t ht

/-- The styles of the model `m` that a theme keeps are of known kinds. -/
theorem Faithful.supported (h : r.Faithful env j) {t : Theme} (ht : t ∈ r.themes)
    {m : Overlay.Model} (hm : t.resolution = .settled (some m)) :
    ∀ s ∈ m.globalStyles, s.isSupported = true := by
  cases h t ht _ hm with
  | model _ _ hload =>
    obtain ⟨data, -, hdata, -⟩ := Theme.loadOverlay_ok hload
    obtain ⟨-, -, -, -, hsupported⟩ := Overlay.load_styles hdata
    exact hsupported

/-! ## Applying styles -/

/-- What becomes of `sink` is decided by what the current theme answers. -/
theorem applyStyles_eq {σ : Type} (set : Overlay.Sink σ) (r : Registry) (j : Journal) (sink : σ) :
    let answer := r.theme.resolve env j
    r.applyStyles env set j sink = match answer.result with
      | .error err => ⟨(r.withTheme answer.state, sink), answer.journal, .error err⟩
      | .ok none => ⟨(r.withTheme answer.state, sink), answer.journal, .ok ()⟩
      | .ok (some m) =>
        let styling := Overlay.applyStyles set m sink
        ⟨(r.withTheme answer.state, styling.sink),
          answer.journal ++ styling.notices.map .noted, styling.result⟩ := by
  simp only [applyStyles, model, onTheme, Outcome.within]
  rcases r.theme.resolve env j with ⟨t, j', err | _ | m⟩
  · rfl
  · rfl
  · rfl

/-- By the time of the journal `j` the overlay of `e` was opened, and it was read under the schema
as the document `d`, which could be resolved. -/
def Shows (env : Environment) (j : Journal) (e : ThemeEntry) (d : Overlay.Document) : Prop :=
  ∃ a before data, e.overlay = some a ∧ before ++ [.opened (.overlay e.key) a true] <+: j ∧
    env.fetch before a = .ok data ∧ Overlay.read data true = .ok d ∧
    ∃ m, Overlay.resolve d = .ok m

theorem Shows.mono {e : ThemeEntry} {d : Overlay.Document} (h : Shows env j e d) (hj : j <+: j') :
    Shows env j' e d := by
  obtain ⟨a, before, data, ho, hopened, hrest⟩ := h
  exact ⟨a, before, data, ho, hopened.trans hj, hrest⟩

/-- The theme of `e` has no overlay to use: there is none, or it could not be loaded. -/
def Bare (env : Environment) (j : Journal) (e : ThemeEntry) : Prop :=
  e.overlay = none ∨ ∃ a before cause, e.overlay = some a ∧
    (Theme.loadOverlay env before e.key a).1 <+: j ∧
    (Theme.loadOverlay env before e.key a).2 = .error cause

/-- The error `err` comes from the first load of an overlay, which is tried now. -/
structure FirstFailure (env : Environment) (j : Journal) (e : ThemeEntry) (err : ThemeError) :
    Prop where
  untried : j.overlayLoads e.key = 0
  load : ∃ a cause, e.overlay = some a ∧ (Theme.loadOverlay env j e.key a).2 = .error cause ∧
    err = .inTheme e.key cause ∧ err.root = cause ∧ cause.spoilsOverlay = true
  unrelated : ∀ name, err.root ≠ .unsupportedStyle name

/-- A theme whose overlay gave the model `m` shows the document of it, and `m` has the styles of
that document. -/
theorem shows_of_gives {e : ThemeEntry} {m : Overlay.Model}
    (h : (Theme.ofEntry e).Gives env j (some m)) :
    ∃ d, Shows env j e d ∧ m.globalStyles = d.globalStyles.map Overlay.StyleDeclaration.style ∧
      ∀ s ∈ m.globalStyles, s.isSupported = true := by
  cases h with
  | @model a before _ ho hbefore hload =>
    obtain ⟨data, hfetch, hdata, hopened⟩ := Theme.loadOverlay_ok hload
    obtain ⟨d, hread, hresolve, hstyles, hsupported⟩ := Overlay.load_styles hdata
    exact ⟨d, ⟨a, before, data, ho, hopened.trans hbefore, hfetch, hread, m, hresolve⟩, hstyles,
      hsupported⟩

theorem bare_of_gives {e : ThemeEntry} (h : (Theme.ofEntry e).Gives env j none) :
    Bare env j e := by
  cases h with
  | nothing ho => exact .inl ho
  | failed ho hbefore hload => exact .inr ⟨_, _, _, ho, hbefore, hload⟩

/-- The current theme `t` fails to come to its model only when its overlay is loaded. -/
theorem firstFailure_of_error {e : ThemeEntry} {t : Theme} {err : ThemeError}
    (hentry : t.entry = (Theme.ofEntry e).entry)
    (hstore : ∀ j a err, env.fetch j a = .error err → err.isMissing = true)
    (hpending : t.resolution = .pending → j.overlayLoads t.key = 0)
    (h : (t.resolve env j).result = .error err) : FirstFailure env j e err := by
  have hkey : t.key = e.key := congrArg (·.1) hentry
  have hoverlay : t.overlay = e.overlay := congrArg (·.2.2.2) hentry
  rcases Theme.resolve_cases env j t with
    ⟨m, -, he⟩ | ⟨-, -, he⟩ | ⟨a, hp, ho, ⟨m, -, he⟩ | ⟨cause, hload, he⟩⟩ <;> rw [he] at h
  · cases h
  · cases h
  · cases h
  · obtain rfl := Except.error.inj h
    have hspoils := Theme.loadOverlay_error (hstore j a) hload
    have hroot : (ThemeError.inTheme t.key cause).root = cause := ThemeError.root_inTheme hspoils
    rw [hkey] at hload hroot hpending ⊢
    refine ⟨hpending hp, ⟨a, cause, hoverlay.symm.trans ho, hload, rfl, hroot, hspoils⟩, ?_⟩
    rintro name hname
    rw [hroot] at hname
    subst hname
    cases hspoils

/-- **Styles are applied in full or not at all.** Take a registry of a catalog and a store that
fails only where a resource is missing or unreadable. Behind any calls, every model that a theme
has got is one of styles of known kinds. To apply the styles of the current theme to any sink fails
only with the first load of its overlay, which is missing, malformed or inconsistent, and then the
sink is left alone. Otherwise the sink is given the colours of every style of the overlay, in the
order of its document, or nothing if there is no overlay to use. -/
theorem styles_all_or_nothing (hc : ofCatalog c = .ok r₀) {env : Environment}
    (hstore : ∀ j a err, env.fetch j a = .error err → err.isMissing = true) (calls : List Call)
    {σ : Type} (set : Overlay.Sink σ) (sink : σ) :
    let r := (run env r₀ [] calls).1
    let j := (run env r₀ [] calls).2.1
    let o := r.applyStyles env set j sink
    (∀ t ∈ r.themes, ∀ m, t.resolution = .settled (some m) →
      ∀ s ∈ m.globalStyles, s.isSupported = true) ∧
    ∃ e ∈ c.themes, e.key = r.currentKey ∧
      (∀ err, o.result = .error err → FirstFailure env j e err ∧ o.state.2 = sink) ∧
      (o.result = .ok () →
        (∃ d, Shows env o.journal e d ∧
          o.state.2 = set.writeAll sink (d.globalStyles.flatMap (·.style.writes))) ∨
        Bare env o.journal e ∧ o.state.2 = sink) := by
  intro r j o
  obtain ⟨hv, htracked₀⟩ := tracked_ofCatalog hc
  have hnd := Catalog.keys_nodup hv
  have hnames := Catalog.grammarNames_nodup hv
  have htracked : Tracked c calls r j := tracked_run htracked₀ hnd hnames env calls
  have hfaithful : r.Faithful env j := faithful_run (faithful_ofCatalog hc env) calls
  obtain ⟨e, he, hentry⟩ := htracked.toFrame.declared (getElem?_current r)
  have hkey : r.theme.key = e.key := congrArg (·.1) hentry
  have hpending := (htracked.themes _ e _ he (getElem?_current r)).overlay_pending
  refine ⟨fun t ht m hm => hfaithful.supported ht hm, e, List.mem_of_getElem? he, hkey.symm, ?_⟩
  have ho : o = r.applyStyles env set j sink := rfl
  rw [applyStyles_eq] at ho
  -- everything is decided by what the theme answers
  cases hmodel : (r.theme.resolve env j).result with
  | error err =>
    simp only [hmodel] at ho
    rw [ho]
    refine ⟨fun err' herr => ?_, fun hok => by cases hok⟩
    obtain rfl := Except.error.inj herr
    exact ⟨firstFailure_of_error hentry hstore hpending hmodel, rfl⟩
  | ok model =>
    have hgives := ((hfaithful _ (theme_mem r)).gives hmodel).declared hentry.symm
    cases model with
    | none =>
      simp only [hmodel] at ho
      rw [ho]
      exact ⟨fun err' herr => (by cases herr), fun _ => .inr ⟨bare_of_gives hgives, rfl⟩⟩
    | some m =>
      simp only [hmodel] at ho
      obtain ⟨d, hshows, hstyles, hsupported⟩ := shows_of_gives hgives
      obtain ⟨hresult, hsink⟩ := Overlay.applyStyles_supported set sink hsupported
      rw [ho]
      refine ⟨fun err' herr => ?_, fun _ => .inl ⟨d, ?_, ?_⟩⟩
      · -- nothing stops the styles half way
        rw [hresult] at herr
        cases herr
      · exact hshows.mono (List.prefix_append _ _)
      · rw [hsink, hstyles, List.flatMap_map]

end Runs

/-- An overlay that sets styles of two `StyleKind`s. -/
def evening : Overlay.Document where
  name := "Night"
  declarations :=
    [.globalStyle { typeName := "Selection", background := some (.fixed ⟨0xFF, 0, 0, 0x80⟩),
                    border := some (.fixed ⟨0x80, 0xFF, 0, 0⟩) },
     .globalStyle { typeName := "LineNumbersForeground",
                    foreground := some (.fixed ⟨0xFF, 0x40, 0x40, 0x40⟩) }]

theorem evening_isTellable : evening.IsTellable where
  colors := by rintro s ⟨⟩
  extensions := by rintro s ⟨⟩
  styles := by decide

/-- A store that holds the text of `evening`. -/
def eveningStore : MemoryStore :=
  MemoryStore.insert {} ⟨"o", "n"⟩ (Text.Utf8.encode evening.write)

/-- What `eveningStore` holds can be loaded, and it is read as a document with the styles of
`evening`. -/
theorem evening_loads : ∃ data d m, eveningStore.fetch ⟨"o", "n"⟩ = .ok data ∧
    Overlay.read data true = .ok d ∧ (Overlay.load data).result = .ok m ∧
    d.globalStyles.map Overlay.StyleDeclaration.style =
      evening.globalStyles.map Overlay.StyleDeclaration.style := by
  have hread := Overlay.Document.readText_write evening_isTellable true
  have hsame := Overlay.Document.document_source evening_isTellable
  have hsets : evening.source.document.colorSets = [] := by
    rw [← List.length_eq_zero_iff, ← Overlay.Document.colorSets_unplaced, hsame]
    rfl
  have hobjections : evening.source.document.objections = [] := by
    rw [Overlay.Document.objections, hsets]
    rfl
  obtain ⟨m, hm⟩ := Overlay.exists_resolve hobjections
  refine ⟨Text.Utf8.encode evening.write, _, m, ?_, hread, Overlay.load_ok_iff.2 ⟨_, hread, hm⟩, ?_⟩
  · rw [MemoryStore.fetch, eveningStore, MemoryStore.get?_insert, if_pos rfl]
  · rw [← Overlay.Document.styles_unplaced, hsame]
    rfl

/-- Where the stores have no files, nothing is written under Night. Where there is the overlay
`evening`, all that it sets is written. -/
theorem styles_all_or_nothing_night :
    let c : Catalog := ⟨"Day", [⟨"Day", "", "day", none⟩, ⟨"Night", "", "night", some ⟨"o", "n"⟩⟩],
      [⟨"Json", [".json"], "Json.xshd"⟩]⟩
    let calls : List Call := [.definition "Json", .select "Night"]
    ∃ r, ofCatalog c = .ok r ∧
      (∀ env ∈ [Environment.ofStore (MemoryStore.fetch {}), .ofStore (FileTree.fetch {})],
        let night := run env r [] calls
        (∀ j a err, env.fetch j a = .error err → err.isMissing = true) ∧
          (night.1.applyStyles env Overlay.recorded night.2.1 []).state.2 = []) ∧
      let env := Environment.ofStore eveningStore.fetch
      let night := run env r [] calls
      let o := night.1.applyStyles env Overlay.recorded night.2.1 []
      (∀ j a err, env.fetch j a = .error err → err.isMissing = true) ∧ o.result = .ok () ∧
        o.state.2 = [(.selectionBackground, ⟨0xFF, 0, 0, 0x80⟩),
          (.selectionBorder, ⟨0x80, 0xFF, 0, 0⟩),
          (.lineNumbersForeground, ⟨0xFF, 0x40, 0x40, 0x40⟩)] := by
  intro c calls
  have hv : c.validate = .ok () := by
    simp [c, Catalog.validate, Catalog.defect?, Catalog.themesDefect?, Catalog.themeDefect?,
      Catalog.isComplete, Catalog.currentDefect?, Catalog.grammarsDefect?, Catalog.grammarDefect?]
  obtain ⟨r, hc⟩ := exists_ofCatalog hv
  refine ⟨r, hc, fun env henv => ?_, ?_⟩
  · have hstore : ∀ j a err, env.fetch j a = .error err → err.isMissing = true := by
      intro j a err
      rcases List.mem_pair.1 henv with rfl | rfl
      · exact fun h => @MemoryStore.fetch_missing {} a err h
      · exact fun h => @FileTree.fetch_missing {} a err h
    have hempty : ∀ j a data, env.fetch j a ≠ .ok data := by
      intro j a data
      rcases List.mem_pair.1 henv with rfl | rfl
      · exact fun h => (by cases h)
      · exact FileTree.fetch_empty a data
    obtain ⟨-, e, -, -, herror, hok⟩ := styles_all_or_nothing hc hstore calls Overlay.recorded []
    refine ⟨hstore, ?_⟩
    cases hresult : ((run env r [] calls).1.applyStyles env Overlay.recorded
        (run env r [] calls).2.1 []).result with
    | error err => exact (herror err hresult).2
    | ok =>
      rcases hok hresult with ⟨d, ⟨a, before, data, -, -, hfetch, -⟩, -⟩ | ⟨-, hsink⟩
      · exact absurd hfetch (hempty before a data)
      · exact hsink
  · intro env night o
    have hstore : ∀ j a err, env.fetch j a = .error err → err.isMissing = true :=
      fun _ _ _ h => MemoryStore.fetch_missing h
    obtain ⟨-, e, he, hkey, herror, hok⟩ :=
      styles_all_or_nothing hc hstore calls Overlay.recorded []
    have hnight : ((ofCatalog c).toOption.map fun r => (run env r [] calls).1.currentKey) =
        some "Night" := by decide
    rw [hc] at hnight
    have hoverlay : e.overlay = some ⟨"o", "n"⟩ := by
      rw [show (run env r [] calls).1.currentKey = "Night" from Option.some.inj hnight] at hkey
      rcases List.mem_pair.1 he with rfl | rfl
      · exact absurd hkey (by decide)
      · rfl
    -- the overlay can be loaded at any time, so neither of the other outcomes is left
    obtain ⟨data, d, m, hfetch, hread, hm, hstyles⟩ := evening_loads
    have hload : ∀ j a cause, e.overlay = some a →
        (Theme.loadOverlay env j e.key a).2 ≠ .error cause := by
      intro j a cause ha hfails
      obtain rfl : ResourceName.mk "o" "n" = a := Option.some.inj (hoverlay.symm.trans ha)
      rw [Theme.loadOverlay_result hfetch, hm] at hfails
      cases hfails
    have hresult : o.result = .ok () := by
      cases h : o.result with
      | ok => rfl
      | error err =>
        obtain ⟨a, cause, ha, hfails, -⟩ := (herror err h).1.load
        exact absurd hfails (hload _ a cause ha)
    refine ⟨hstore, hresult, ?_⟩
    rcases hok hresult with ⟨d', ⟨a, before, data', ha, -, hfetch', hread', -⟩, hsink⟩ | ⟨hbare, -⟩
    · obtain rfl : ResourceName.mk "o" "n" = a := Option.some.inj (hoverlay.symm.trans ha)
      obtain rfl : data = data' := Except.ok.inj (hfetch.symm.trans hfetch')
      obtain rfl : d = d' := Except.ok.inj (hread.symm.trans hread')
      rw [hsink, ← List.flatMap_map, hstyles]
      decide
    · rcases hbare with hnone | ⟨a, before, cause, ha, -, hfails⟩
      · rw [hoverlay] at hnone
        cases hnone
      · exact absurd hfails (hload before a cause ha)

end Registry

end Livery
