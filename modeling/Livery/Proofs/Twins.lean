import Livery.Proofs.Warnings

/-!
# Themes that answer alike

Over a fixed store, and with loaders that look at nothing but the colours, the answers of a theme do
not depend on the journal. Two themes are **twins** if they differ only in what one of them has
loaded already: where one is still deferred, the other has what loading it would give. Twins give
the same answers and remain twins. A theme with a broken overlay is no twin of the theme without an
overlay, but becomes one with the first call that demands the overlay.

* `Theme.Twin.definition`, `Theme.Twin.definitions`: twins answer alike and remain twins.
* `Theme.Broken.twin`: a theme whose overlay failed is a twin of one without an overlay.
* `Theme.Twin.ahead`: what the second twin loads ahead of the first does not matter.
-/

namespace Livery

/-! ## Fixed worlds -/

/-- The environment of a store, `fetch`, and a way of reading grammar files, `load`, neither of
which looks at the journal. -/
def Environment.fixed (fetch : ResourceName → Except ThemeError Bytes)
    (load : String → Bytes → Option ColorSet → Grammar.Loading) : Environment :=
  ⟨fun _ => fetch, fun _ => load⟩

/-- A `Loader` that looks at nothing but the colours. -/
def Loader.Fixed : Loader → Prop
  | .resource _ => True
  | .custom load => ∀ j j' colors, load j colors = load j' colors

/-- What a `Loader` gives in `colors`. -/
def Loader.outcome (fetch : ResourceName → Except ThemeError Bytes)
    (load : String → Bytes → Option ColorSet → Grammar.Loading) (name : String)
    (colors : Option ColorSet) : Loader → Except ThemeError Grammar
  | .resource r => (fetch r).bind fun data => (load name data colors).result
  | .custom make => (make [] colors).result

/-- The slot that is left under `name` when a loader has given something. -/
def GrammarSlot.ofOutcome (name : String) : Except ThemeError Grammar → GrammarSlot
  | .ok g => .loaded g
  | .error e => .failed (.inGrammar name e)

/-- The answer of `definition` when a loader has given something. -/
def Handle.ofOutcome (key name : String) (ticket : Nat) :
    Except ThemeError Grammar → Except ThemeError (Option Handle)
  | .ok g => .ok (some ⟨key, ticket, g⟩)
  | .error e => .error (.inGrammar name e)

namespace Theme

section Fixed

variable (fetch : ResourceName → Except ThemeError Bytes)
  (load : String → Bytes → Option ColorSet → Grammar.Loading)

theorem runLoader_fixed {loader : Loader} (hfixed : loader.Fixed) (j : Journal) (key name : String)
    (ticket : Nat) (colors : Option ColorSet) :
    (runLoader (.fixed fetch load) j key name ticket colors loader).2 =
      loader.outcome fetch load name colors := by
  cases loader with
  | resource r =>
    simp only [runLoader, Loader.outcome, Environment.fixed]
    cases fetch r with
    | error e => rfl
    | ok data => rfl
  | custom make =>
    have hmake : make (j ++ [.ran key ticket name true colors]) colors = make [] colors :=
      hfixed _ _ colors
    simp only [runLoader, Loader.outcome, hmake]

/-- What `loadDeferred` does with a `Fixed` loader, whatever was done before. -/
theorem loadDeferred_fixed {loader : Loader} (hfixed : loader.Fixed) (j : Journal) (t : Theme)
    (name : String) (ticket : Nat) (colors : Option ColorSet) :
    (t.loadDeferred (.fixed fetch load) j name ticket loader colors).state =
        { t with
          grammars := t.grammars.settle name ticket
            (.ofOutcome name (loader.outcome fetch load name colors)) } ∧
      (t.loadDeferred (.fixed fetch load) j name ticket loader colors).result =
        Handle.ofOutcome t.key name ticket (loader.outcome fetch load name colors) := by
  have hrun := runLoader_fixed fetch load hfixed j t.key name ticket colors
  rcases loadDeferred_cases (.fixed fetch load) j t name ticket loader colors with
    ⟨g, hl, he⟩ | ⟨e, hl, he⟩
  · rw [hrun] at hl
    rw [he, hl]
    exact ⟨rfl, rfl⟩
  · rw [hrun] at hl
    rw [he, hl]
    exact ⟨rfl, rfl⟩

/-- What `loadOverlay` gives, whatever was done before. -/
theorem loadOverlay_fixed [Markup.Decoders] (j j' : Journal) (key : String) (r : ResourceName) :
    (loadOverlay (.fixed fetch load) j key r).2 = (loadOverlay (.fixed fetch load) j' key r).2 := by
  simp only [loadOverlay, Environment.fixed]
  cases fetch r with
  | error e => rfl
  | ok data => rfl

end Fixed

/-! ## Twins -/

/-- Registrations of one name in two themes: the same one, or what is deferred in the first theme is
loaded in the second one, in the colours of the model in `resolution` that they are settled on. -/
def SlotTwin (fetch : ResourceName → Except ThemeError Bytes)
    (load : String → Bytes → Option ColorSet → Grammar.Loading) (resolution : Resolution)
    (name : String) (reg₁ reg₂ : Option Registration) : Prop :=
  reg₁ = reg₂ ∨ ∃ ticket loader model, resolution = .settled model ∧
    reg₁ = some ⟨ticket, .deferred loader⟩ ∧
    reg₂ = some ⟨ticket, .ofOutcome name
      (loader.outcome fetch load name (model.bind (·.colorSet? name)))⟩

/-- Two themes `t₁` and `t₂` that differ only in what the second one has loaded already. -/
structure Twin (fetch : ResourceName → Except ThemeError Bytes)
    (load : String → Bytes → Option ColorSet → Grammar.Loading) (t₁ t₂ : Theme) : Prop where
  key : t₁.key = t₂.key
  displayName : t₁.displayName = t₂.displayName
  basePrefix : t₁.basePrefix = t₂.basePrefix
  resolution : t₁.resolution = t₂.resolution
  overlay : t₁.resolution = .pending → t₁.overlay = t₂.overlay
  order : t₁.grammars.order = t₂.grammars.order
  owners : t₁.grammars.owners = t₂.grammars.owners
  next : t₁.grammars.nextTicket = t₂.grammars.nextTicket
  slots : ∀ name, SlotTwin fetch load t₁.resolution name (t₁.grammars.get? name)
    (t₂.grammars.get? name)
  steady : t₁.Deferring Loader.Fixed

/-- Two calls that answer alike and leave a `Twin` behind. -/
structure Agree {α : Type} (fetch : ResourceName → Except ThemeError Bytes)
    (load : String → Bytes → Option ColorSet → Grammar.Loading) (o₁ o₂ : Outcome Theme α) :
    Prop where
  result : o₁.result = o₂.result
  twin : Twin fetch load o₁.state o₂.state

variable {fetch : ResourceName → Except ThemeError Bytes}
  {load : String → Bytes → Option ColorSet → Grammar.Loading} {t t₁ t₂ t' : Theme}
  {j j₁ j₂ j' : Journal} {name : String} {ticket : Nat} {loader : Loader} {α β : Type}

theorem Agree.map {o₁ o₂ : Outcome Theme α} (h : Agree fetch load o₁ o₂) (f : α → β) :
    Agree fetch load (o₁.map f) (o₂.map f) :=
  ⟨congrArg (Except.map f) h.result, h.twin⟩

theorem Agree.andThen {o₁ o₂ : Outcome Theme α} (h : Agree fetch load o₁ o₂)
    {next₁ next₂ : Theme → Journal → α → Outcome Theme β}
    (hnext : ∀ a, o₁.result = .ok a → Agree fetch load (next₁ o₁.state o₁.journal a)
      (next₂ o₂.state o₂.journal a)) :
    Agree fetch load (o₁.andThen next₁) (o₂.andThen next₂) := by
  obtain ⟨hresult, htwin⟩ := h
  rcases o₁ with ⟨s₁, k₁, res⟩
  rcases o₂ with ⟨s₂, k₂, res₂⟩
  obtain rfl : res = res₂ := hresult
  cases res with
  | error e => exact ⟨rfl, htwin⟩
  | ok a => exact hnext a rfl

/-- Every theme with `Fixed` loaders is its own twin. -/
theorem twin_self (h : t.Deferring Loader.Fixed) : Twin fetch load t t :=
  ⟨rfl, rfl, rfl, rfl, fun _ => rfl, rfl, rfl, rfl, fun _ => .inl rfl, h⟩

/-- What was loaded is not deferred. -/
theorem ofOutcome_ne_deferred (name : String) (outcome : Except ThemeError Grammar)
    (loader : Loader) : GrammarSlot.ofOutcome name outcome ≠ .deferred loader := by
  cases outcome with
  | ok g => simp [GrammarSlot.ofOutcome]
  | error e => simp [GrammarSlot.ofOutcome]

/-! ## What twins do alike -/

theorem Twin.contains (h : Twin fetch load t₁ t₂) (name : String) :
    t₁.contains name = t₂.contains name := by
  change (t₁.grammars.get? name).isSome = (t₂.grammars.get? name).isSome
  rcases h.slots name with heq | ⟨ticket, loader, model, -, h₁, h₂⟩
  · rw [heq]
  · rw [h₁, h₂]
    rfl

/-- Twins are settled on the same model. -/
theorem Twin.settle (h : Twin fetch load t₁ t₂) {model : Option Overlay.Model}
    (hmodel : ∀ m, t₁.resolution = .settled m → m = model) :
    Twin fetch load { t₁ with resolution := .settled model }
      { t₂ with resolution := .settled model } := by
  refine { h with resolution := rfl, overlay := (by rintro ⟨⟩), slots := fun name => ?_ }
  rcases h.slots name with heq | ⟨ticket, loader, m, hres, h₁, h₂⟩
  · exact .inl heq
  · obtain rfl := hmodel m hres
    exact .inr ⟨ticket, loader, m, rfl, h₁, h₂⟩

/-- Twins come to the same model. -/
theorem Twin.resolve [Markup.Decoders] (h : Twin fetch load t₁ t₂) (j₁ j₂ : Journal) :
    Agree fetch load (t₁.resolve (.fixed fetch load) j₁) (t₂.resolve (.fixed fetch load) j₂) := by
  have hsettle : t₁.resolution = .pending → ∀ model,
      Twin fetch load { t₁ with resolution := .settled model }
        { t₂ with resolution := .settled model } := by
    intro hp model
    refine h.settle fun m hm => ?_
    rw [hp] at hm
    cases hm
  rcases resolve_cases (.fixed fetch load) j₁ t₁ with
    ⟨m, hres, he₁⟩ | ⟨hp, ho, he₁⟩ | ⟨r, hp, ho, hl₁⟩
  · have he₂ : t₂.resolve (.fixed fetch load) j₂ = ⟨t₂, j₂, .ok m⟩ := by
      rw [Theme.resolve, ← h.resolution, hres]
    rw [he₁, he₂]
    exact ⟨rfl, h⟩
  · have he₂ : t₂.resolve (.fixed fetch load) j₂ =
        ⟨{ t₂ with resolution := .settled none }, j₂, .ok none⟩ := by
      simp only [Theme.resolve, ← h.resolution, hp, ← h.overlay hp, ho]
    rw [he₁, he₂]
    exact ⟨rfl, hsettle hp none⟩
  · -- both load the same overlay
    have hload : (loadOverlay (.fixed fetch load) j₁ t₁.key r).2 =
        (loadOverlay (.fixed fetch load) j₂ t₂.key r).2 := by
      rw [h.key]
      exact loadOverlay_fixed fetch load j₁ j₂ t₂.key r
    have hp₂ : t₂.resolution = .pending := h.resolution.symm.trans hp
    have ho₂ : t₂.overlay = some r := (h.overlay hp).symm.trans ho
    rcases resolve_cases (.fixed fetch load) j₂ t₂ with
      ⟨m, hres, -⟩ | ⟨-, hnone, -⟩ | ⟨r₂, -, hr, hl₂⟩
    · rw [hp₂] at hres
      cases hres
    · rw [ho₂] at hnone
      cases hnone
    obtain rfl : r = r₂ := Option.some.inj (ho₂.symm.trans hr)
    rcases hl₁ with ⟨m₁, hm₁, he₁⟩ | ⟨e₁, hm₁, he₁⟩
    · rcases hl₂ with ⟨m₂, hm₂, he₂⟩ | ⟨e₂, hm₂, he₂⟩
      · obtain rfl : m₁ = m₂ := by simpa [hm₁, hm₂] using hload
        rw [he₁, he₂]
        exact ⟨rfl, hsettle hp (some m₁)⟩
      · simp [hm₁, hm₂] at hload
    · rcases hl₂ with ⟨m₂, hm₂, he₂⟩ | ⟨e₂, hm₂, he₂⟩
      · simp [hm₁, hm₂] at hload
      · obtain rfl : e₁ = e₂ := by simpa [hm₁, hm₂] using hload
        rw [he₁, he₂]
        exact ⟨by rw [h.key], hsettle hp none⟩

/-- Twins may load the same grammar. -/
theorem Twin.settleBoth (h : Twin fetch load t₁ t₂) (name : String) (ticket : Nat)
    (outcome : Except ThemeError Grammar) :
    Twin fetch load
      { t₁ with grammars := t₁.grammars.settle name ticket (.ofOutcome name outcome) }
      { t₂ with grammars := t₂.grammars.settle name ticket (.ofOutcome name outcome) } := by
  have hslot := ofOutcome_ne_deferred name outcome
  refine { h with slots := fun x => ?_, steady := h.steady.settle name ticket hslot }
  rw [GrammarTable.get?_settle, GrammarTable.get?_settle]
  split
  · exact .inl rfl
  · exact h.slots x

/-- The first twin may catch up with the second one. -/
theorem Twin.catchUp (h : Twin fetch load t₁ t₂) {outcome : Except ThemeError Grammar}
    (h₂ : t₂.grammars.get? name = some ⟨ticket, .ofOutcome name outcome⟩) :
    Twin fetch load
      { t₁ with grammars := t₁.grammars.settle name ticket (.ofOutcome name outcome) } t₂ := by
  have hslot := ofOutcome_ne_deferred name outcome
  refine { h with slots := fun x => ?_, steady := h.steady.settle name ticket hslot }
  rw [GrammarTable.get?_settle]
  split
  · next hx => exact .inl (hx ▸ h₂.symm)
  · exact h.slots x

/-- A registration in both leaves twins. -/
theorem Twin.register (h : Twin fetch load t₁ t₂) (name : String) (extensions : List String)
    {slot : GrammarSlot} (hslot : ∀ loader, slot = .deferred loader → loader.Fixed) :
    Twin fetch load { t₁ with grammars := t₁.grammars.register name extensions slot }
      { t₂ with grammars := t₂.grammars.register name extensions slot } := by
  have hcontains : t₁.grammars.contains name = t₂.grammars.contains name := h.contains name
  refine { h with
    order := ?_, owners := ?_, next := ?_, slots := fun x => ?_,
    steady := h.steady.register name extensions hslot }
  · simp only [GrammarTable.register, h.order, hcontains]
  · simp only [GrammarTable.register, h.owners]
  · simp only [GrammarTable.register, h.next]
  · rw [GrammarTable.get?_register, GrammarTable.get?_register, h.next]
    split
    · exact .inl rfl
    · exact h.slots x

theorem Twin.addBuiltins (h : Twin fetch load t₁ t₂) (bs : List BuiltinGrammar) :
    Twin fetch load (bs.foldl Registry.addBuiltin t₁) (bs.foldl Registry.addBuiltin t₂) := by
  induction bs generalizing t₁ t₂ with
  | nil => exact h
  | cons b bs ih =>
    rw [List.foldl_cons, List.foldl_cons]
    refine ih ?_
    unfold Registry.addBuiltin
    rw [h.contains b.name]
    split
    · exact h
    · rw [h.basePrefix]
      refine h.register b.name b.extensions ?_
      rintro loader ⟨⟩
      trivial

variable [Markup.Decoders]

/-- What is loaded is the answer of a look-up. -/
theorem definition_settled {env : Environment} {outcome : Except ThemeError Grammar}
    (h : t.grammars.get? name = some ⟨ticket, .ofOutcome name outcome⟩) :
    t.definition env j name = ⟨t, j, Handle.ofOutcome t.key name ticket outcome⟩ := by
  unfold definition
  rw [h]
  cases outcome with
  | ok g => rfl
  | error e => rfl

/-- **Twins give the same grammar.** -/
theorem Twin.definition (h : Twin fetch load t₁ t₂) (j₁ j₂ : Journal) (name : String) :
    Agree fetch load (t₁.definition (.fixed fetch load) j₁ name)
      (t₂.definition (.fixed fetch load) j₂ name) := by
  rcases h.slots name with heq | ⟨ticket, loader, model, hres, h₁, h₂⟩
  · -- the same is registered in both
    unfold Theme.definition
    rw [heq]
    rcases hg : t₂.grammars.get? name with _ | ⟨ticket, slot⟩
    · exact ⟨rfl, h⟩
    cases slot with
    | loaded g => exact ⟨by rw [h.key], h⟩
    | failed e => exact ⟨rfl, h⟩
    | deferred loader =>
      have hfixed := h.steady name ticket loader (heq.trans hg)
      have hresolve := h.resolve j₁ j₂
      refine hresolve.andThen fun model hmodel => ?_
      obtain ⟨hs₁, hr₁⟩ := loadDeferred_fixed fetch load hfixed
        (t₁.resolve (.fixed fetch load) j₁).journal (t₁.resolve (.fixed fetch load) j₁).state name
        ticket (model.bind (·.colorSet? name))
      obtain ⟨hs₂, hr₂⟩ := loadDeferred_fixed fetch load hfixed
        (t₂.resolve (.fixed fetch load) j₂).journal (t₂.resolve (.fixed fetch load) j₂).state name
        ticket (model.bind (·.colorSet? name))
      refine ⟨?_, ?_⟩
      · rw [hr₁, hr₂, hresolve.twin.key]
      · rw [hs₁, hs₂]
        exact hresolve.twin.settleBoth name ticket _
  · -- the second twin has loaded it, and the first one loads it now
    have hfixed := h.steady name ticket loader h₁
    obtain ⟨hs₁, hr₁⟩ := loadDeferred_fixed fetch load hfixed j₁ t₁ name ticket
      (model.bind (·.colorSet? name))
    have hfirst : t₁.definition (.fixed fetch load) j₁ name =
        t₁.loadDeferred (.fixed fetch load) j₁ name ticket loader
          (model.bind (·.colorSet? name)) := by
      simp only [Theme.definition, h₁, Theme.resolve, hres, Outcome.andThen]
    rw [hfirst, definition_settled h₂]
    refine ⟨?_, ?_⟩
    · rw [hr₁, h.key]
    · rw [hs₁]
      exact h.catchUp h₂

theorem Twin.definitionFor (h : Twin fetch load t₁ t₂) (j₁ j₂ : Journal) (extension : String) :
    Agree fetch load (t₁.definitionFor (.fixed fetch load) j₁ extension)
      (t₂.definitionFor (.fixed fetch load) j₂ extension) := by
  unfold Theme.definitionFor GrammarTable.owner?
  rw [h.owners]
  cases t₂.grammars.owners.get? (Extension.normalize extension) with
  | none => exact ⟨rfl, h⟩
  | some name => exact h.definition j₁ j₂ name

theorem Twin.definitionsOf (h : Twin fetch load t₁ t₂) (names : List String) (j₁ j₂ : Journal) :
    Agree fetch load (definitionsOf (.fixed fetch load) names j₁ t₁)
      (definitionsOf (.fixed fetch load) names j₂ t₂) := by
  induction names generalizing t₁ t₂ j₁ j₂ with
  | nil => exact ⟨rfl, h⟩
  | cons name names ih =>
    have hfirst := h.definition j₁ j₂ name
    exact hfirst.andThen fun handle _ => (ih hfirst.twin _ _).map _

/-- **Twins give the same grammars.** -/
theorem Twin.definitions (h : Twin fetch load t₁ t₂) (j₁ j₂ : Journal) :
    Agree fetch load (t₁.definitions (.fixed fetch load) j₁)
      (t₂.definitions (.fixed fetch load) j₂) := by
  unfold Theme.definitions
  rw [h.order]
  exact h.definitionsOf _ j₁ j₂

/-- What the second twin loads ahead of the first does not matter once they are settled. -/
theorem Twin.ahead (h : Twin fetch load t₁ t₂) {model : Option Overlay.Model}
    (hres : t₁.resolution = .settled model) (hm : Moves (.fixed fetch load) t₂ j t' j') :
    Twin fetch load t₁ t' := by
  refine hm.keep (P := fun t _ => Twin fetch load t₁ t) (fun {t j t' j'} hm ht => ?_) h
  cases hm with
  | resolve =>
    have hres' : t.resolution = .settled model := ht.resolution.symm.trans hres
    rw [Theme.resolve, hres']
    exact ht
  | @load name ticket loader model' hslot hres' =>
    -- the first twin still has the loader that the second one runs
    have h₁ : t₁.grammars.get? name = some ⟨ticket, .deferred loader⟩ := by
      rcases ht.slots name with heq | ⟨ticket', loader', m, -, -, h₂⟩
      · exact heq.trans hslot
      · rw [hslot] at h₂
        simp only [Option.some.injEq, Registration.mk.injEq] at h₂
        exact absurd h₂.2.symm (ofOutcome_ne_deferred _ _ loader)
    obtain ⟨hs, -⟩ := loadDeferred_fixed fetch load (ht.steady name ticket loader h₁) j t name
      ticket (model'.bind (·.colorSet? name))
    rw [hs]
    refine { ht with slots := fun x => ?_ }
    rw [GrammarTable.get?_settle]
    split
    · next hx =>
      subst hx
      exact .inr ⟨ticket, loader, model', ht.resolution.trans hres', h₁, rfl⟩
    · exact ht.slots x
  | note => exact ht

/-! ## Look-ups that meet nothing deferred -/

theorem definition_idle_result {env : Environment} (hkey : t₁.key = t₂.key)
    (hgrammars : t₁.grammars = t₂.grammars) (h : t₂.grammars.meetsDeferred [name] = false)
    (j₁ j₂ : Journal) :
    (t₁.definition env j₁ name).result = (t₂.definition env j₂ name).result := by
  unfold definition
  rw [hgrammars]
  rcases hg : t₂.grammars.get? name with _ | ⟨ticket, slot⟩
  · rfl
  cases slot with
  | loaded g => rw [hkey]
  | failed e => rfl
  | deferred loader => simp [GrammarTable.meetsDeferred, hg] at h

theorem definitionsOf_idle_result {env : Environment} (hkey : t₁.key = t₂.key)
    (hgrammars : t₁.grammars = t₂.grammars) {names : List String}
    (h : t₂.grammars.meetsDeferred names = false) (j₁ j₂ : Journal) :
    (definitionsOf env names j₁ t₁).result = (definitionsOf env names j₂ t₂).result := by
  induction names with
  | nil => rfl
  | cons name names ih =>
    rcases hg : t₂.grammars.get? name with _ | ⟨ticket, slot⟩
    · simp only [GrammarTable.meetsDeferred, hg] at h
      simp [definitionsOf, definition, hgrammars, hg, Outcome.andThen, Outcome.map, ih h]
    · cases slot with
      | loaded g =>
        simp only [GrammarTable.meetsDeferred, hg] at h
        simp [definitionsOf, definition, hgrammars, hg, hkey, Outcome.andThen, Outcome.map, ih h]
      | failed e => simp [definitionsOf, definition, hgrammars, hg, Outcome.andThen]
      | deferred loader => simp [GrammarTable.meetsDeferred, hg] at h

/-! ## Broken overlays -/

variable [Wording Definition.Fault]

/-- The overlay of the theme `t₁` was not tried yet and cannot be loaded, for `cause`; `t₂` is the
same theme without an overlay. -/
structure Broken (fetch : ResourceName → Except ThemeError Bytes) (cause : ThemeError)
    (t₁ t₂ : Theme) : Prop where
  pending : t₁.resolution = .pending
  overlay : ∃ r, t₁.overlay = some r ∧
    ∀ j, (loadOverlay (.ofStore fetch) j t₁.key r).2 = .error cause
  other : t₂ = { t₁ with overlay := none }
  steady : t₁.Deferring Loader.Fixed

variable {cause : ThemeError}

/-- Coming to the model of a broken overlay fails, which settles the theme. -/
theorem Broken.resolve_first (h : Broken fetch cause t₁ t₂) (j : Journal) :
    ∃ r, t₁.resolve (.fixed fetch load) j = ⟨{ t₁ with resolution := .settled none },
      (loadOverlay (.fixed fetch load) j t₁.key r).1 ++ [.noted (.overlayFailed t₁.key cause)],
      .error (.inTheme t₁.key cause)⟩ := by
  obtain ⟨r, ho, hload⟩ := h.overlay
  have hload' : (loadOverlay (.fixed fetch load) j t₁.key r).2 = .error cause := hload j
  refine ⟨r, ?_⟩
  unfold resolve
  rw [h.pending, ho]
  rcases hl : loadOverlay (.fixed fetch load) j t₁.key r with ⟨k, res⟩
  rw [hl] at hload'
  obtain rfl : res = _ := hload'
  simp only [hl]

theorem Broken.resolve_second {env : Environment} (h : Broken fetch cause t₁ t₂) (j : Journal) :
    t₂.resolve env j = ⟨{ t₂ with resolution := .settled none }, j, .ok none⟩ := by
  rw [h.other]
  unfold resolve
  simp only [h.pending]

/-- **A theme whose overlay failed is a `Twin` of the theme without one.** -/
theorem Broken.twin (h : Broken fetch cause t₁ t₂) :
    Twin fetch load { t₁ with resolution := .settled none }
      { t₂ with resolution := .settled none } := by
  rw [h.other]
  exact ⟨rfl, rfl, rfl, rfl, by rintro ⟨⟩, rfl, rfl, rfl, fun _ => .inl rfl, h.steady⟩

theorem Broken.register (h : Broken fetch cause t₁ t₂) (name : String) (extensions : List String)
    {slot : GrammarSlot} (hslot : ∀ loader, slot = .deferred loader → loader.Fixed) :
    Broken fetch cause { t₁ with grammars := t₁.grammars.register name extensions slot }
      { t₂ with grammars := t₂.grammars.register name extensions slot } := by
  refine ⟨h.pending, h.overlay, ?_, h.steady.register name extensions hslot⟩
  rw [h.other]

theorem Broken.addBuiltins (h : Broken fetch cause t₁ t₂) (bs : List BuiltinGrammar) :
    Broken fetch cause (bs.foldl Registry.addBuiltin t₁) (bs.foldl Registry.addBuiltin t₂) := by
  induction bs generalizing t₁ t₂ with
  | nil => exact h
  | cons b bs ih =>
    have hcontains : t₂.contains b.name = t₁.contains b.name := by rw [h.other]; rfl
    have hbase : t₂.basePrefix = t₁.basePrefix := by rw [h.other]
    rw [List.foldl_cons, List.foldl_cons]
    refine ih ?_
    unfold Registry.addBuiltin
    rw [hcontains]
    split
    · exact h
    · rw [hbase]
      refine h.register b.name b.extensions ?_
      rintro loader ⟨⟩
      trivial

end Theme

end Livery
