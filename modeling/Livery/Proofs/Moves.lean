import Livery.Registry.Run

/-!
# What calls do

A call on a registry looks something up in the current theme, registers a grammar in it or makes
another theme current. A look-up is a sequence of **moves** on the theme: it settles the overlay,
loads a deferred grammar in the colours of a settled overlay, or gives notices about styles.

* `step_cases`: every call in terms of moves, so that a law about look-ups has three cases.
* `Moves.entry_eq`: moves leave alone what a theme is declared with.
-/

namespace Livery

/-! ## Notices about styles -/

/-- The notice of a style that was applied. -/
def Notice.isStyle : Notice → Bool
  | .styleApplied _ _ _ => true
  | _ => false

theorem Overlay.applyTarget_notices {σ : Type} (set : Sink σ) (theme : String) (style : GlobalStyle)
    (acc : σ × List Notice) (target : Slot × Channel) (h : ∀ n ∈ acc.2, n.isStyle = true) :
    ∀ n ∈ (applyTarget set theme style acc target).2, n.isStyle = true := by
  unfold applyTarget
  split
  · exact h
  · simpa [or_imp, forall_and, Notice.isStyle] using h

/-- Applying styles gives notices of which `Notice.isStyle` holds. -/
theorem Overlay.applyStyles_notices {σ : Type} (set : Sink σ) (m : Model) (sink : σ) :
    ∀ n ∈ (applyStyles set m sink).notices, n.isStyle = true := by
  unfold applyStyles
  have hfrom : ∀ (styles : List GlobalStyle) (acc : σ × List Notice),
      (∀ n ∈ acc.2, n.isStyle = true) →
        ∀ n ∈ (applyFrom set m.name acc styles).notices, n.isStyle = true := by
    intro styles
    induction styles with
    | nil => intro acc h; exact h
    | cons style styles ih =>
      intro acc h
      unfold applyFrom
      split
      · exact h
      · refine ih _ ?_
        exact List.foldlRecOn _ _ h fun acc' hacc target _ =>
          applyTarget_notices _ _ _ acc' target hacc
  exact hfrom m.globalStyles (sink, []) (by simp)

/-! ## Loading -/

/-- The two ways in which `loadDeferred` ends: the loader gives a grammar, or an error. -/
theorem Theme.loadDeferred_cases (env : Environment) (j : Journal) (t : Theme) (name : String)
    (ticket : Nat) (loader : Loader) (colors : Option ColorSet) :
    (∃ g, (runLoader env j t.key name ticket colors loader).2 = .ok g ∧
      t.loadDeferred env j name ticket loader colors =
        ⟨{ t with grammars := t.grammars.settle name ticket (.loaded g) },
          (runLoader env j t.key name ticket colors loader).1 ++
            [.noted (.grammarLoaded t.key name)], .ok (some ⟨t.key, ticket, g⟩)⟩) ∨
      ∃ e, (runLoader env j t.key name ticket colors loader).2 = .error e ∧
        t.loadDeferred env j name ticket loader colors =
          ⟨{ t with grammars := t.grammars.settle name ticket (.failed (.inGrammar name e)) },
            (runLoader env j t.key name ticket colors loader).1, .error (.inGrammar name e)⟩ := by
  unfold loadDeferred
  rcases hl : runLoader env j t.key name ticket colors loader with ⟨j', e | g⟩
  · exact .inr ⟨e, rfl, rfl⟩
  · exact .inl ⟨g, rfl, rfl⟩

/-! ## Moves of a theme -/

variable [Markup.Decoders]

/-- One move of a look-up in a theme: a `resolve`, or a `loadDeferred`. -/
inductive Theme.Move (env : Environment) : Theme → Journal → Theme → Journal → Prop
  | resolve (t : Theme) (j : Journal) :
    Theme.Move env t j (t.resolve env j).state (t.resolve env j).journal
  | load {t : Theme} {j : Journal} {name : String} {ticket : Nat} {loader : Loader}
    {model : Option Overlay.Model}
    (hslot : t.grammars.get? name = some ⟨ticket, .deferred loader⟩)
    (hres : t.resolution = .settled model) :
    Theme.Move env t j
      (t.loadDeferred env j name ticket loader (model.bind (·.colorSet? name))).state
      (t.loadDeferred env j name ticket loader (model.bind (·.colorSet? name))).journal
  | note (t : Theme) (j : Journal) (notices : List Notice)
    (hstyles : ∀ n ∈ notices, n.isStyle = true) :
    Theme.Move env t j t (j ++ notices.map .noted)

/-- Any number of moves, each a `Move`. -/
inductive Theme.Moves (env : Environment) : Theme → Journal → Theme → Journal → Prop
  | refl (t : Theme) (j : Journal) : Theme.Moves env t j t j
  | head {t₁ t₂ t₃ : Theme} {j₁ j₂ j₃ : Journal} :
    Theme.Move env t₁ j₁ t₂ j₂ → Theme.Moves env t₂ j₂ t₃ j₃ → Theme.Moves env t₁ j₁ t₃ j₃

namespace Theme

variable {env : Environment} {t t₁ t₂ t₃ : Theme} {j j₁ j₂ j₃ : Journal}

theorem Move.moves (h : Move env t₁ j₁ t₂ j₂) : Moves env t₁ j₁ t₂ j₂ := .head h (.refl _ _)

theorem Moves.trans (h₁ : Moves env t₁ j₁ t₂ j₂) (h₂ : Moves env t₂ j₂ t₃ j₃) :
    Moves env t₁ j₁ t₃ j₃ := by
  induction h₁ with
  | refl => exact h₂
  | head hm _ ih => exact .head hm (ih h₂)

/-- A property that every `Move` keeps is kept by any number of them. -/
theorem Moves.keep {P : Theme → Journal → Prop}
    (hP : ∀ {t j t' j'}, Move env t j t' j' → P t j → P t' j') (h : Moves env t₁ j₁ t₂ j₂)
    (h₁ : P t₁ j₁) : P t₂ j₂ := by
  induction h with
  | refl => exact h₁
  | head hm _ ih => exact ih (hP hm h₁)

/-- The three ways in which `resolve` brings a theme to its model: it has tried, it has no overlay,
or it loads its overlay now. -/
theorem resolve_cases (env : Environment) (j : Journal) (t : Theme) :
    (∃ m, t.resolution = .settled m ∧ t.resolve env j = ⟨t, j, .ok m⟩) ∨
      (t.resolution = .pending ∧ t.overlay = none ∧
        t.resolve env j = ⟨{ t with resolution := .settled none }, j, .ok none⟩) ∨
      ∃ r, t.resolution = .pending ∧ t.overlay = some r ∧
        ((∃ m, (loadOverlay env j t.key r).2 = .ok m ∧
          t.resolve env j = ⟨{ t with resolution := .settled (some m) },
            (loadOverlay env j t.key r).1 ++ [.noted (.overlayReady t.key m.colorSets.size)],
            .ok (some m)⟩) ∨
        ∃ e, (loadOverlay env j t.key r).2 = .error e ∧
          t.resolve env j = ⟨{ t with resolution := .settled none },
            (loadOverlay env j t.key r).1 ++ [.noted (.overlayFailed t.key e)],
            .error (.inTheme t.key e)⟩) := by
  unfold resolve
  cases hr : t.resolution with
  | settled m => exact .inl ⟨m, rfl, rfl⟩
  | pending =>
    cases ho : t.overlay with
    | none => exact .inr (.inl ⟨rfl, rfl, rfl⟩)
    | some r =>
      refine .inr (.inr ⟨r, rfl, rfl, ?_⟩)
      rcases hl : loadOverlay env j t.key r with ⟨j', e | m⟩
      · exact .inr ⟨e, rfl, by simp only [hl]⟩
      · exact .inl ⟨m, rfl, by simp only [hl]⟩

/-- A theme that has come to its model is settled on it. -/
theorem resolve_settled {m : Option Overlay.Model} (h : (t.resolve env j).result = .ok m) :
    (t.resolve env j).state.resolution = .settled m := by
  rcases resolve_cases env j t with ⟨m', hr, he⟩ | ⟨-, -, he⟩ | ⟨r, -, -, ⟨m', -, he⟩ | ⟨e, -, he⟩⟩
  all_goals
    rw [he] at h ⊢
    simp_all

/-- `resolve` does not touch the grammars. -/
theorem resolve_grammars (env : Environment) (j : Journal) (t : Theme) :
    (t.resolve env j).state.grammars = t.grammars := by
  rcases resolve_cases env j t with ⟨m', -, he⟩ | ⟨-, -, he⟩ | ⟨r, -, -, ⟨m', -, he⟩ | ⟨e, -, he⟩⟩
  all_goals rw [he]

/-! ## Look-ups as moves -/

theorem definition_moves (env : Environment) (j : Journal) (t : Theme) (name : String) :
    Moves env t j (t.definition env j name).state (t.definition env j name).journal := by
  unfold definition
  rcases hg : t.grammars.get? name with _ | ⟨ticket, slot⟩
  · exact .refl t j
  cases slot with
  | loaded g => exact .refl t j
  | failed e => exact .refl t j
  | deferred loader =>
    have hm : Move env t j (t.resolve env j).state (t.resolve env j).journal := .resolve t j
    have hs := @resolve_settled _ env t j
    have hgr := resolve_grammars env j t
    simp only [Outcome.andThen]
    -- without a model nothing is loaded
    rcases ho : t.resolve env j with ⟨t', j', e | m⟩
    · rw [ho] at hm; exact hm.moves
    · rw [ho] at hm hs hgr
      exact .head hm (Move.load (hgr ▸ hg) (hs rfl)).moves

theorem definitionFor_moves (env : Environment) (j : Journal) (t : Theme) (extension : String) :
    Moves env t j (t.definitionFor env j extension).state
      (t.definitionFor env j extension).journal := by
  unfold definitionFor
  cases t.grammars.owner? extension with
  | none => exact .refl t j
  | some name => exact definition_moves env j t name

theorem definitionsOf_moves (env : Environment) (names : List String) (j : Journal) (t : Theme) :
    Moves env t j (definitionsOf env names j t).state (definitionsOf env names j t).journal := by
  induction names generalizing j t with
  | nil => exact .refl t j
  | cons name names ih =>
    have hd := definition_moves env j t name
    simp only [definitionsOf, Outcome.andThen]
    -- the first failure ends the walk
    rcases ho : t.definition env j name with ⟨t', j', e | handle⟩
    · rw [ho] at hd; exact hd
    · rw [ho] at hd; exact hd.trans (ih j' t')

/-! ## What moves leave alone -/

/-- The part of the theme `t` that the catalog declares. -/
def entry (t : Theme) : String × String × String × Option ResourceName :=
  (t.key, t.displayName, t.basePrefix, t.overlay)

theorem Move.entry_eq (h : Move env t₁ j₁ t₂ j₂) : t₂.entry = t₁.entry := by
  cases h with
  | resolve =>
    rcases resolve_cases env j₁ t₁ with ⟨_, -, he⟩ | ⟨-, -, he⟩ | ⟨_, -, -, ⟨_, -, he⟩ | ⟨_, -, he⟩⟩
    all_goals simp only [he, entry]
  | @load name ticket loader model =>
    rcases loadDeferred_cases env j₁ t₁ name ticket loader (model.bind (·.colorSet? name)) with
      ⟨_, -, he⟩ | ⟨_, -, he⟩
    all_goals simp only [he, entry]
  | note => rfl

/-- `Moves` of a theme leave alone what it is declared with. -/
theorem Moves.entry_eq (h : Moves env t₁ j₁ t₂ j₂) : t₂.entry = t₁.entry :=
  h.keep (P := fun t _ => t.entry = t₁.entry) (fun hm ht => hm.entry_eq.trans ht) rfl

theorem Move.contains (h : Move env t₁ j₁ t₂ j₂) {n : String} (hn : t₁.contains n = true) :
    t₂.contains n = true := by
  cases h with
  | resolve => rw [Theme.contains, resolve_grammars]; exact hn
  | @load name ticket loader model =>
    rcases loadDeferred_cases env j₁ t₁ name ticket loader (model.bind (·.colorSet? name)) with
      ⟨_, -, he⟩ | ⟨_, -, he⟩
    all_goals rw [he]; exact GrammarTable.contains_settle _ _ hn
  | note => exact hn

/-- `Moves` of a theme take no name away. -/
theorem Moves.contains (h : Moves env t₁ j₁ t₂ j₂) {n : String} (hn : t₁.contains n = true) :
    t₂.contains n = true :=
  h.keep (P := fun t _ => t.contains n = true) (fun hm ht => hm.contains ht) hn

end Theme

/-! ## Calls on a registry -/

namespace Registry

/-- The name that a `Call` registers a grammar under. -/
def Call.registers? : Call → Option String
  | .register name _ _ => some name
  | .registerDeferred name _ _ => some name
  | _ => none

/-- The key that a `Call` wants to make current. -/
def Call.selects? : Call → Option String
  | .select key => some key
  | _ => none

variable {env : Environment}

/-- A `Call` looks something up, registers something or makes a theme current. -/
inductive Step (env : Environment) (r : Registry) (j : Journal) :
    Call → Registry → Journal → Prop
  | look {call : Call} {t : Theme} {j' : Journal} (hreg : call.registers? = none)
    (hsel : call.selects? = none) (hm : Theme.Moves env r.theme j t j') :
    Step env r j call (r.withTheme t) j'
  | register {call : Call} {name : String} (extensions : List String) (slot : GrammarSlot)
    (hreg : call.registers? = some name) (hsel : call.selects? = none) :
    Step env r j call
      (r.withTheme { r.theme with grammars := r.theme.grammars.register name extensions slot }) j
  | select {key : String} {i : { i : Nat // i < r.themes.length }}
    (hi : indexOf? r.themes key = some i) :
    Step env r j (.select key) (addBuiltins { r with current := i.1, current_lt := i.2 })
      (j ++ [.noted (.themeChanged key)])
  | unknown {key : String} (hi : indexOf? r.themes key = none) : Step env r j (.select key) r j

/-- A `call` that neither registers nor selects, and leaves the registry as it is. -/
theorem Step.idle {r : Registry} {j : Journal} {call : Call} (hreg : call.registers? = none)
    (hsel : call.selects? = none) : Step env r j call r j := by
  simpa using @Step.look _ env r j call _ j hreg hsel (.refl r.theme j)

/-- **Every call** is one of these steps. -/
theorem step_cases (env : Environment) (r : Registry) (j : Journal) (call : Call) :
    Step env r j call (step env r j call).1 (step env r j call).2.1 := by
  cases call with
  | currentKey => exact .idle rfl rfl
  | keys => exact .idle rfl rfl
  | displayName key => exact .idle rfl rfl
  | select key =>
    simp only [step, select, replying]
    cases hi : indexOf? r.themes key with
    | none => exact .unknown hi
    | some i => exact .select hi
  | definition name => exact .look rfl rfl (Theme.definition_moves env j r.theme name)
  | definitionFor e => exact .look rfl rfl (Theme.definitionFor_moves env j r.theme e)
  | definitions => exact .look rfl rfl (Theme.definitionsOf_moves env _ j r.theme)
  | register name extensions grammar => exact .register extensions (.loaded grammar) rfl rfl
  | registerDeferred name extensions loader => exact .register extensions (.deferred loader) rfl rfl
  | colorSet grammar => exact .look rfl rfl (Theme.Move.resolve r.theme j).moves
  | model => exact .look rfl rfl (Theme.Move.resolve r.theme j).moves
  | applyStyles =>
    have hm := @Theme.Move.resolve _ env r.theme j
    simp only [step, applyStyles, model, onTheme, Outcome.within]
    -- styles are applied, and that is noted, only if there is a model
    rcases ho : r.theme.resolve env j with ⟨t, j', e | _ | m⟩
    · rw [ho] at hm; exact .look rfl rfl hm.moves
    · rw [ho] at hm; exact .look rfl rfl hm.moves
    · rw [ho] at hm
      refine .look rfl rfl (.head hm ?_)
      exact (Theme.Move.note t j' _ (Overlay.applyStyles_notices _ m _)).moves

end Registry

end Livery
