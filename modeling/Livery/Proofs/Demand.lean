import Livery.Proofs.Moves

/-!
# What calls demand

A call demands the overlay of the current theme if it asks for the model or comes upon a deferred
grammar. Such a call comes to the model first: if that fails, so does the call, and it does nothing
else. Every other look-up leaves the registry and the journal alone.

* `Registry.step_demanding`, `Registry.step_idle`: the two kinds of look-ups.
* `Registry.step_slot`: a call that registers something.
-/

namespace Livery

/-- A walk over names comes upon a deferred grammar of `g`, before any that failed. -/
def GrammarTable.meetsDeferred (g : GrammarTable) : List String → Bool
  | [] => false
  | name :: names =>
    match g.get? name with
    | some ⟨_, .deferred _⟩ => true
    | some ⟨_, .failed _⟩ => false
    | _ => g.meetsDeferred names

/-- A `Call` needs the overlay of the theme `t`. -/
def Registry.Call.demands (t : Theme) : Registry.Call → Bool
  | .definition name => t.grammars.meetsDeferred [name]
  | .definitionFor extension => t.grammars.meetsDeferred (t.grammars.owner? extension).toList
  | .definitions => t.grammars.meetsDeferred t.grammars.order
  | .colorSet _ => true
  | .model => true
  | .applyStyles => true
  | _ => false

/-- What a `Call` registers, with its name. -/
def Registry.Call.slot? : Registry.Call → Option (String × GrammarSlot)
  | .register name _ grammar => some (name, .loaded grammar)
  | .registerDeferred name _ loader => some (name, .deferred loader)
  | _ => none

/-- A `Call` looks grammars up. -/
def Registry.Call.isLookup : Registry.Call → Bool
  | .definition _ => true
  | .definitionFor _ => true
  | .definitions => true
  | _ => false

namespace Theme

variable {env : Environment} {t : Theme} {j : Journal} {α β : Type}

/-! ## Walks that meet nothing deferred -/

variable [Markup.Decoders]

theorem definition_idle {name : String} (h : t.grammars.meetsDeferred [name] = false)
    (env : Environment) (j : Journal) :
    (t.definition env j name).state = t ∧ (t.definition env j name).journal = j := by
  unfold definition
  rcases hg : t.grammars.get? name with _ | ⟨ticket, slot⟩
  · exact ⟨rfl, rfl⟩
  · cases slot with
    | loaded g => exact ⟨rfl, rfl⟩
    | failed e => exact ⟨rfl, rfl⟩
    | deferred loader => simp [GrammarTable.meetsDeferred, hg] at h

theorem definitionsOf_idle {names : List String} (h : t.grammars.meetsDeferred names = false)
    (env : Environment) (j : Journal) :
    (definitionsOf env names j t).state = t ∧ (definitionsOf env names j t).journal = j := by
  induction names with
  | nil => exact ⟨rfl, rfl⟩
  | cons name names ih =>
    rcases hg : t.grammars.get? name with _ | ⟨ticket, slot⟩
    · simp only [GrammarTable.meetsDeferred, hg] at h
      simpa [definitionsOf, definition, hg, Outcome.andThen, Outcome.map] using ih h
    · cases slot with
      | loaded g =>
        simp only [GrammarTable.meetsDeferred, hg] at h
        simpa [definitionsOf, definition, hg, Outcome.andThen, Outcome.map] using ih h
      | failed e => simp [definitionsOf, definition, hg, Outcome.andThen]
      | deferred loader => simp [GrammarTable.meetsDeferred, hg] at h

/-! ## Walks that meet something deferred -/

/-- The outcome `o` of a call that begins by coming to the model of `t`: it fails as that does, or
goes on from there. -/
structure Led (env : Environment) (t : Theme) (j : Journal) (o : Outcome Theme α) : Prop where
  fails : ∀ e, (t.resolve env j).result = .error e →
    o = ⟨(t.resolve env j).state, (t.resolve env j).journal, .error e⟩
  proceeds : ∀ m, (t.resolve env j).result = .ok m →
    Moves env (t.resolve env j).state (t.resolve env j).journal o.state o.journal

theorem Led.map {o : Outcome Theme α} (h : Led env t j o) (f : α → β) :
    Led env t j (o.map f) := by
  refine ⟨fun e he => ?_, h.proceeds⟩
  rw [h.fails e he]
  rfl

theorem Led.andThen {o : Outcome Theme α} (h : Led env t j o)
    {next : Theme → Journal → α → Outcome Theme β}
    (hnext : ∀ t' j' a, Moves env t' j' (next t' j' a).state (next t' j' a).journal) :
    Led env t j (o.andThen next) := by
  refine ⟨fun e he => ?_, fun m hm => ?_⟩
  · rw [h.fails e he]
    rfl
  · have hmoves := h.proceeds m hm
    rcases o with ⟨t', j', e | a⟩
    · exact hmoves
    · exact hmoves.trans (hnext t' j' a)

theorem led_resolve (env : Environment) (t : Theme) (j : Journal) :
    Led env t j (t.resolve env j) := by
  refine ⟨fun e he => ?_, fun m hm => .refl _ _⟩
  rw [← he]

theorem led_definition {name : String} (h : t.grammars.meetsDeferred [name] = true)
    (env : Environment) (j : Journal) : Led env t j (t.definition env j name) := by
  rcases hg : t.grammars.get? name with _ | ⟨ticket, slot⟩
  · simp [GrammarTable.meetsDeferred, hg] at h
  · cases slot with
    | loaded g => simp [GrammarTable.meetsDeferred, hg] at h
    | failed e => simp [GrammarTable.meetsDeferred, hg] at h
    | deferred loader =>
      have hsettled := @resolve_settled _ env t j
      have hgrammars := resolve_grammars env j t
      unfold definition
      rw [hg]
      refine ⟨fun e he => ?_, fun m hm => ?_⟩
      · rcases ho : t.resolve env j with ⟨t', j', err | m⟩
        · rw [ho] at he
          obtain rfl := Except.error.inj he
          rfl
        · rw [ho] at he
          cases he
      · rcases ho : t.resolve env j with ⟨t', j', err | m'⟩
        · rw [ho] at hm
          cases hm
        · rw [ho] at hsettled hgrammars
          have hslot : t'.grammars.get? name = some ⟨ticket, .deferred loader⟩ := by
            rw [hgrammars]
            exact hg
          exact (Move.load hslot (hsettled rfl)).moves

theorem led_definitionsOf {names : List String} (h : t.grammars.meetsDeferred names = true)
    (env : Environment) (j : Journal) : Led env t j (definitionsOf env names j t) := by
  induction names with
  | nil => cases h
  | cons name names ih =>
    rcases hg : t.grammars.get? name with _ | ⟨ticket, slot⟩
    · simp only [GrammarTable.meetsDeferred, hg] at h
      simpa [definitionsOf, definition, hg, Outcome.andThen] using (ih h).map _
    · cases slot with
      | loaded g =>
        simp only [GrammarTable.meetsDeferred, hg] at h
        simpa [definitionsOf, definition, hg, Outcome.andThen] using (ih h).map _
      | failed e => simp [GrammarTable.meetsDeferred, hg] at h
      | deferred loader =>
        have hname : t.grammars.meetsDeferred [name] = true := by
          simp [GrammarTable.meetsDeferred, hg]
        exact (led_definition hname env j).andThen fun t' j' handle =>
          definitionsOf_moves env names j' t'

end Theme

namespace Registry

variable {env : Environment} {r : Registry} {j : Journal} {call : Call}

/-! ## Calls on a registry -/

theorem registers?_of_slot? (h : call.slot? = none) : call.registers? = none := by
  cases call with
  | register => cases h
  | registerDeferred => cases h
  | _ => rfl

variable [Markup.Decoders]

/-- A `call` that registers something does that, and that is all. -/
theorem step_slot {name : String} {slot : GrammarSlot} (h : call.slot? = some (name, slot))
    (env : Environment) (r : Registry) (j : Journal) :
    call.selects? = none ∧ call.demands r.theme = false ∧ ∃ extensions, step env r j call =
      (r.withTheme { r.theme with grammars := r.theme.grammars.register name extensions slot }, j,
        ⟨.ok .done, []⟩) := by
  cases call with
  | register n extensions grammar =>
    obtain ⟨rfl, rfl⟩ := Prod.mk.inj (Option.some.inj h)
    exact ⟨rfl, rfl, extensions, rfl⟩
  | registerDeferred n extensions loader =>
    obtain ⟨rfl, rfl⟩ := Prod.mk.inj (Option.some.inj h)
    exact ⟨rfl, rfl, extensions, rfl⟩
  | _ => cases h

/-- **A call that does not demand the overlay**, and neither registers nor selects, does nothing. -/
theorem step_idle (h : call.demands r.theme = false) (hreg : call.registers? = none)
    (hsel : call.selects? = none) (env : Environment) (j : Journal) :
    (step env r j call).1 = r ∧ (step env r j call).2.1 = j := by
  cases call with
  | currentKey => exact ⟨rfl, rfl⟩
  | keys => exact ⟨rfl, rfl⟩
  | displayName key => exact ⟨rfl, rfl⟩
  | select key => cases hsel
  | definition name =>
    obtain ⟨ht, hj⟩ := Theme.definition_idle h env j
    exact ⟨by simp [step, replying, definition, onTheme, Outcome.within, ht], hj⟩
  | definitionFor extension =>
    simp only [step, replying, definitionFor, Theme.definitionFor, onTheme, Outcome.within]
    simp only [Call.demands] at h
    cases ho : r.theme.grammars.owner? extension with
    | none => simp
    | some name =>
      rw [ho] at h
      obtain ⟨ht, hj⟩ := Theme.definition_idle h env j
      simp only [ht, hj, withTheme_theme, and_self]
  | definitions =>
    obtain ⟨ht, hj⟩ := Theme.definitionsOf_idle h env j
    refine ⟨?_, hj⟩
    simp [step, replying, definitions, Theme.definitions, onTheme, Outcome.within, ht]
  | register name extensions grammar => cases hreg
  | registerDeferred name extensions loader => cases hreg
  | colorSet grammar => cases h
  | model => cases h
  | applyStyles => cases h

/-- What a call that begins by coming to the model does to the registry. -/
theorem step_led {α : Type} {o : Outcome Theme α} (h : Theme.Led env r.theme j o) (f : α → Reply) :
    (∀ e, (r.theme.resolve env j).result = .error e →
      replying f (r.onTheme o) = (r.withTheme (r.theme.resolve env j).state,
        (r.theme.resolve env j).journal, ⟨.error e, []⟩)) ∧
    ∀ m, (r.theme.resolve env j).result = .ok m →
      ∃ t, (replying f (r.onTheme o)).1 = r.withTheme t ∧
        Theme.Moves env (r.theme.resolve env j).state (r.theme.resolve env j).journal t
          (replying f (r.onTheme o)).2.1 := by
  refine ⟨fun e he => ?_, fun m hm => ⟨o.state, rfl, h.proceeds m hm⟩⟩
  rw [h.fails e he]
  rfl

/-- **A call that `demands` the overlay comes to the model first.** If that fails, the call does
nothing else. -/
theorem step_demanding (h : call.demands r.theme = true) (env : Environment) (j : Journal) :
    (∀ e, (r.theme.resolve env j).result = .error e →
      step env r j call = (r.withTheme (r.theme.resolve env j).state,
        (r.theme.resolve env j).journal, ⟨.error e, []⟩)) ∧
    ∀ m, (r.theme.resolve env j).result = .ok m →
      ∃ t, (step env r j call).1 = r.withTheme t ∧
        Theme.Moves env (r.theme.resolve env j).state (r.theme.resolve env j).journal t
          (step env r j call).2.1 := by
  cases call with
  | currentKey => cases h
  | keys => cases h
  | displayName key => cases h
  | select key => cases h
  | definition name => exact step_led (Theme.led_definition h env j) _
  | definitionFor extension =>
    have hled : Theme.Led env r.theme j (r.theme.definitionFor env j extension) := by
      unfold Theme.definitionFor
      simp only [Call.demands] at h
      cases ho : r.theme.grammars.owner? extension with
      | none =>
        rw [ho] at h
        cases h
      | some name =>
        rw [ho] at h
        exact Theme.led_definition h env j
    exact step_led hled _
  | definitions => exact step_led (Theme.led_definitionsOf h env j) _
  | register name extensions grammar => cases h
  | registerDeferred name extensions loader => cases h
  | colorSet grammar => exact step_led ((Theme.led_resolve env r.theme j).map _) _
  | model => exact step_led (Theme.led_resolve env r.theme j) _
  | applyStyles =>
    simp only [step, applyStyles, model, onTheme, Outcome.within]
    rcases ho : r.theme.resolve env j with ⟨t, j', e | _ | m⟩
    · refine ⟨fun err he => ?_, fun m hm => ?_⟩
      · obtain rfl := Except.error.inj he
        rfl
      · cases hm
    · refine ⟨fun err he => ?_, fun m hm => ⟨t, rfl, .refl _ _⟩⟩
      cases he
    · refine ⟨fun err he => ?_, fun m' hm => ⟨t, rfl, ?_⟩⟩
      · cases he
      · exact (Theme.Move.note t j' _ (Overlay.applyStyles_notices _ m _)).moves

end Registry

end Livery
