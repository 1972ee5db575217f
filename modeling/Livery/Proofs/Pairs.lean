import Livery.Proofs.Frame
import Livery.Proofs.Twins

/-!
# Pairs of registries

Two registries over a fixed store are run side by side. Theme by theme they are twins, but for one
theme: while it is untried, its overlay is broken in the first registry, and in the second it has
none.

* `Registry.Paired.lookTwin`: twins answer every look-up alike.
* `Registry.Paired.step`: what one call does to a pair of registries.
-/

namespace Livery

namespace Theme

variable {fetch : ResourceName → Except ThemeError Bytes}
  {load : String → Bytes → Option ColorSet → Grammar.Loading} {t₁ t₂ : Theme} {untried : Prop}
  {cause : ThemeError}

/-! ## Pairs of themes -/

variable [Markup.Decoders] [Wording Definition.Fault]

/-- The theme `t₁` of the first registry and `t₂` in its place in the second. -/
structure Pair (fetch : ResourceName → Except ThemeError Bytes)
    (load : String → Bytes → Option ColorSet → Grammar.Loading) (cause : ThemeError)
    (untried : Prop) (t₁ t₂ : Theme) : Prop where
  broken : untried → Broken fetch cause t₁ t₂
  twin : ¬ untried → Twin fetch load t₁ t₂

theorem Pair.names (h : Pair fetch load cause untried t₁ t₂) :
    t₁.key = t₂.key ∧ t₁.displayName = t₂.displayName := by
  by_cases hb : untried
  · rw [(h.broken hb).other]
    exact ⟨rfl, rfl⟩
  · exact ⟨(h.twin hb).key, (h.twin hb).displayName⟩

theorem Pair.register (h : Pair fetch load cause untried t₁ t₂) (name : String)
    (extensions : List String) {slot : GrammarSlot}
    (hslot : ∀ loader, slot = .deferred loader → loader.Fixed) :
    Pair fetch load cause untried
      { t₁ with grammars := t₁.grammars.register name extensions slot }
      { t₂ with grammars := t₂.grammars.register name extensions slot } :=
  ⟨fun hb => (h.broken hb).register name extensions hslot,
    fun hb => (h.twin hb).register name extensions hslot⟩

theorem Pair.addBuiltins (h : Pair fetch load cause untried t₁ t₂) (bs : List BuiltinGrammar) :
    Pair fetch load cause untried (bs.foldl Registry.addBuiltin t₁)
      (bs.foldl Registry.addBuiltin t₂) :=
  ⟨fun hb => (h.broken hb).addBuiltins bs, fun hb => (h.twin hb).addBuiltins bs⟩

end Theme

namespace Registry

/-- A `Call` that registers nothing but what looks at the colours alone. -/
def Call.Fixed : Call → Prop
  | .registerDeferred _ _ loader => loader.Fixed
  | _ => True

variable {fetch : ResourceName → Except ThemeError Bytes}
  {load : String → Bytes → Option ColorSet → Grammar.Loading} {cause : ThemeError} {k : Nat}
  {tried : Prop} {r₁ r₂ : Registry} {call : Call}

theorem Call.Fixed.slot (h : call.Fixed) {name : String} {slot : GrammarSlot}
    (hslot : call.slot? = some (name, slot)) :
    ∀ loader, slot = .deferred loader → loader.Fixed := by
  rintro loader rfl
  cases call with
  | registerDeferred n extensions loader' =>
    obtain ⟨-, hloader⟩ := Prod.mk.inj (Option.some.inj hslot)
    obtain rfl := GrammarSlot.deferred.inj hloader
    exact h
  | register => simp [Call.slot?] at hslot
  | _ => cases hslot

/-! ## Pairs of registries -/

/-- The same theme is found in both, if any. -/
theorem indexOf?_val (themes : List Theme) (key : String) :
    (indexOf? themes key).map (·.1) = (themes.map (·.key)).findIdx? (· == key) := by
  have hfind : (themes.map (·.key)).findIdx? (· == key) = themes.findIdx? (·.key == key) := by
    rw [List.findIdx?_map]
    rfl
  rw [hfind]
  unfold indexOf?
  split
  · next h => exact h.symm
  · next i h => exact h.symm

theorem displayName?_eq (r : Registry) (key : String) :
    r.displayName? key =
      ((r.themes.map fun t => (t.key, t.displayName)).find? (·.1 == key)).map (·.2) := by
  unfold displayName?
  rw [List.find?_map, Option.map_map]
  rfl

/-- Calls on twins that agree leave twins behind and give the same result. -/
theorem agree_onTheme {α : Type} {o₁ o₂ : Outcome Theme α} (h : Theme.Agree fetch load o₁ o₂)
    (f : α → Reply) :
    ∃ t₁ t₂, (replying f (r₁.onTheme o₁)).1 = r₁.withTheme t₁ ∧
      (replying f (r₂.onTheme o₂)).1 = r₂.withTheme t₂ ∧ Theme.Twin fetch load t₁ t₂ ∧
      (replying f (r₁.onTheme o₁)).2.2 = (replying f (r₂.onTheme o₂)).2.2 := by
  refine ⟨o₁.state, o₂.state, rfl, rfl, h.twin, ?_⟩
  simp only [replying, onTheme, Outcome.within, h.result]

/-- What a call `demands` is a matter of the grammars. -/
theorem demands_congr {t₁ t₂ : Theme} (h : t₁.grammars = t₂.grammars) (call : Call) :
    call.demands t₁ = call.demands t₂ := by
  cases call <;> simp only [Call.demands, h]

variable [Markup.Decoders] [Wording Definition.Fault]

/-- Two registries whose themes are pairs. The `k`-th theme of the first one has a broken overlay,
which is still to be tried or was. -/
structure Paired (fetch : ResourceName → Except ThemeError Bytes)
    (load : String → Bytes → Option ColorSet → Grammar.Loading) (cause : ThemeError) (k : Nat)
    (tried : Prop) (r₁ r₂ : Registry) : Prop where
  builtins : r₁.builtins = r₂.builtins
  current : r₁.current = r₂.current
  length : r₁.themes.length = r₂.themes.length
  pairs : ∀ (i : Nat) t₁ t₂, r₁.themes[i]? = some t₁ → r₂.themes[i]? = some t₂ →
    Theme.Pair fetch load cause (i = k ∧ ¬ tried) t₁ t₂

theorem Paired.theme (h : Paired fetch load cause k tried r₁ r₂) :
    Theme.Pair fetch load cause (r₁.current = k ∧ ¬ tried) r₁.theme r₂.theme := by
  refine h.pairs r₁.current r₁.theme r₂.theme (getElem?_current r₁) ?_
  rw [h.current]
  exact getElem?_current r₂

theorem Paired.names (h : Paired fetch load cause k tried r₁ r₂) :
    r₁.themes.map (fun t => (t.key, t.displayName)) =
      r₂.themes.map fun t => (t.key, t.displayName) := by
  refine List.ext_getElem (by simp [h.length]) fun i h₁ h₂ => ?_
  rw [List.length_map] at h₁ h₂
  obtain ⟨hkey, hname⟩ := (h.pairs i _ _ (List.getElem?_eq_getElem h₁)
    (List.getElem?_eq_getElem h₂)).names
  rw [List.getElem_map, List.getElem_map, hkey, hname]

/-- The current themes may change together, and the broken overlay may be tried if it is that of the
current one. -/
theorem Paired.withTheme {tried' : Prop} (h : Paired fetch load cause k tried r₁ r₂)
    (hother : r₁.current ≠ k → (tried' ↔ tried)) {t₁ t₂ : Theme}
    (hpair : Theme.Pair fetch load cause (r₁.current = k ∧ ¬ tried') t₁ t₂) :
    Paired fetch load cause k tried' (r₁.withTheme t₁) (r₂.withTheme t₂) := by
  refine ⟨h.builtins, h.current, ?_, fun i s₁ s₂ h₁ h₂ => ?_⟩
  · simp [Registry.withTheme, h.length]
  · rw [getElem?_withTheme] at h₁ h₂
    rw [← h.current] at h₂
    by_cases hi : i = r₁.current
    · rw [if_pos hi] at h₁ h₂
      obtain rfl := Option.some.inj h₁
      obtain rfl := Option.some.inj h₂
      rw [hi]
      exact hpair
    · rw [if_neg hi] at h₁ h₂
      have hold := h.pairs i s₁ s₂ h₁ h₂
      -- the overlay of another theme is not tried here
      have hsame : (i = k ∧ ¬ tried') ↔ (i = k ∧ ¬ tried) := by
        refine and_congr_right fun hik => ?_
        rw [hother fun hk => hi (hik.trans hk.symm)]
      rw [hsame]
      exact hold

theorem Paired.keys (h : Paired fetch load cause k tried r₁ r₂) :
    r₁.themes.map (·.key) = r₂.themes.map (·.key) := by
  have hfst := congrArg (List.map Prod.fst) h.names
  rwa [List.map_map, List.map_map] at hfst

theorem Paired.select (h : Paired fetch load cause k tried r₁ r₂) (env : Environment) (key : String)
    (j₁ j₂ : Journal) :
    Paired fetch load cause k tried (step env r₁ j₁ (.select key)).1
        (step env r₂ j₂ (.select key)).1 ∧
      (step env r₁ j₁ (.select key)).2.2 = (step env r₂ j₂ (.select key)).2.2 := by
  have hindex : (indexOf? r₁.themes key).map (·.1) = (indexOf? r₂.themes key).map (·.1) := by
    rw [indexOf?_val, indexOf?_val, h.keys]
  simp only [step, Registry.select, replying]
  rcases h₁ : indexOf? r₁.themes key with _ | i₁
  · rcases h₂ : indexOf? r₂.themes key with _ | i₂
    · exact ⟨h, rfl⟩
    · rw [h₁, h₂] at hindex
      cases hindex
  · rcases h₂ : indexOf? r₂.themes key with _ | i₂
    · rw [h₁, h₂] at hindex
      cases hindex
    · rw [h₁, h₂] at hindex
      have hi : i₁.1 = i₂.1 := Option.some.inj hindex
      have hmoved : Paired fetch load cause k tried
          { r₁ with current := i₁.1, current_lt := i₁.2 }
          { r₂ with current := i₂.1, current_lt := i₂.2 } := ⟨h.builtins, hi, h.length, h.pairs⟩
      refine ⟨hmoved.withTheme (fun _ => Iff.rfl) ?_, rfl⟩
      rw [h.builtins]
      exact hmoved.theme.addBuiltins r₂.builtins

theorem Paired.register (h : Paired fetch load cause k tried r₁ r₂) (env : Environment)
    (hfixed : call.Fixed) {name : String} {slot : GrammarSlot}
    (hslot : call.slot? = some (name, slot)) (j₁ j₂ : Journal) :
    Paired fetch load cause k tried (step env r₁ j₁ call).1 (step env r₂ j₂ call).1 ∧
      (step env r₁ j₁ call).2.2 = (step env r₂ j₂ call).2.2 := by
  cases call with
  | register n extensions grammar =>
    have hreg := hfixed.slot hslot
    obtain ⟨rfl, rfl⟩ := Prod.mk.inj (Option.some.inj hslot)
    exact ⟨h.withTheme (fun _ => Iff.rfl) (h.theme.register n extensions hreg), rfl⟩
  | registerDeferred n extensions loader =>
    have hreg := hfixed.slot hslot
    obtain ⟨rfl, rfl⟩ := Prod.mk.inj (Option.some.inj hslot)
    exact ⟨h.withTheme (fun _ => Iff.rfl) (h.theme.register n extensions hreg), rfl⟩
  | _ => cases hslot

/-- **Twins that are current answer every look-up alike.** -/
theorem Paired.lookTwin (h : Paired fetch load cause k tried r₁ r₂)
    (htwin : Theme.Twin fetch load r₁.theme r₂.theme) (hslot : call.slot? = none)
    (hsel : call.selects? = none) (j₁ j₂ : Journal) :
    ∃ t₁ t₂, (step (.fixed fetch load) r₁ j₁ call).1 = r₁.withTheme t₁ ∧
      (step (.fixed fetch load) r₂ j₂ call).1 = r₂.withTheme t₂ ∧ Theme.Twin fetch load t₁ t₂ ∧
      (step (.fixed fetch load) r₁ j₁ call).2.2 = (step (.fixed fetch load) r₂ j₂ call).2.2 := by
  have hidle : ∀ call, (step (.fixed fetch load) r₁ j₁ call).1 = r₁ →
      (step (.fixed fetch load) r₂ j₂ call).1 = r₂ →
      (step (.fixed fetch load) r₁ j₁ call).2.2 = (step (.fixed fetch load) r₂ j₂ call).2.2 →
      ∃ t₁ t₂, (step (.fixed fetch load) r₁ j₁ call).1 = r₁.withTheme t₁ ∧
        (step (.fixed fetch load) r₂ j₂ call).1 = r₂.withTheme t₂ ∧ Theme.Twin fetch load t₁ t₂ ∧
        (step (.fixed fetch load) r₁ j₁ call).2.2 = (step (.fixed fetch load) r₂ j₂ call).2.2 := by
    intro call h₁ h₂ hresult
    refine ⟨r₁.theme, r₂.theme, ?_, ?_, htwin, hresult⟩
    · rw [h₁, withTheme_theme]
    · rw [h₂, withTheme_theme]
  cases call with
  | currentKey => exact hidle _ rfl rfl (by simp only [step, currentKey, htwin.key])
  | keys => exact hidle _ rfl rfl (by simp only [step, Registry.keys, h.keys])
  | displayName key =>
    exact hidle _ rfl rfl (by simp only [step, displayName?_eq, h.names])
  | definition name => exact agree_onTheme (htwin.definition j₁ j₂ name) _
  | definitionFor extension => exact agree_onTheme (htwin.definitionFor j₁ j₂ extension) _
  | definitions => exact agree_onTheme (htwin.definitions j₁ j₂) _
  | colorSet grammar => exact agree_onTheme ((htwin.resolve j₁ j₂).map _) _
  | model => exact agree_onTheme (htwin.resolve j₁ j₂) _
  | applyStyles =>
    have hresolve := htwin.resolve j₁ j₂
    simp only [step, applyStyles, model, onTheme, Outcome.within]
    rcases h₁ : r₁.theme.resolve (.fixed fetch load) j₁ with ⟨t₁, k₁, res₁⟩
    rcases h₂ : r₂.theme.resolve (.fixed fetch load) j₂ with ⟨t₂, k₂, res₂⟩
    rw [h₁, h₂] at hresolve
    obtain ⟨rfl, ht⟩ := hresolve
    -- the styles are those of the model, if there is one
    rcases res₁ with e | _ | m
    · exact ⟨t₁, t₂, rfl, rfl, ht, rfl⟩
    · exact ⟨t₁, t₂, rfl, rfl, ht, rfl⟩
    · exact ⟨t₁, t₂, rfl, rfl, ht, rfl⟩
  | select => cases hsel
  | register => cases hslot
  | registerDeferred => cases hslot

/-- Calls that demand no overlay give the same results for themes whose `grammars` are the same. -/
theorem Paired.lookIdle (h : Paired fetch load cause k tried r₁ r₂)
    (hgrammars : r₁.theme.grammars = r₂.theme.grammars) (hdemands : call.demands r₂.theme = false)
    (hslot : call.slot? = none) (hsel : call.selects? = none) (env : Environment)
    (j₁ j₂ : Journal) :
    (step env r₁ j₁ call).2.2 = (step env r₂ j₂ call).2.2 := by
  obtain ⟨hkey, -⟩ := h.theme.names
  cases call with
  | currentKey => simp only [step, currentKey, hkey]
  | keys => simp only [step, Registry.keys, h.keys]
  | displayName key => simp only [step, displayName?_eq, h.names]
  | definition name =>
    have hresult := @Theme.definition_idle_result r₁.theme r₂.theme name _ env hkey hgrammars
      hdemands j₁ j₂
    simp only [step, replying, definition, onTheme, Outcome.within, hresult]
  | definitionFor extension =>
    simp only [Call.demands] at hdemands
    simp only [step, replying, definitionFor, Theme.definitionFor, onTheme, Outcome.within,
      hgrammars]
    cases ho : r₂.theme.grammars.owner? extension with
    | none => rfl
    | some name =>
      rw [ho] at hdemands
      have hresult := @Theme.definition_idle_result r₁.theme r₂.theme name _ env hkey hgrammars
        hdemands j₁ j₂
      simp only [hresult]
  | definitions =>
    have hresult := @Theme.definitionsOf_idle_result r₁.theme r₂.theme _ env hkey hgrammars
      r₂.theme.grammars.order hdemands j₁ j₂
    simp only [step, replying, definitions, Theme.definitions, onTheme, Outcome.within, hgrammars,
      hresult]
  | colorSet => cases hdemands
  | model => cases hdemands
  | applyStyles => cases hdemands
  | select => cases hsel
  | register => cases hslot
  | registerDeferred => cases hslot

/-- The first call that demands a `Broken` overlay fails with its cause, settles the theme and does
nothing else. -/
theorem step_broken {t₂ : Theme} (h : Theme.Broken fetch cause r₁.theme t₂)
    (hdemands : call.demands r₁.theme = true) (j : Journal) :
    ∃ resource, step (.fixed fetch load) r₁ j call =
      (r₁.withTheme { r₁.theme with resolution := .settled none },
        (Theme.loadOverlay (.fixed fetch load) j r₁.theme.key resource).1 ++
          [.noted (.overlayFailed r₁.theme.key cause)],
        ⟨.error (.inTheme r₁.theme.key cause), []⟩) := by
  obtain ⟨resource, hresolve⟩ := @Theme.Broken.resolve_first fetch load _ _ _ _ cause h j
  obtain ⟨hfails, -⟩ := step_demanding hdemands (.fixed fetch load) j
  refine ⟨resource, ?_⟩
  rw [hfails (.inTheme r₁.theme.key cause) (by rw [hresolve]), hresolve]

/-- Before the broken overlay is `tried`, a call gives the same results unless it demands it. -/
theorem Paired.stepUntried (h : Paired fetch load cause k tried r₁ r₂)
    (huntried : r₁.current = k ∧ ¬ tried) (hslot : call.slot? = none) (hsel : call.selects? = none)
    (j₁ j₂ : Journal) :
    Paired fetch load cause k (tried ∨ r₁.current = k ∧ call.demands r₁.theme = true)
        (step (.fixed fetch load) r₁ j₁ call).1 (step (.fixed fetch load) r₂ j₂ call).1 ∧
      (call.demands r₁.theme = false → (step (.fixed fetch load) r₁ j₁ call).2.2 =
        (step (.fixed fetch load) r₂ j₂ call).2.2) := by
  have hbroken := h.theme.broken huntried
  have hgrammars : r₁.theme.grammars = r₂.theme.grammars := by rw [hbroken.other]
  have hdemands₂ : call.demands r₂.theme = call.demands r₁.theme :=
    demands_congr hgrammars.symm call
  cases hd : call.demands r₁.theme with
  | false =>
    rw [hd] at hdemands₂
    obtain ⟨h₁, -⟩ := step_idle hd (registers?_of_slot? hslot) hsel (.fixed fetch load) j₁
    obtain ⟨h₂, -⟩ := step_idle hdemands₂ (registers?_of_slot? hslot) hsel (.fixed fetch load) j₂
    rw [h₁, h₂]
    refine ⟨?_, fun _ => h.lookIdle hgrammars hdemands₂ hslot hsel _ j₁ j₂⟩
    simpa using h
  | true =>
    rw [hd] at hdemands₂
    obtain ⟨resource, h₁⟩ := @step_broken fetch load cause r₁ call _ _ r₂.theme hbroken hd j₁
    have hresolve := @Theme.Broken.resolve_second fetch _ _ _ _ cause (.fixed fetch load) hbroken j₂
    obtain ⟨-, hproceeds⟩ := step_demanding hdemands₂ (.fixed fetch load) j₂
    obtain ⟨t, h₂, hmoves⟩ := hproceeds none (by rw [hresolve])
    rw [hresolve] at hmoves
    rw [h₁, h₂]
    refine ⟨h.withTheme (fun hk => absurd huntried.1 hk) ⟨fun hb => ?_, fun _ => ?_⟩, nofun⟩
    · exact absurd (.inr ⟨huntried.1, rfl⟩) hb.2
    · exact hbroken.twin.ahead rfl hmoves

/-- From then on, and for the other themes at all times, the results are the same. -/
theorem Paired.stepTwin (h : Paired fetch load cause k tried r₁ r₂)
    (hother : ¬ (r₁.current = k ∧ ¬ tried)) (hslot : call.slot? = none)
    (hsel : call.selects? = none) (j₁ j₂ : Journal) :
    Paired fetch load cause k (tried ∨ r₁.current = k ∧ call.demands r₁.theme = true)
        (step (.fixed fetch load) r₁ j₁ call).1 (step (.fixed fetch load) r₂ j₂ call).1 ∧
      (step (.fixed fetch load) r₁ j₁ call).2.2 = (step (.fixed fetch load) r₂ j₂ call).2.2 := by
  obtain ⟨t₁, t₂, h₁, h₂, ht, hresult⟩ := h.lookTwin (h.theme.twin hother) hslot hsel j₁ j₂
  rw [h₁, h₂]
  refine ⟨h.withTheme (fun hk => ?_) ⟨fun hb => ?_, fun _ => ht⟩, hresult⟩
  · exact ⟨fun htried => htried.resolve_right fun hcur => hk hcur.1, .inl⟩
  · exact absurd ⟨hb.1, fun htried => hb.2 (.inl htried)⟩ hother

/-- **What one call does to a pair.** The results are the same, unless the call is the first that
demands the broken overlay. -/
theorem Paired.step (h : Paired fetch load cause k tried r₁ r₂) (hfixed : call.Fixed)
    (j₁ j₂ : Journal) :
    Paired fetch load cause k (tried ∨ r₁.current = k ∧ call.demands r₁.theme = true)
        (step (.fixed fetch load) r₁ j₁ call).1 (step (.fixed fetch load) r₂ j₂ call).1 ∧
      (¬ ((r₁.current = k ∧ call.demands r₁.theme = true) ∧ ¬ tried) →
        (step (.fixed fetch load) r₁ j₁ call).2.2 =
          (step (.fixed fetch load) r₂ j₂ call).2.2) := by
  have hundemanding : call.demands r₁.theme = false →
      (tried ∨ r₁.current = k ∧ call.demands r₁.theme = true) = tried := by
    intro hd
    simp [hd]
  cases hslot : call.slot? with
  | some placed =>
    obtain ⟨name, slot⟩ := placed
    obtain ⟨-, hd, -⟩ := step_slot hslot (.fixed fetch load) r₁ j₁
    obtain ⟨hpaired, hresult⟩ := h.register (.fixed fetch load) hfixed hslot j₁ j₂
    rw [hundemanding hd]
    exact ⟨hpaired, fun _ => hresult⟩
  | none =>
  cases hsel : call.selects? with
  | some key =>
    obtain rfl : call = .select key := by
      cases call with
      | select k => exact congrArg Call.select (Option.some.inj hsel)
      | _ => cases hsel
    obtain ⟨hpaired, hresult⟩ := h.select (.fixed fetch load) key j₁ j₂
    rw [hundemanding rfl]
    exact ⟨hpaired, fun _ => hresult⟩
  | none =>
  by_cases huntried : r₁.current = k ∧ ¬ tried
  · obtain ⟨hpaired, hresult⟩ := h.stepUntried huntried hslot hsel j₁ j₂
    refine ⟨hpaired, fun hfirst => hresult ?_⟩
    exact Bool.eq_false_iff.2 fun hd => hfirst ⟨⟨huntried.1, hd⟩, huntried.2⟩
  · obtain ⟨hpaired, hresult⟩ := h.stepTwin huntried hslot hsel j₁ j₂
    exact ⟨hpaired, fun _ => hresult⟩

end Registry

end Livery
