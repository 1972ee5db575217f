import Livery.Proofs.Ledger

/-!
# Which calls warn

A theme warns of its overlay when it comes to the model for the first time and fails. Nothing else
warns of it, short of a loader that does so on its own account: a settled theme stays settled, and
the other themes speak for themselves.

* `Theme.Deferring.moves`: look-ups defer nothing.
* `Registry.step_settles`, `Registry.settled_step`: a call that demands the overlay settles the
  theme, for good.
* `Registry.step_warnings`: a call warns of the overlay of a pending theme only.
-/

namespace Livery

/-- The failures of the overlay of `key` that `j` has a warning of. -/
def Journal.warnings (j : Journal) (key : String) : List ThemeError :=
  j.filterMap fun
    | .noted (.overlayFailed k e) => if k = key then some e else none
    | _ => none

namespace Journal

@[simp] theorem warnings_append (j j' : Journal) (key : String) :
    warnings (j ++ j') key = warnings j key ++ warnings j' key := List.filterMap_append

theorem mem_warnings {j : Journal} {key : String} {e : ThemeError} :
    e ∈ warnings j key ↔ .noted (.overlayFailed key e) ∈ j := by
  unfold warnings
  rw [List.mem_filterMap]
  constructor
  · rintro ⟨x, hx, hwarns⟩
    split at hwarns
    · next k e' =>
      split at hwarns
      · next hk =>
        obtain rfl := Option.some.inj hwarns
        exact hk ▸ hx
      · cases hwarns
    · cases hwarns
  · intro hx
    exact ⟨_, hx, by simp⟩

end Journal

namespace Theme

variable {env : Environment} {t t' : Theme} {j j' : Journal} {Q : Loader → Prop}

/-! ## What is still deferred -/

/-- Of all loaders that are still deferred in the theme `t`, `Q` holds. -/
def Deferring (Q : Loader → Prop) (t : Theme) : Prop :=
  ∀ name ticket loader, t.grammars.get? name = some ⟨ticket, .deferred loader⟩ → Q loader

theorem deferring_ofEntry (Q : Loader → Prop) (e : ThemeEntry) : (ofEntry e).Deferring Q := by
  intro name ticket loader h
  simp [ofEntry, GrammarTable.get?] at h

theorem Deferring.settle (h : t.Deferring Q) (name : String) (ticket : Nat) {slot : GrammarSlot}
    (hslot : ∀ loader, slot ≠ .deferred loader) :
    Deferring Q { t with grammars := t.grammars.settle name ticket slot } := by
  intro x ticket' loader hget
  rw [GrammarTable.get?_settle] at hget
  split at hget
  · simp only [Option.some.injEq, Registration.mk.injEq] at hget
    exact absurd hget.2 (hslot loader)
  · exact h x ticket' loader hget

theorem Deferring.register (h : t.Deferring Q) (name : String) (extensions : List String)
    {slot : GrammarSlot} (hslot : ∀ loader, slot = .deferred loader → Q loader) :
    Deferring Q { t with grammars := t.grammars.register name extensions slot } := by
  intro x ticket loader hget
  rw [GrammarTable.get?_register] at hget
  split at hget
  · simp only [Option.some.injEq, Registration.mk.injEq] at hget
    exact hslot loader hget.2
  · exact h x ticket loader hget

theorem Deferring.addBuiltins (h : t.Deferring Q) (hQ : ∀ r, Q (.resource r))
    (bs : List BuiltinGrammar) : (bs.foldl Registry.addBuiltin t).Deferring Q := by
  induction bs generalizing t with
  | nil => exact h
  | cons b bs ih =>
    refine ih ?_
    unfold Registry.addBuiltin
    split
    · exact h
    · refine h.register b.name b.extensions ?_
      rintro loader ⟨⟩
      exact hQ _

variable [Markup.Decoders]

theorem Deferring.move (h : t.Deferring Q) (hm : Move env t j t' j') : t'.Deferring Q := by
  cases hm with
  | resolve =>
    intro name ticket loader hget
    rw [resolve_grammars] at hget
    exact h name ticket loader hget
  | @load name ticket loader model hslot hres =>
    obtain ⟨slot, -, -, hsettled, hstate, -, -, -⟩ :=
      loadDeferred_added env j t name ticket loader (model.bind (·.colorSet? name))
    rw [hstate]
    exact h.settle name ticket hsettled
  | note => exact h

/-- **Look-ups defer nothing.** -/
theorem Deferring.moves (h : t.Deferring Q) (hm : Moves env t j t' j') : t'.Deferring Q :=
  hm.keep (P := fun t _ => t.Deferring Q) (fun hm' ht => ht.move hm') h

/-! ## Themes that are settled -/

theorem isSettled_resolve (env : Environment) (j : Journal) (t : Theme) :
    (t.resolve env j).state.isSettled = true := by
  obtain ⟨m, hstate, -⟩ := resolve_added env t j
  rw [hstate]
  rfl

omit [Markup.Decoders] in
theorem isSettled_addBuiltins (t : Theme) (bs : List BuiltinGrammar) :
    (bs.foldl Registry.addBuiltin t).isSettled = t.isSettled := by
  induction bs generalizing t with
  | nil => rfl
  | cons b bs ih =>
    rw [List.foldl_cons, ih]
    unfold Registry.addBuiltin
    split
    · rfl
    · rfl

/-- A settled theme stays settled. -/
theorem Moves.settled (hm : Moves env t j t' j') (h : t.isSettled = true) :
    t'.isSettled = true := by
  refine hm.keep (P := fun t _ => t.isSettled = true) (fun {t j t' j'} hm ht => ?_) h
  cases hm with
  | resolve => exact isSettled_resolve env j t
  | @load name ticket loader model hslot hres =>
    obtain ⟨slot, -, -, -, hstate, -, -, -⟩ :=
      loadDeferred_added env j t name ticket loader (model.bind (·.colorSet? name))
    rw [hstate]
    exact ht
  | note => exact ht

/-! ## What look-ups warn of -/

/-- `Moves` of a theme warn of its overlay while that is pending, and otherwise only of what a
loader says. -/
theorem Moves.warnings {own : Notice → Prop} (hm : Moves env t j t' j') (key : String)
    (hown : t.Deferring fun loader => ∀ name n, loader.gives env name n → own n)
    (hquiet : t.key = key → t.isSettled = true) :
    ∃ added, j' = j ++ added ∧ ∀ e ∈ Journal.warnings added key, own (.overlayFailed key e) := by
  induction hm with
  | refl t j => exact ⟨[], (List.append_nil j).symm, by simp [Journal.warnings]⟩
  | @head t₁ t₂ t₃ j₁ j₂ j₃ hm _ ih =>
    have hkey : t₂.key = t₁.key := congrArg Prod.fst hm.entry_eq
    obtain ⟨rest, rfl, hrest⟩ := ih (hown.move hm) fun h => hm.moves.settled (hquiet (hkey ▸ h))
    have hfirst : ∃ first, j₂ = j₁ ++ first ∧
        ∀ e ∈ Journal.warnings first key, own (.overlayFailed key e) := by
      cases hm with
      | resolve =>
        obtain ⟨m, -, hj | ⟨r, ok, notices, hp, -, hj, hwarns⟩⟩ := resolve_added env t₁ j₁
        · exact ⟨[], by rw [hj, List.append_nil], by simp [Journal.warnings]⟩
        · refine ⟨_, hj, fun e he => ?_⟩
          -- a pending theme goes by another key, and so does its warning
          rw [Journal.mem_warnings] at he
          have hmem : .overlayFailed key e ∈ notices := by simpa using he
          have hsettled := hquiet (hwarns key e hmem).symm
          simp [isSettled, hp] at hsettled
      | @load name ticket loader model hslot hres =>
        obtain ⟨slot, files, notices, -, -, hj, hfiles, hgives⟩ :=
          loadDeferred_added env j₁ t₁ name ticket loader (model.bind (·.colorSet? name))
        refine ⟨_, hj, fun e he => ?_⟩
        rw [Journal.mem_warnings] at he
        have hmem : .overlayFailed key e ∈ notices := by
          rcases hfiles with rfl | ⟨r, ok, rfl⟩
          all_goals simpa using he
        rcases hgives _ hmem with hloaded | hgives
        · cases hloaded
        · exact hown name ticket loader hslot name _ hgives
      | note notices hstyles =>
        refine ⟨_, rfl, fun e he => ?_⟩
        rw [Journal.mem_warnings] at he
        have hmem : .overlayFailed key e ∈ notices := by simpa using he
        cases hstyles _ hmem
    obtain ⟨first, rfl, hfirst⟩ := hfirst
    refine ⟨first ++ rest, List.append_assoc .., fun e he => ?_⟩
    rw [Journal.warnings_append, List.mem_append] at he
    exact he.elim (hfirst e) (hrest e)

end Theme

/-! ## Calls on a registry -/

namespace Registry

variable {env : Environment} {r : Registry} {j : Journal} {call : Call} {Q : Loader → Prop}

theorem mem_withTheme {t x : Theme} (h : x ∈ (r.withTheme t).themes) : x = t ∨ x ∈ r.themes := by
  obtain ⟨i, hi⟩ := List.getElem?_of_mem h
  rw [getElem?_withTheme] at hi
  split at hi
  · exact .inl (Option.some.inj hi).symm
  · exact .inr (List.mem_of_getElem? hi)

theorem theme_mem (r : Registry) : r.theme ∈ r.themes :=
  List.mem_of_getElem? (getElem?_current r)

variable [Markup.Decoders]

/-- What is still deferred anywhere behind `step` was deferred before, is registered by the call or
comes from the catalog. -/
theorem deferring_step (h : ∀ t ∈ r.themes, t.Deferring Q) (hQ : ∀ r, Q (.resource r))
    (hcall : ∀ name loader, call.slot? = some (name, .deferred loader) → Q loader)
    (env : Environment) (j : Journal) : ∀ t ∈ (step env r j call).1.themes, t.Deferring Q := by
  cases hslot : call.slot? with
  | some placed =>
    obtain ⟨name, slot⟩ := placed
    obtain ⟨-, -, extensions, hstep⟩ := step_slot hslot env r j
    rw [hstep]
    intro t ht
    rcases mem_withTheme ht with rfl | ht
    · refine (h _ (theme_mem r)).register name extensions fun loader hl => ?_
      exact hcall name loader (hslot.trans (by rw [hl]))
    · exact h t ht
  | none =>
    have hreg := registers?_of_slot? hslot
    have hstep := step_cases env r j call
    generalize (step env r j call).1 = r' at hstep ⊢
    generalize (step env r j call).2.1 = j' at hstep
    intro t ht
    cases hstep with
    | look _ _ hm =>
      rcases mem_withTheme ht with rfl | ht
      · exact (h _ (theme_mem r)).moves hm
      · exact h t ht
    | register _ _ hreg' => rw [hreg] at hreg'; cases hreg'
    | @select key i hi =>
      rcases mem_withTheme ht with rfl | ht
      · exact (h _ (List.getElem_mem i.2)).addBuiltins hQ _
      · exact h t ht
    | unknown => exact h t ht

/-- **A call that `demands` the overlay settles the theme.** -/
theorem step_settles (h : call.demands r.theme = true) (env : Environment) (j : Journal) :
    ∃ t, (step env r j call).1 = r.withTheme t ∧ t.isSettled = true := by
  obtain ⟨hfails, hproceeds⟩ := step_demanding h env j
  have hresolve := Theme.isSettled_resolve env j r.theme
  cases hres : (r.theme.resolve env j).result with
  | error e => exact ⟨_, by rw [hfails e hres], hresolve⟩
  | ok m =>
    obtain ⟨t, hr', hmoves⟩ := hproceeds m hres
    exact ⟨t, hr', hmoves.settled hresolve⟩

/-- A theme that is settled stays so, whatever `call` is made. -/
theorem settled_step {k : Nat} (h : ∀ t, r.themes[k]? = some t → t.isSettled = true)
    (env : Environment) (j : Journal) (call : Call) :
    ∀ t, (step env r j call).1.themes[k]? = some t → t.isSettled = true := by
  have hstep := step_cases env r j call
  generalize (step env r j call).1 = r' at hstep ⊢
  generalize (step env r j call).2.1 = j' at hstep
  intro t ht
  cases hstep with
  | look _ _ hm =>
    rw [getElem?_withTheme] at ht
    split at ht
    · next hk =>
      obtain rfl := Option.some.inj ht
      exact hm.settled (h r.theme (hk ▸ getElem?_current r))
    · exact h t ht
  | register =>
    rw [getElem?_withTheme] at ht
    split at ht
    · next hk =>
      obtain rfl := Option.some.inj ht
      exact h r.theme (hk ▸ getElem?_current r)
    · exact h t ht
  | @select key i hi =>
    rw [addBuiltins, getElem?_withTheme] at ht
    split at ht
    · next hk =>
      obtain rfl := Option.some.inj ht
      rw [Theme.isSettled_addBuiltins]
      exact h _ (hk ▸ List.getElem?_eq_getElem i.2)
    · exact h t ht
  | unknown => exact h t ht

/-- **A call warns of the overlay of a pending theme only**, if the theme is current and the call
`demands` the overlay. Other warnings are what a loader says. -/
theorem step_warnings {own : Notice → Prop} (key : String)
    (hown : r.theme.Deferring fun loader => ∀ name n, loader.gives env name n → own n)
    (hquiet : r.theme.key = key → call.demands r.theme = true → r.theme.isSettled = true)
    (j : Journal) :
    ∃ added, (step env r j call).2.1 = j ++ added ∧
      ∀ e ∈ Journal.warnings added key, own (.overlayFailed key e) := by
  have hstep := step_cases env r j call
  generalize hr : (step env r j call).1 = r' at hstep
  generalize hj : (step env r j call).2.1 = j' at hstep ⊢
  cases hstep with
  | look hreg hsel hm =>
    cases hdemands : call.demands r.theme with
    | true => exact hm.warnings key hown fun hkey => hquiet hkey hdemands
    | false =>
      obtain ⟨-, hidle⟩ := step_idle hdemands hreg hsel env j
      exact ⟨[], by rw [← hj, hidle, List.append_nil], by simp [Journal.warnings]⟩
  | register => exact ⟨[], (List.append_nil j).symm, by simp [Journal.warnings]⟩
  | @select k i hi => exact ⟨[.noted (.themeChanged k)], rfl, by simp [Journal.warnings]⟩
  | unknown => exact ⟨[], (List.append_nil j).symm, by simp [Journal.warnings]⟩

/-- What is still deferred behind a `run` was deferred before, is registered in its course or comes
from the catalog. -/
theorem deferring_run (h : ∀ t ∈ r.themes, t.Deferring Q) (hQ : ∀ r, Q (.resource r))
    {calls : List Call}
    (hcalls : ∀ call ∈ calls, ∀ name loader, call.slot? = some (name, .deferred loader) → Q loader)
    (env : Environment) (j : Journal) : ∀ t ∈ (run env r j calls).1.themes, t.Deferring Q := by
  induction calls generalizing r j with
  | nil => exact h
  | cons call calls ih =>
    obtain ⟨hcall, hcalls⟩ := List.forall_mem_cons.1 hcalls
    exact ih (deferring_step h hQ hcall env j) hcalls _

end Registry

end Livery
