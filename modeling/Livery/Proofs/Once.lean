import Livery.Libraries
import Livery.Proofs.Ledger

/-!
# Everything is loaded at most once

In every environment, a run of calls loads each overlay at most once and runs each loader at most
once. When it does so is settled for each call: only for the current theme, and loaders only in a
look-up and behind the overlay.

* `Registry.tracked_run`: every run keeps the ledger of every theme.
* `Registry.loads`: what one call loads, and when.
* `Registry.loading_once`: both together.
-/

namespace Livery

/-! ## The ledgers of a registry -/

namespace Registry

variable {env : Environment} {c : Catalog} {calls : List Call} {call : Call} {r : Registry}
  {j : Journal}

/-- The registry `r` behind `calls` keeps the ledger of every theme. -/
structure Tracked (c : Catalog) (calls : List Call) (r : Registry) (j : Journal) : Prop
    extends Frame c calls r where
  themes : ∀ (i : Nat) e t, c.themes[i]? = some e → r.themes[i]? = some t →
    t.Tracked (c.ledger e calls) j

/-- Filling the current theme up keeps the ledgers, be it for the first time or again. -/
theorem tracked_addBuiltins (hnames : (c.grammars.map (·.name)).Nodup) (hframe : Frame c calls r)
    (hothers : ∀ (i : Nat) e t, i ≠ r.current → c.themes[i]? = some e → r.themes[i]? = some t →
      t.Tracked (c.ledger e calls) j)
    (hcurrent : ∀ e, c.themes[r.current]? = some e →
      r.theme.Tracked [] j ∧ c.ledger e calls = c.stockOf e ∨
        r.theme.Tracked (c.ledger e calls) j ∧ c.visited calls e.key = true) :
    Tracked c calls (addBuiltins r) j := by
  refine ⟨hframe.addBuiltins, fun i e t he ht => ?_⟩
  rw [addBuiltins, getElem?_withTheme] at ht
  split at ht
  · next hi =>
    obtain rfl := Option.some.inj ht
    subst hi
    obtain ⟨e', he', hentry⟩ := hframe.declared (getElem?_current r)
    obtain rfl : e = e' := Option.some.inj (he.symm.trans he')
    have hbase : r.theme.basePrefix = e.basePrefix := congrArg (·.2.2.1) hentry
    rw [hframe.builtins]
    rcases hcurrent e he with ⟨hfresh, hregs⟩ | ⟨hold, hvisited⟩
    · have hfill := hfresh.fill hnames (by simp)
      rw [hbase, List.nil_append] at hfill
      rw [hregs]
      exact hfill
    · -- it has the grammars already
      have hknown : ∀ b ∈ c.grammars, r.theme.contains b.name = true := by
        intro b hb
        rw [hold.known, Catalog.ledger_visited hvisited, List.map_append, List.mem_append,
          Catalog.stockOf, List.map_map]
        exact .inl (List.mem_map.2 ⟨b, hb, rfl⟩)
      rw [Theme.foldl_addBuiltin_known hknown]
      exact hold
  · next hi => exact hothers i e t hi he ht

section Runs

/-- A registration of `slot` under `name` keeps the ledgers. -/
theorem Tracked.register (h : Tracked c calls r j) (hnd : (c.themes.map (·.key)).Nodup)
    {name : String} {slot : GrammarSlot} (hslot : call.slot? = some (name, slot))
    (hsel : call.selects? = none) (extensions : List String) :
    Tracked c (calls ++ [call])
      (r.withTheme { r.theme with
        grammars := r.theme.grammars.register name extensions slot }) j := by
  refine ⟨(h.toFrame.stay hsel).withTheme rfl, fun i e t he ht => ?_⟩
  rw [Catalog.ledger_stay hsel, hslot]
  rw [getElem?_withTheme] at ht
  split at ht
  · next hi =>
    obtain rfl := Option.some.inj ht
    obtain ⟨e', he', hkey⟩ := h.toFrame.entry
    obtain rfl : e' = e := Option.some.inj (he'.symm.trans (hi ▸ he))
    rw [if_pos hkey.symm]
    exact (h.themes i e' r.theme he (hi ▸ getElem?_current r)).register name extensions slot
  · next hi =>
    rw [if_neg (h.toFrame.key_ne hnd he hi).symm, List.append_nil]
    exact h.themes i e t he ht

/-- Nothing is loaded for a fresh registry. -/
theorem tracked_ofCatalog (hc : ofCatalog c = .ok r) :
    c.validate = .ok () ∧ Tracked c [] r [] := by
  obtain ⟨hv, r₀, rfl, hthemes, hframe⟩ := of_ofCatalog hc
  have hfresh : ∀ (i : Nat) e t, c.themes[i]? = some e → r₀.themes[i]? = some t →
      t.Tracked [] [] := by
    intro i e t he ht
    obtain rfl : Theme.ofEntry e = t := by simpa [hthemes, he] using ht
    exact Theme.tracked_ofEntry e
  have hvisited : ∀ e : ThemeEntry, c.visited [] e.key = (c.current == e.key) := by
    intro e
    simp [Catalog.visited, Catalog.currentAfter]
  refine ⟨hv, tracked_addBuiltins (Catalog.grammarNames_nodup hv) hframe (fun i e t hi he ht => ?_)
    fun e he => .inl ⟨hfresh _ e _ he (getElem?_current r₀), ?_⟩⟩
  · have hne : c.current ≠ e.key := (hframe.key_ne (Catalog.keys_nodup hv) he hi).symm
    rw [Catalog.ledger_unvisited ((hvisited e).trans (beq_false_of_ne hne))]
    exact hfresh i e t he ht
  · obtain ⟨e', he', hkey⟩ := hframe.entry
    obtain rfl : e' = e := Option.some.inj (he'.symm.trans he)
    have hcur : c.current = e'.key := hkey.symm
    rw [Catalog.ledger_visited ((hvisited e').trans (beq_iff_eq.2 hcur))]
    exact List.append_nil _

variable [Markup.Decoders]

/-- A look-up keeps the ledgers. -/
theorem Tracked.look (h : Tracked c calls r j) (hnd : (c.themes.map (·.key)).Nodup) {t : Theme}
    {j' : Journal} (hslot : call.slot? = none) (hsel : call.selects? = none)
    (hm : Theme.Moves env r.theme j t j') : Tracked c (calls ++ [call]) (r.withTheme t) j' := by
  have hregs : ∀ e, c.ledger e (calls ++ [call]) = c.ledger e calls := by
    intro e
    rw [Catalog.ledger_stay hsel, hslot]
    split
    · exact List.append_nil _
    · exact List.append_nil _
  refine ⟨(h.toFrame.stay hsel).withTheme hm.entry_eq, fun i e t' he ht' => ?_⟩
  rw [hregs]
  rw [getElem?_withTheme] at ht'
  split at ht'
  · next hi =>
    obtain rfl := Option.some.inj ht'
    exact (h.themes i e r.theme he (hi ▸ getElem?_current r)).moves hm
  · next hi =>
    -- what is loaded for the current theme is nothing to another one
    obtain ⟨added, rfl, hadded⟩ := hm.added
    refine (h.themes i e t' he ht').of_foreign fun x hx hkey => ?_
    obtain ⟨e', he', hentry⟩ := h.toFrame.declared ht'
    obtain rfl : e = e' := Option.some.inj (he.symm.trans he')
    have hkey' : t'.key = e.key := congrArg Prod.fst hentry
    refine h.toFrame.key_ne hnd he hi ?_
    rw [← hkey', hadded x hx _ hkey, h.current]

/-- **A call keeps the ledger of every theme.** -/
theorem Tracked.step (h : Tracked c calls r j) (hnd : (c.themes.map (·.key)).Nodup)
    (hnames : (c.grammars.map (·.name)).Nodup) (env : Environment) (call : Call) :
    Tracked c (calls ++ [call]) (step env r j call).1 (step env r j call).2.1 := by
  cases hslot : call.slot? with
  | some placed =>
    obtain ⟨name, slot⟩ := placed
    obtain ⟨hsel, -, extensions, hstep⟩ := step_slot hslot env r j
    rw [hstep]
    exact h.register hnd hslot hsel extensions
  | none =>
    have hreg := registers?_of_slot? hslot
    have hstep := step_cases env r j call
    generalize (Registry.step env r j call).1 = r' at hstep ⊢
    generalize (Registry.step env r j call).2.1 = j' at hstep ⊢
    cases hstep with
    | look _ hsel hm => exact h.look hnd hslot hsel hm
    | register _ _ hreg' => rw [hreg] at hreg'; cases hreg'
    | @select key i hi =>
      have hframe := h.toFrame.select hi
      refine tracked_addBuiltins hnames hframe (fun k e t hk he ht => ?_) fun e he => ?_
      · have hne := hframe.key_ne hnd he hk
        rw [Catalog.ledger_of_none hslot, if_neg fun hcur => hne hcur.1.symm]
        exact (h.themes k e t he ht).note [.themeChanged key]
      · obtain ⟨e', he', hkey⟩ := hframe.entry
        obtain rfl : e' = e := Option.some.inj (he'.symm.trans he)
        have ht := (h.themes _ e' _ he (List.getElem?_eq_getElem i.2)).note [.themeChanged key]
        have hsnoc := Catalog.visited_snoc c calls (.select key) e'.key
        rw [Catalog.ledger_of_none hslot]
        cases hv : c.visited calls e'.key with
        | false =>
          rw [Catalog.ledger_unvisited hv] at ht
          exact .inl ⟨ht, if_pos ⟨hkey.symm, rfl⟩⟩
        | true =>
          rw [hv, Bool.true_or] at hsnoc
          rw [if_neg (by simp)]
          exact .inr ⟨ht, hsnoc⟩
    | @unknown key hi =>
      refine ⟨h.toFrame.unknown hi, fun k e t he ht => ?_⟩
      have hcur : c.currentAfter (calls ++ [.select key]) = c.currentAfter calls :=
        (h.toFrame.unknown hi).current.symm.trans h.current
      rw [Catalog.ledger_of_none hslot, hcur, if_neg]
      · exact h.themes k e t he ht
      · rintro ⟨hkey, hv⟩
        rw [Catalog.visited_current hkey] at hv
        cases hv

/-- **A run keeps the ledger of every theme.** -/
theorem tracked_run (h : Tracked c calls r j) (hnd : (c.themes.map (·.key)).Nodup)
    (hnames : (c.grammars.map (·.name)).Nodup) (env : Environment) (more : List Call) :
    Tracked c (calls ++ more) (run env r j more).1 (run env r j more).2.1 := by
  induction more generalizing calls r j with
  | nil => rw [List.append_nil]; exact h
  | cons call more ih =>
    have := ih (h.step hnd hnames env call)
    rwa [List.append_assoc, List.singleton_append] at this

/-! ## What one call loads -/

/-- What `call` adds to the journal. It loads things for the current theme only, and nothing unless
it demands the overlay. Only look-ups run loaders: such as were registered under the theme, and only
after the theme has come to its model. -/
structure Loads (env : Environment) (c : Catalog) (pre : List Call) (call : Call) (r : Registry)
    (j added : Journal) : Prop where
  journal : (Registry.step env r j call).2.1 = j ++ added
  current : ∀ x ∈ added, ∀ key, x.theme? = some key → key = c.currentAfter pre
  idle : call.demands r.theme = false → ∀ x ∈ added, x.theme? = none
  ran : ∀ key ticket name custom colors, .ran key ticket name custom colors ∈ added →
    call.isLookup = true ∧
      (∃ e loader, c.theme? key = some e ∧
        (c.ledger e pre)[ticket]? = some (name, .deferred loader) ∧
        loader.isCustom = custom) ∧
      ∃ m rest, (r.theme.resolve env j).result = .ok m ∧
        j ++ added = (r.theme.resolve env j).journal ++ rest ∧
        .ran key ticket name custom colors ∈ rest

/-- A call that demands the overlay but looks no grammar up only comes to the model. -/
theorem step_model (hdemands : call.demands r.theme = true) (hlook : call.isLookup = false)
    (env : Environment) (j : Journal) :
    ∃ notices, (step env r j call).2.1 =
      (r.theme.resolve env j).journal ++ List.map .noted notices := by
  cases call with
  | colorSet grammar => exact ⟨[], (List.append_nil _).symm⟩
  | model => exact ⟨[], (List.append_nil _).symm⟩
  | applyStyles =>
    simp only [step, applyStyles, model, onTheme, Outcome.within]
    rcases r.theme.resolve env j with ⟨t, j', e | _ | m⟩
    · exact ⟨[], (List.append_nil _).symm⟩
    · exact ⟨[], (List.append_nil _).symm⟩
    · exact ⟨_, rfl⟩
  | definition => cases hlook
  | definitionFor => cases hlook
  | definitions => cases hlook
  | _ => cases hdemands

/-- `resolve` runs no loader. -/
theorem resolve_runs_nothing (env : Environment) (t : Theme) (j : Journal) :
    ∃ tried, (t.resolve env j).journal = j ++ tried ∧
      (∀ x ∈ tried, ∀ key, x.theme? = some key → key = t.key) ∧
      ∀ key ticket name custom colors, .ran key ticket name custom colors ∉ tried := by
  obtain ⟨added, hadded, hkeys⟩ := (@Theme.Move.resolve _ env t j).added
  refine ⟨added, hadded, hkeys, fun key ticket name custom colors hx => ?_⟩
  obtain ⟨m, -, hj | ⟨r, ok, notices, -, -, hj, -⟩⟩ := Theme.resolve_added env t j
  · rw [hj, List.self_eq_append_right] at hadded
    rw [hadded] at hx
    cases hx
  · rw [hj, List.append_cancel_left_eq] at hadded
    simp [← hadded] at hx

/-- A call that only gives notices loads nothing. -/
theorem loads_notices {added : Journal} (hj : (step env r j call).2.1 = j ++ added)
    (hadded : ∀ x ∈ added, x.theme? = none) : Loads env c calls call r j added := by
  refine ⟨hj, fun x hx key hkey => ?_, fun _ => hadded,
    fun key ticket name custom colors hx => ?_⟩
  · rw [hadded x hx] at hkey
    cases hkey
  · cases hadded _ hx

/-- What the current theme has run is accounted for by a registration before `call`, unless that
registers or selects. -/
theorem ran_accounted (h : Tracked c calls r j) (hnd : (c.themes.map (·.key)).Nodup)
    (hnext : Tracked c (calls ++ [call]) (step env r j call).1 (step env r j call).2.1)
    (hslot : call.slot? = none) (hsel : call.selects? = none) {t : Theme}
    (hr' : (step env r j call).1 = r.withTheme t) (ht : t.key = r.theme.key) {ticket : Nat}
    {name : String} {custom : Bool} {colors : Option ColorSet}
    (hran : .ran r.theme.key ticket name custom colors ∈ (step env r j call).2.1) :
    ∃ e loader, c.theme? r.theme.key = some e ∧
      (c.ledger e calls)[ticket]? = some (name, .deferred loader) ∧ loader.isCustom = custom := by
  obtain ⟨e, he, hekey⟩ := h.toFrame.entry
  have hkey : r.theme.key = e.key := h.current.trans hekey.symm
  have hplace : (step env r j call).1.themes[r.current]? = some t := by
    rw [hr', getElem?_withTheme, if_pos rfl]
  rw [← ht] at hran
  obtain ⟨loader, hreg, hcustom⟩ :=
    (hnext.themes r.current e t he hplace).ran ticket name custom colors hran
  refine ⟨e, loader, hkey ▸ Catalog.theme?_of_getElem? hnd he, ?_, hcustom⟩
  rw [Catalog.ledger_stay hsel, hslot] at hreg
  simpa using hreg

/-- A call that `demands` the overlay loads it if need be, and then what it looks up. -/
theorem loads_demanding (h : Tracked c calls r j) (hnd : (c.themes.map (·.key)).Nodup)
    (hnext : Tracked c (calls ++ [call]) (step env r j call).1 (step env r j call).2.1)
    (hslot : call.slot? = none) (hsel : call.selects? = none)
    (hdemands : call.demands r.theme = true) : ∃ added, Loads env c calls call r j added := by
  obtain ⟨hfails, hproceeds⟩ := step_demanding hdemands env j
  obtain ⟨tried, htried, hkeys, hnone⟩ := resolve_runs_nothing env r.theme j
  cases hres : (r.theme.resolve env j).result with
  | error e =>
    refine ⟨tried, by rw [hfails e hres, htried], fun x hx key hkey => ?_, by simp [hdemands],
      fun key ticket name custom colors hx => (hnone key ticket name custom colors hx).elim⟩
    rw [hkeys x hx key hkey, h.current]
  | ok m =>
    obtain ⟨t, hr', hmoves⟩ := hproceeds m hres
    obtain ⟨rest, hrest, hrestkeys⟩ := hmoves.added
    have hkey : (r.theme.resolve env j).state.key = r.theme.key :=
      congrArg Prod.fst (@Theme.Move.resolve _ env r.theme j).entry_eq
    have hjournal : (step env r j call).2.1 = j ++ (tried ++ rest) := by
      rw [hrest, htried, List.append_assoc]
    have hcurrent : ∀ x ∈ tried ++ rest, ∀ key, x.theme? = some key →
        key = c.currentAfter calls := by
      intro x hx key hx'
      rw [← h.current]
      rcases List.mem_append.1 hx with hx | hx
      · exact hkeys x hx key hx'
      · exact (hrestkeys x hx key hx').trans hkey
    refine ⟨tried ++ rest, hjournal, hcurrent, by simp [hdemands],
      fun key ticket name custom colors hx => ⟨?_, ?_, m, rest, hres, ?_, ?_⟩⟩
    · -- without a look-up there is nothing but notices behind the model
      by_contra hlook
      obtain ⟨notices, hnotices⟩ := step_model hdemands (Bool.eq_false_iff.2 hlook) env j
      rw [hrest, List.append_cancel_left_eq] at hnotices
      rcases List.mem_append.1 hx with hx | hx
      · exact hnone _ _ _ _ _ hx
      · simp [hnotices] at hx
    · -- the ledger behind the call accounts for the run
      have hmoved : t.key = (r.theme.resolve env j).state.key := congrArg Prod.fst hmoves.entry_eq
      obtain rfl : key = r.theme.key := (hcurrent _ hx key rfl).trans h.current.symm
      have hran : .ran r.theme.key ticket name custom colors ∈ (step env r j call).2.1 := by
        rw [hjournal]
        exact List.mem_append_right _ hx
      exact ran_accounted h hnd hnext hslot hsel hr' (hmoved.trans hkey) hran
    · rw [htried, List.append_assoc]
    · exact (List.mem_append.1 hx).resolve_left (hnone key ticket name custom colors)

/-- **What one call `Loads`**, and when. -/
theorem loads (h : Tracked c calls r j) (hnd : (c.themes.map (·.key)).Nodup)
    (hnames : (c.grammars.map (·.name)).Nodup) (env : Environment) (call : Call) :
    ∃ added, Loads env c calls call r j added := by
  cases hslot : call.slot? with
  | some placed =>
    obtain ⟨-, -, extensions, hstep⟩ := step_slot hslot env r j
    exact ⟨[], loads_notices (by rw [hstep, List.append_nil]) (by simp)⟩
  | none =>
    cases hdemands : call.demands r.theme with
    | true =>
      have hsel : call.selects? = none := by
        cases call with
        | select key => cases hdemands
        | _ => rfl
      exact loads_demanding h hnd (h.step hnd hnames env call) hslot hsel hdemands
    | false =>
      have hstep := step_cases env r j call
      cases hsel : call.selects? with
      | none =>
        obtain ⟨-, hj⟩ := step_idle hdemands (registers?_of_slot? hslot) hsel env j
        exact ⟨[], loads_notices (by rw [hj, List.append_nil]) (by simp)⟩
      | some key =>
        generalize (Registry.step env r j call).1 = r' at hstep
        generalize hj : (Registry.step env r j call).2.1 = j' at hstep
        cases hstep with
        | look _ hsel' => rw [hsel] at hsel'; cases hsel'
        | register _ _ _ hsel' => rw [hsel] at hsel'; cases hsel'
        | @select key i hi =>
          exact ⟨[.noted (.themeChanged key)], loads_notices hj (by simp [Incident.theme?])⟩
        | unknown hi => exact ⟨[], loads_notices (by rw [hj, List.append_nil]) (by simp)⟩

/-- **Everything is loaded at most once.** Take any calls on a registry of a catalog, in any
environment. The overlay of each theme is loaded at most once, and never if it has none; the loader
of each registration is run at most once, and no file is opened for it but by that run; and each
call loads what `Loads` allows it. -/
theorem loading_once (hc : ofCatalog c = .ok r) (env : Environment) (calls : List Call) :
    (∀ e ∈ c.themes,
      (run env r [] calls).2.1.overlayLoads e.key ≤ 1 ∧
      (e.overlay = none → (run env r [] calls).2.1.overlayLoads e.key = 0) ∧
      (∀ resource ok, .opened (.overlay e.key) resource ok ∈ (run env r [] calls).2.1 →
        e.overlay = some resource) ∧
      ∀ ticket, (run env r [] calls).2.1.runs e.key ticket ≤ 1 ∧
        (run env r [] calls).2.1.files e.key ticket ≤ (run env r [] calls).2.1.runs e.key ticket) ∧
    ∀ pre call post, calls = pre ++ call :: post →
      ∃ added, Loads env c pre call (run env r [] pre).1 (run env r [] pre).2.1 added := by
  obtain ⟨hv, h₀⟩ := tracked_ofCatalog hc
  have hnd := Catalog.keys_nodup hv
  have hnames := Catalog.grammarNames_nodup hv
  have hrun : ∀ pre, Tracked c pre (run env r [] pre).1 (run env r [] pre).2.1 := by
    intro pre
    simpa using tracked_run h₀ hnd hnames env pre
  refine ⟨fun e he => ?_, fun pre call post _ => loads (hrun pre) hnd hnames env call⟩
  obtain ⟨i, hi⟩ := List.getElem?_of_mem he
  have hlt : i < (run env r [] calls).1.themes.length := by
    have hlen := congrArg List.length (hrun calls).entries
    simp only [List.length_map] at hlen
    rw [hlen]
    exact (List.getElem?_eq_some_iff.1 hi).1
  have ht := List.getElem?_eq_getElem hlt
  obtain ⟨e', he', hentry⟩ := (hrun calls).toFrame.declared ht
  obtain rfl : e = e' := Option.some.inj (hi.symm.trans he')
  have h := (hrun calls).themes i e _ hi ht
  have hkey : ((run env r [] calls).1.themes[i]).key = e.key := congrArg Prod.fst hentry
  have hoverlay : ((run env r [] calls).1.themes[i]).overlay = e.overlay :=
    congrArg (·.2.2.2) hentry
  have hopened : ∀ resource ok, .opened (.overlay e.key) resource ok ∈ (run env r [] calls).2.1 →
      e.overlay = some resource := by
    intro resource ok hx
    rw [← hoverlay]
    exact h.overlay_opened resource ok (hkey ▸ hx)
  refine ⟨hkey ▸ h.overlay_le, fun hnone => ?_, hopened,
    fun ticket => ⟨hkey ▸ h.runs_le ticket, hkey ▸ h.files_le ticket⟩⟩
  refine Journal.overlayLoads_eq_zero fun resource ok hx => ?_
  rw [hopened resource ok hx] at hnone
  cases hnone

end Runs

/-- A night theme whose overlay is not there, asked for a grammar twice. -/
theorem loading_once_night :
    let c : Catalog := ⟨"Day", [⟨"Day", "", "day", none⟩, ⟨"Night", "", "night", some ⟨"o", "n"⟩⟩],
      [⟨"Json", [".json"], "Json.xshd"⟩]⟩
    let env : Environment := .ofStore fun r => .error (.resourceNotFound r)
    let pre : List Call := [.definition "Json", .select "Night", .definition "Json"]
    ∃ r, ofCatalog c = .ok r ∧
      (run env r [] (pre ++ [.definition "Json"])).2.1.overlayLoads "Night" ≤ 1 ∧
      (run env r [] (pre ++ [.definition "Json"])).2.1.runs "Night" 0 ≤ 1 ∧
      ∃ added, Loads env c pre (.definition "Json") (run env r [] pre).1 (run env r [] pre).2.1
        added := by
  intro c env pre
  have hv : c.validate = .ok () := by
    simp [c, Catalog.validate, Catalog.defect?, Catalog.themesDefect?, Catalog.themeDefect?,
      Catalog.isComplete, Catalog.currentDefect?, Catalog.grammarsDefect?, Catalog.grammarDefect?]
  obtain ⟨r, hc⟩ := exists_ofCatalog hv
  obtain ⟨honce, hloads⟩ := loading_once hc env (pre ++ [.definition "Json"])
  obtain ⟨hoverlay, -, -, hruns⟩ :=
    honce ⟨"Night", "", "night", some ⟨"o", "n"⟩⟩ (by simp [c])
  exact ⟨r, hc, hoverlay, (hruns 0).1, hloads pre (.definition "Json") [] rfl⟩

end Registry

end Livery
