import Livery.Libraries
import Livery.Proofs.Pairs

/-!
# A broken overlay is as good as none

Take a theme whose overlay cannot be loaded, and the same theme without an overlay. Over a fixed
store, the first call that demands the overlay fails under the first theme and not under the second.
No other call tells them apart, neither before nor after.

* `Registry.paired_run`: every run keeps the registries of both catalogs a pair.
* `Registry.broken_overlay_degrades`: the results of both registries in every run.
-/

namespace Livery

/-! ## The theme without its overlay -/

/-- The entry `e` without an overlay, if its key is `key`. -/
def ThemeEntry.withoutOverlay (key : String) (e : ThemeEntry) : ThemeEntry :=
  if e.key = key then { e with overlay := none } else e

/-- The catalog `c` with no overlay for the theme `key`. -/
def Catalog.withoutOverlay (c : Catalog) (key : String) : Catalog :=
  { c with themes := c.themes.map (·.withoutOverlay key) }

namespace Catalog

variable {c : Catalog}

theorem key_withoutOverlay (key : String) (e : ThemeEntry) :
    (e.withoutOverlay key).key = e.key := by
  unfold ThemeEntry.withoutOverlay
  split
  · rfl
  · rfl

/-- An overlay less is no defect for `themesDefect?`. -/
theorem themesDefect?_withoutOverlay (key : String) {seen : List String} {es : List ThemeEntry}
    (h : themesDefect? seen es = none) :
    themesDefect? seen (es.map (·.withoutOverlay key)) = none := by
  induction es generalizing seen with
  | nil => rfl
  | cons e es ih =>
    obtain ⟨he, hes⟩ := of_themesDefect?_cons seen e es h
    have hdefect : themeDefect? seen (e.withoutOverlay key) = none := by
      unfold ThemeEntry.withoutOverlay
      split
      · unfold themeDefect? at he ⊢
        split at he
        · cases he
        · split at he
          · cases he
          · split at he
            · cases he
            · rw [if_neg (by assumption), if_neg (by assumption), if_neg (by assumption)]
              rfl
      · exact he
    rw [List.map_cons, themesDefect?, hdefect, key_withoutOverlay]
    exact ih hes

theorem validate_withoutOverlay (h : c.validate = .ok ()) (key : String) :
    (c.withoutOverlay key).validate = .ok () := by
  obtain ⟨hthemes, hcurrent, hgrammars⟩ := of_validate h
  have hkeys : (c.withoutOverlay key).themes.map (·.key) = c.themes.map (·.key) := by
    simp [withoutOverlay, key_withoutOverlay]
  refine validate_of (themesDefect?_withoutOverlay key hthemes) ?_ hgrammars
  rw [hkeys]
  exact hcurrent

end Catalog

namespace Registry

variable {fetch : ResourceName → Except ThemeError Bytes}
  {load : String → Bytes → Option ColorSet → Grammar.Loading} {cause : ThemeError} {k : Nat}
  {r₁ r₂ : Registry} {call : Call}

/-! ## Runs -/

section Demands

variable [Markup.Decoders]

/-- The call in the place `i` of a run of `calls` is one under the theme `key`, and demands its
overlay. -/
def DemandAt (env : Environment) (r : Registry) (key : String) (calls : List Call) (i : Nat) :
    Prop :=
  ∃ call, calls[i]? = some call ∧ (run env r [] (calls.take i)).1.theme.key = key ∧
    call.demands (run env r [] (calls.take i)).1.theme = true

/-- The call in the place `i` of a run of `calls` is the first that demands the overlay of the theme
`key`. -/
structure FirstDemand (env : Environment) (r : Registry) (key : String) (calls : List Call)
    (i : Nat) : Prop where
  demand : DemandAt env r key calls i
  first : ∀ i' < i, ¬ DemandAt env r key calls i'

variable {env : Environment} {r : Registry} {key : String} {pre post : List Call} {i : Nat}

theorem DemandAt.lt {calls : List Call} (h : DemandAt env r key calls i) : i < calls.length := by
  obtain ⟨call, hcall, -⟩ := h
  exact (List.getElem?_eq_some_iff.1 hcall).1

theorem demandAt_append (hi : i < pre.length) :
    DemandAt env r key (pre ++ post) i ↔ DemandAt env r key pre i := by
  unfold DemandAt
  rw [List.getElem?_append_left hi, List.take_append_of_le_length (Nat.le_of_lt hi)]

theorem demandAt_length :
    DemandAt env r key (pre ++ call :: post) pre.length ↔
      (run env r [] pre).1.theme.key = key ∧ call.demands (run env r [] pre).1.theme = true := by
  unfold DemandAt
  simp

/-- The overlay is demanded for the first time by a `call` that demands it when none did before. -/
theorem firstDemand_iff :
    FirstDemand env r key (pre ++ call :: post) pre.length ↔
      ((run env r [] pre).1.theme.key = key ∧ call.demands (run env r [] pre).1.theme = true) ∧
        ¬ ∃ i, DemandAt env r key pre i := by
  constructor
  · intro h
    refine ⟨demandAt_length.1 h.demand, ?_⟩
    rintro ⟨i, hi⟩
    exact h.first i hi.lt ((demandAt_append hi.lt).2 hi)
  · rintro ⟨hdemand, hnone⟩
    exact ⟨demandAt_length.2 hdemand, fun i hi h => hnone ⟨i, (demandAt_append hi).1 h⟩⟩

theorem exists_demandAt_snoc :
    (∃ i, DemandAt env r key (pre ++ [call]) i) ↔ (∃ i, DemandAt env r key pre i) ∨
      (run env r [] pre).1.theme.key = key ∧ call.demands (run env r [] pre).1.theme = true := by
  constructor
  · rintro ⟨i, hi⟩
    have hlt := hi.lt
    rw [List.length_append, List.length_singleton] at hlt
    rcases Nat.lt_or_ge i pre.length with hlt' | hge
    · exact .inl ⟨i, (demandAt_append hlt').1 hi⟩
    · obtain rfl : i = pre.length := by omega
      exact .inr (demandAt_length.1 hi)
  · rintro (⟨i, hi⟩ | hdemand)
    · exact ⟨i, (demandAt_append hi.lt).2 hi⟩
    · exact ⟨pre.length, demandAt_length.2 hdemand⟩

/-- A run has at most one call that is its `FirstDemand`. -/
theorem FirstDemand.unique {calls : List Call} {i' : Nat} (h : FirstDemand env r key calls i)
    (h' : FirstDemand env r key calls i') : i = i' := by
  rcases Nat.lt_trichotomy i i' with hlt | heq | hgt
  · exact absurd h.demand (h'.first i hlt)
  · exact heq
  · exact absurd h'.demand (h.first i' hgt)

end Demands

section Overlays

variable [Markup.Decoders] [Wording Definition.Fault]

/-- **Every run keeps a pair**, as `Paired` has it, and the broken overlay was tried if a call
demanded it. -/
theorem paired_run {key : String} (h : Paired fetch load cause k False r₁ r₂)
    (hk : ∀ pre, (run (.fixed fetch load) r₁ [] pre).1.current = k ↔
      (run (.fixed fetch load) r₁ [] pre).1.theme.key = key)
    {calls : List Call} (hfixed : ∀ call ∈ calls, call.Fixed) :
    Paired fetch load cause k (∃ i, DemandAt (.fixed fetch load) r₁ key calls i)
      (run (.fixed fetch load) r₁ [] calls).1 (run (.fixed fetch load) r₂ [] calls).1 := by
  induction calls using List.reverseRecOn with
  | nil =>
    have hnone : (∃ i, DemandAt (.fixed fetch load) r₁ key [] i) = False := by
      refine eq_false ?_
      rintro ⟨i, hi⟩
      exact Nat.not_lt_zero i hi.lt
    rw [hnone]
    exact h
  | append_singleton calls call ih =>
    have hpaired := ih fun x hx => hfixed x (List.mem_append_left _ hx)
    obtain ⟨hnext, -⟩ := hpaired.step (hfixed call (by simp))
      (run (.fixed fetch load) r₁ [] calls).2.1 (run (.fixed fetch load) r₂ [] calls).2.1
    rw [run_append, run_append, exists_demandAt_snoc, ← hk]
    exact hnext

omit [Wording Definition.Fault] in
/-- An overlay that was demanded is settled. -/
theorem settled_run {env : Environment} {r : Registry} {key : String}
    (hk : ∀ pre, (run env r [] pre).1.current = k ↔ (run env r [] pre).1.theme.key = key)
    {calls : List Call} (h : ∃ i, DemandAt env r key calls i) :
    ∀ t, (run env r [] calls).1.themes[k]? = some t → t.isSettled = true := by
  induction calls using List.reverseRecOn with
  | nil =>
    obtain ⟨i, hi⟩ := h
    exact absurd hi.lt (Nat.not_lt_zero i)
  | append_singleton calls call ih =>
    rw [run_append]
    rcases exists_demandAt_snoc.1 h with hbefore | ⟨hkey, hdemands⟩
    · exact settled_step (ih hbefore) env _ call
    · intro t ht
      obtain ⟨t', hr', hsettled⟩ := step_settles hdemands env (run env r [] calls).2.1
      have ht' : ((run env r [] calls).1.withTheme t').themes[k]? = some t := by
        rw [← hr']
        exact ht
      rw [getElem?_withTheme, if_pos ((hk calls).2 hkey).symm] at ht'
      exact Option.some.inj ht' ▸ hsettled

/-! ## Fresh registries -/

variable {c : Catalog} {r : Registry} {key : String} {e : ThemeEntry}

theorem broken_ofEntry (hbroken : e.openOverlay fetch = .error cause) :
    Theme.Broken fetch cause (Theme.ofEntry e) (Theme.ofEntry { e with overlay := none }) := by
  refine ⟨rfl, ?_, rfl, Theme.deferring_ofEntry _ e⟩
  cases ho : e.overlay with
  | none =>
    rw [openOverlay_none ho] at hbroken
    cases hbroken
  | some resource =>
    refine ⟨resource, ho, fun j => ?_⟩
    have hopen := @openOverlay_some _ fetch e _ resource ho j e.key
    rw [hbroken] at hopen
    cases hload : (Theme.loadOverlay (.ofStore fetch) j e.key resource).2 with
    | error err =>
      rw [hload] at hopen
      obtain rfl := Except.error.inj hopen
      exact hload
    | ok m =>
      rw [hload] at hopen
      cases hopen

/-- The registries of a catalog and of the catalog `withoutOverlay` for a broken one are a pair. -/
theorem paired_ofCatalog (load : String → Bytes → Option ColorSet → Grammar.Loading)
    (hc : ofCatalog c = .ok r) {k : Nat} (he : c.themes[k]? = some e) (hkey : e.key = key)
    (hbroken : e.openOverlay fetch = .error cause) :
    ∃ r', ofCatalog (c.withoutOverlay key) = .ok r' ∧ Paired fetch load cause k False r r' := by
  obtain ⟨hv, r₁, rfl, hthemes₁, hframe₁⟩ := of_ofCatalog hc
  obtain ⟨r', hc'⟩ := exists_ofCatalog (Catalog.validate_withoutOverlay hv key)
  obtain ⟨-, r₂, rfl, hthemes₂, hframe₂⟩ := of_ofCatalog hc'
  have hnd := Catalog.keys_nodup hv
  have hkeys : r₁.themes.map (·.key) = r₂.themes.map (·.key) := by
    rw [hframe₁.keys, hframe₂.keys]
    simp [Catalog.withoutOverlay, Catalog.key_withoutOverlay]
  have hcurrent : r₁.current = r₂.current := by
    obtain ⟨e₁, he₁, hkey₁⟩ := hframe₁.entry
    obtain ⟨e₂, he₂, hkey₂⟩ := hframe₂.entry
    rw [Catalog.withoutOverlay, List.getElem?_map] at he₂
    obtain ⟨e', he', rfl⟩ := Option.map_eq_some_iff.1 he₂
    rw [Catalog.key_withoutOverlay] at hkey₂
    exact Catalog.place_unique hnd he₁ he' (hkey₁.trans hkey₂.symm)
  have hfresh : Paired fetch load cause k False r₁ r₂ := by
    refine ⟨hframe₁.builtins.trans hframe₂.builtins.symm, hcurrent, ?_, fun i t₁ t₂ h₁ h₂ => ?_⟩
    · simpa using congrArg List.length hkeys
    · rw [hthemes₁, List.getElem?_map] at h₁
      rw [hthemes₂, Catalog.withoutOverlay, List.map_map, List.getElem?_map] at h₂
      obtain ⟨e', he', rfl⟩ := Option.map_eq_some_iff.1 h₁
      rw [he'] at h₂
      obtain rfl := Option.some.inj h₂
      simp only [Function.comp_apply, ThemeEntry.withoutOverlay]
      refine ⟨fun hi => ?_, fun hi => ?_⟩
      · obtain ⟨rfl, -⟩ := hi
        obtain rfl : e = e' := Option.some.inj (he.symm.trans he')
        rw [if_pos hkey]
        exact broken_ofEntry hbroken
      · -- no other theme goes by the key
        have hne : e'.key ≠ key := fun heq =>
          hi ⟨Catalog.place_unique hnd he' he (heq.trans hkey.symm), not_false⟩
        rw [if_neg hne]
        exact Theme.twin_self (Theme.deferring_ofEntry _ e')
  refine ⟨_, hc', hfresh.withTheme (fun _ => Iff.rfl) ?_⟩
  rw [hfresh.builtins]
  exact hfresh.theme.addBuiltins r₂.builtins

/-! ## The two registries in a run -/

/-- A notice `n` that a loader gives on its own account, be it one of the catalog or one that a call
registers. -/
def LoaderGives (env : Environment) (calls : List Call) (n : Notice) : Prop :=
  ∃ loader name, loader.gives env name n ∧
    ((∃ resource, loader = .resource resource) ∨
      ∃ call ∈ calls, ∃ name', call.slot? = some (name', .deferred loader))

omit [Wording Definition.Fault] in
/-- The themes of a run defer nothing but loaders that speak for themselves. -/
theorem deferring_gives (hc : ofCatalog c = .ok r) (env : Environment) (calls : List Call) :
    ∀ t ∈ (run env r [] calls).1.themes, t.Deferring fun loader =>
      ∀ name n, loader.gives env name n → LoaderGives env calls n := by
  obtain ⟨-, r₀, rfl, hthemes, -⟩ := of_ofCatalog hc
  have hresource : ∀ resource name n, (Loader.resource resource).gives env name n →
      LoaderGives env calls n :=
    fun resource name n hn => ⟨.resource resource, name, hn, .inl ⟨resource, rfl⟩⟩
  refine deferring_run (fun t ht => ?_) hresource
    (fun call hcall name loader hslot name' n hn => ?_) env []
  · have hempty : ∀ t ∈ r₀.themes, t.Deferring fun loader =>
        ∀ name n, loader.gives env name n → LoaderGives env calls n := by
      intro t ht
      rw [hthemes] at ht
      obtain ⟨e, -, rfl⟩ := List.mem_map.1 ht
      exact Theme.deferring_ofEntry _ e
    rcases mem_withTheme ht with rfl | ht
    · exact (hempty _ (theme_mem r₀)).addBuiltins hresource _
    · exact hempty t ht
  · exact ⟨loader, name', hn, .inr ⟨call, hcall, name, hslot⟩⟩

/-- The first call that demands a broken overlay fails with its `cause` and warns of it. It leaves
everything as it was, but that the overlay is not tried again. -/
theorem step_first_demand {tried : Prop} {r' : Registry}
    (h : Paired fetch load cause k tried r r') (huntried : r.current = k ∧ ¬ tried)
    (hdemands : call.demands r.theme = true) (j : Journal) :
    (step (.fixed fetch load) r j call).2.2 = ⟨.error (.inTheme r.theme.key cause), []⟩ ∧
      (step (.fixed fetch load) r j call).1 =
        r.withTheme { r.theme with resolution := .settled none } ∧
      ∃ added : Journal, (step (.fixed fetch load) r j call).2.1 = j ++ added ∧
        added.warnings r.theme.key = [cause] := by
  have hbroken := h.theme.broken huntried
  obtain ⟨resource, hstep⟩ := @step_broken fetch load cause r call _ _ r'.theme hbroken hdemands j
  obtain ⟨ok, notices, hload, hnone⟩ :=
    Theme.loadOverlay_added (.fixed fetch load) j r.theme.key resource
  rw [hstep, hload]
  refine ⟨rfl, rfl, .opened (.overlay r.theme.key) resource ok :: List.map .noted notices ++
    [.noted (.overlayFailed r.theme.key cause)], by simp, ?_⟩
  -- what the loading notes is no warning
  have hquiet : Journal.warnings
      (.opened (.overlay r.theme.key) resource ok :: List.map .noted notices) r.theme.key = [] := by
    refine List.eq_nil_iff_forall_not_mem.2 fun err herr => ?_
    rw [Journal.mem_warnings] at herr
    exact hnone r.theme.key err (by simpa using herr)
  rw [Journal.warnings_append, hquiet]
  simp [Journal.warnings]

/-- **A broken overlay is as good as none.** Take a catalog in which the overlay of a theme cannot
be loaded, and the catalog with no overlay for that theme. Run the same calls on the registries of
both, over one store and with loaders that look at nothing but the colours. The results are the same
but for one call at most: the first one that demands the broken overlay. That call fails with the
cause, gives nothing to a sink, warns of the overlay and leaves every grammar as it was. No other
call warns of it, short of a loader that does. -/
theorem broken_overlay_degrades (hc : ofCatalog c = .ok r) (he : c.theme? key = some e)
    (hbroken : e.openOverlay fetch = .error cause)
    (load : String → Bytes → Option ColorSet → Grammar.Loading) :
    ∃ r', ofCatalog (c.withoutOverlay key) = .ok r' ∧
      ∀ calls : List Call, (∀ call ∈ calls, call.Fixed) →
        let env := Environment.fixed fetch load
        (∀ i i', FirstDemand env r key calls i → FirstDemand env r key calls i' → i = i') ∧
        ∀ pre call post, calls = pre ++ call :: post →
          (FirstDemand env r key calls pre.length →
            (run env r [] calls).2.2[pre.length]? = some ⟨.error (.inTheme key cause), []⟩ ∧
            (run env r [] (pre ++ [call])).1 = (run env r [] pre).1.withTheme
              { (run env r [] pre).1.theme with resolution := .settled none } ∧
            ∃ added : Journal,
              (run env r [] (pre ++ [call])).2.1 = (run env r [] pre).2.1 ++ added ∧
              added.warnings key = [cause]) ∧
          (¬ FirstDemand env r key calls pre.length →
            (run env r [] calls).2.2[pre.length]? = (run env r' [] calls).2.2[pre.length]? ∧
            ∃ added : Journal,
              (run env r [] (pre ++ [call])).2.1 = (run env r [] pre).2.1 ++ added ∧
              ∀ err ∈ added.warnings key, LoaderGives env pre (.overlayFailed key err)) := by
  obtain ⟨hv, -⟩ := of_ofCatalog hc
  have hnd := Catalog.keys_nodup hv
  obtain ⟨hkey, k, hk, hget, -⟩ := List.find?_eq_some_iff_getElem.1 he
  rw [beq_iff_eq] at hkey
  have hek : c.themes[k]? = some e := by rw [List.getElem?_eq_getElem hk, hget]
  obtain ⟨r', hc', hpaired⟩ := paired_ofCatalog load hc hek hkey hbroken
  -- the theme is current exactly if its place is
  have hcurrent : ∀ pre, (run (.fixed fetch load) r [] pre).1.current = k ↔
      (run (.fixed fetch load) r [] pre).1.theme.key = key := by
    intro pre
    have hframe := frame_run (frame_ofCatalog hc) (.fixed fetch load) [] pre
    rw [← hkey]
    exact hframe.current_iff hnd hek
  refine ⟨r', hc', fun calls hfixed => ⟨fun i i' => FirstDemand.unique, ?_⟩⟩
  rintro pre call post rfl
  have hpre : ∀ x ∈ pre, x.Fixed := fun x hx => hfixed x (List.mem_append_left _ hx)
  have hcall : call.Fixed := hfixed call (by simp)
  have hpair := paired_run hpaired hcurrent hpre
  rw [getElem?_run, getElem?_run, run_append, firstDemand_iff]
  refine ⟨fun hfirst => ?_, fun hother => ?_⟩
  · obtain ⟨⟨hunder, hdemands⟩, huntried⟩ := hfirst
    obtain ⟨hresult, hstate, hadded⟩ := step_first_demand hpair
      ⟨(hcurrent pre).2 hunder, huntried⟩ hdemands (run (.fixed fetch load) r [] pre).2.1
    rw [hunder] at hresult hadded
    exact ⟨congrArg some hresult, hstate, hadded⟩
  · obtain ⟨-, hresult⟩ := hpair.step hcall (run (.fixed fetch load) r [] pre).2.1
      (run (.fixed fetch load) r' [] pre).2.1
    refine ⟨congrArg some (hresult ?_), ?_⟩
    · rwa [hcurrent]
    · -- the theme is settled if the overlay is demanded again
      refine step_warnings key (deferring_gives hc _ pre _ (theme_mem _))
        (fun hunder hdemands => ?_) _
      have htried : ∃ i, DemandAt (.fixed fetch load) r key pre i := by
        by_contra hnone
        exact hother ⟨⟨hunder, hdemands⟩, hnone⟩
      refine settled_run hcurrent htried _ ?_
      rw [← (hcurrent pre).2 hunder]
      exact getElem?_current _

end Overlays

/-- A night theme whose overlay is not there: the first look-up fails, and the second one is as if
there were no overlay. -/
theorem broken_overlay_night :
    let c : Catalog := ⟨"Day", [⟨"Day", "", "day", none⟩, ⟨"Night", "", "night", some ⟨"o", "n"⟩⟩],
      [⟨"Json", [".json"], "Json.xshd"⟩]⟩
    let fetch : ResourceName → Except ThemeError Bytes := fun r => .error (.resourceNotFound r)
    let env := Environment.fixed fetch Grammar.load
    let calls : List Call := [.select "Night", .definition "Json", .definition "Json"]
    ∃ r r', ofCatalog c = .ok r ∧ ofCatalog (c.withoutOverlay "Night") = .ok r' ∧
      (run env r [] calls).2.2[1]? =
        some ⟨.error (.inTheme "Night" (.resourceNotFound ⟨"o", "n"⟩)), []⟩ ∧
      (run env r [] calls).2.2[2]? = (run env r' [] calls).2.2[2]? := by
  intro c fetch env calls
  have hv : c.validate = .ok () := by
    simp [c, Catalog.validate, Catalog.defect?, Catalog.themesDefect?, Catalog.themeDefect?,
      Catalog.isComplete, Catalog.currentDefect?, Catalog.grammarsDefect?, Catalog.grammarDefect?]
  obtain ⟨r, hc⟩ := exists_ofCatalog hv
  have he : c.theme? "Night" = some ⟨"Night", "", "night", some ⟨"o", "n"⟩⟩ := by
    simp [c, Catalog.theme?]
  obtain ⟨r', hc', hruns⟩ :=
    @broken_overlay_degrades fetch _ _ _ c r "Night" _ hc he rfl Grammar.load
  have hfixed : ∀ call ∈ calls, call.Fixed := by
    intro call hcall
    simp only [calls, List.mem_cons, List.not_mem_nil, or_false] at hcall
    rcases hcall with rfl | rfl | rfl
    all_goals trivial
  obtain ⟨hunique, hcalls⟩ := hruns calls hfixed
  -- the grammar is still deferred when the night theme has become current
  have hfirst : FirstDemand env r "Night" calls 1 := by
    have hstate : ((ofCatalog c).toOption.map fun r =>
        ((run env r [] [.select "Night"]).1.theme.key,
          (run env r [] [.select "Night"]).1.theme.grammars.meetsDeferred ["Json"])) =
        some ("Night", true) := by decide
    rw [hc] at hstate
    obtain ⟨hkey, hdeferred⟩ := Prod.mk.inj (Option.some.inj hstate)
    refine (@firstDemand_iff (.definition "Json") _ env r "Night" [.select "Night"]
      [.definition "Json"]).2 ⟨⟨hkey, hdeferred⟩, ?_⟩
    rintro ⟨i, call, hcall, -, hdemands⟩
    obtain rfl : call = .select "Night" := List.mem_singleton.1 (List.mem_of_getElem? hcall)
    cases hdemands
  have hsecond : ¬ FirstDemand env r "Night" calls 2 :=
    fun h => absurd (hunique 1 2 hfirst h) (by decide)
  obtain ⟨hfails, -⟩ := hcalls [.select "Night"] (.definition "Json") [.definition "Json"] rfl
  obtain ⟨-, hother⟩ := hcalls [.select "Night", .definition "Json"] (.definition "Json") [] rfl
  exact ⟨r, r', hc, hc', (hfails hfirst).1, (hother hsecond).1⟩

end Registry

end Livery
