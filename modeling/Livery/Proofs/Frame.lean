import Livery.Proofs.Moves
import Livery.Proofs.Validation

/-!
# What every run leaves alone

A registry keeps the themes that its catalog declares, in their order, and which of them is current
is a matter of the calls alone. This is so in every environment.

* `Registry.Frame.step`: a call keeps the themes, and makes the right one current.
* `Registry.frame_run`: so does every run.
-/

namespace Livery

/-! ## Which theme is current -/

/-- The key of the current theme behind `call`, where it was `current` before. -/
def Catalog.currentBehind (c : Catalog) (current : String) (call : Registry.Call) : String :=
  match call.selects? with
  | some key => if key ∈ c.themes.map (·.key) then key else current
  | none => current

/-- The key of the current theme behind `calls` on a registry of `c`. -/
def Catalog.currentAfter (c : Catalog) (calls : List Registry.Call) : String :=
  calls.foldl c.currentBehind c.current

theorem Catalog.currentAfter_snoc (c : Catalog) (calls : List Registry.Call)
    (call : Registry.Call) :
    c.currentAfter (calls ++ [call]) = c.currentBehind (c.currentAfter calls) call := by
  simp [currentAfter]

/-- A key has one place in the catalog `c`. -/
theorem Catalog.place_unique {c : Catalog} (hnd : (c.themes.map (·.key)).Nodup) {i k : Nat}
    {e e' : ThemeEntry} (he : c.themes[i]? = some e) (he' : c.themes[k]? = some e')
    (hkey : e.key = e'.key) : i = k := by
  have hlt : i < (c.themes.map (·.key)).length := by
    rw [List.length_map]
    exact (List.getElem?_eq_some_iff.1 he).1
  refine (List.getElem?_inj hlt hnd).1 ?_
  simp [he, he', hkey]

/-- A theme is found by its key with `theme?`. -/
theorem Catalog.theme?_of_getElem? {c : Catalog} (hnd : (c.themes.map (·.key)).Nodup) {i : Nat}
    {e : ThemeEntry} (he : c.themes[i]? = some e) : c.theme? e.key = some e := by
  obtain ⟨hi, hget⟩ := List.getElem?_eq_some_iff.1 he
  refine List.find?_eq_some_iff_getElem.2 ⟨by simp, i, hi, hget, fun k hk => ?_⟩
  have hk' : c.themes[k]? = some c.themes[k] := List.getElem?_eq_getElem (Nat.lt_trans hk hi)
  have hne : c.themes[k].key ≠ e.key := fun hkey =>
    Nat.ne_of_lt hk (place_unique hnd hk' he hkey)
  simp [hne]

namespace Registry

variable {env : Environment} {c : Catalog} {calls : List Call} {r r' : Registry} {j j' : Journal}

/-! ## The themes of a registry -/

theorem getElem?_current (r : Registry) : r.themes[r.current]? = some r.theme :=
  List.getElem?_eq_getElem r.current_lt

theorem getElem?_withTheme (r : Registry) (t : Theme) (i : Nat) :
    (r.withTheme t).themes[i]? = if i = r.current then some t else r.themes[i]? := by
  simp only [withTheme, List.getElem?_set, eq_comm (a := i)]
  split
  · next h => simp [r.current_lt]
  · rfl

theorem entries_withTheme (r : Registry) {t : Theme} (ht : t.entry = r.theme.entry) :
    (r.withTheme t).themes.map (·.entry) = r.themes.map (·.entry) := by
  apply List.ext_getElem?
  intro i
  simp only [List.getElem?_map, getElem?_withTheme]
  split
  · next h => rw [h, getElem?_current]; simp [ht]
  · rfl

theorem indexOf?_some {themes : List Theme} {key : String}
    {i : { i : Nat // i < themes.length }} (h : indexOf? themes key = some i) :
    themes[i.1].key = key := by
  unfold indexOf? at h
  split at h
  · cases h
  · next k hk =>
    obtain rfl := Option.some.inj h
    simpa using (List.findIdx?_eq_some_iff_getElem.1 hk).2.1

theorem indexOf?_none {themes : List Theme} {key : String} (h : indexOf? themes key = none) :
    key ∉ themes.map (·.key) := by
  unfold indexOf? at h
  split at h
  · next hk =>
    intro hmem
    obtain ⟨t, ht, hkey⟩ := List.mem_map.1 hmem
    have := List.findIdx?_eq_none_iff.1 hk t ht
    simp [hkey] at this
  · cases h

theorem entry_addBuiltin (t : Theme) (b : BuiltinGrammar) : (addBuiltin t b).entry = t.entry := by
  unfold addBuiltin
  split
  · rfl
  · rfl

theorem entry_foldl_addBuiltin (t : Theme) (bs : List BuiltinGrammar) :
    (bs.foldl addBuiltin t).entry = t.entry := by
  induction bs generalizing t with
  | nil => rfl
  | cons b bs ih => rw [List.foldl_cons, ih, entry_addBuiltin]

/-! ## The frame -/

/-- The registry `r` has the themes of the catalog `c`, and the one that `calls` ask for is
current. -/
structure Frame (c : Catalog) (calls : List Call) (r : Registry) : Prop where
  builtins : r.builtins = c.grammars
  entries : r.themes.map (·.entry) = c.themes.map fun e => (Theme.ofEntry e).entry
  current : r.theme.key = c.currentAfter calls

theorem Frame.keys (h : Frame c calls r) : r.themes.map (·.key) = c.themes.map (·.key) := by
  have hfst := congrArg (List.map Prod.fst) h.entries
  rwa [List.map_map, List.map_map] at hfst

/-- Every theme of `r` is declared by the entry in its place. -/
theorem Frame.declared (h : Frame c calls r) {i : Nat} {t : Theme} (ht : r.themes[i]? = some t) :
    ∃ e, c.themes[i]? = some e ∧ t.entry = (Theme.ofEntry e).entry := by
  have hi := congrArg (·[i]?) h.entries
  simp only [List.getElem?_map, ht, Option.map_some] at hi
  obtain ⟨e, he, hentry⟩ := Option.map_eq_some_iff.1 hi.symm
  exact ⟨e, he, hentry.symm⟩

/-- The entry of the theme at `r.current`. -/
theorem Frame.entry (h : Frame c calls r) :
    ∃ e, c.themes[r.current]? = some e ∧ e.key = c.currentAfter calls := by
  obtain ⟨e, he, hentry⟩ := h.declared (getElem?_current r)
  have hkey : r.theme.key = e.key := congrArg Prod.fst hentry
  exact ⟨e, he, hkey.symm.trans h.current⟩

/-- Only the current theme goes by the key that `currentAfter` gives. -/
theorem Frame.key_ne (h : Frame c calls r) (hnd : (c.themes.map (·.key)).Nodup)
    {i : Nat} {e : ThemeEntry} (he : c.themes[i]? = some e) (hi : i ≠ r.current) :
    e.key ≠ c.currentAfter calls := by
  intro heq
  obtain ⟨e', he', hkey⟩ := h.entry
  exact hi (Catalog.place_unique hnd he he' (heq.trans hkey.symm))

/-- A theme is `r.current` exactly if the current theme goes by its key. -/
theorem Frame.current_iff (h : Frame c calls r) (hnd : (c.themes.map (·.key)).Nodup)
    {i : Nat} {e : ThemeEntry} (he : c.themes[i]? = some e) :
    r.current = i ↔ r.theme.key = e.key := by
  obtain ⟨e', he', hkey⟩ := h.entry
  have htheme : r.theme.key = e'.key := h.current.trans hkey.symm
  rw [htheme]
  constructor
  · rintro rfl
    rw [Option.some.inj (he'.symm.trans he)]
  · exact Catalog.place_unique hnd he' he

/-- The current theme may change to `t` in all but what it is declared with. -/
theorem Frame.withTheme (h : Frame c calls r) {t : Theme} (ht : t.entry = r.theme.entry) :
    Frame c calls (r.withTheme t) := by
  have hkey : t.key = r.theme.key := congrArg Prod.fst ht
  refine ⟨h.builtins, (entries_withTheme r ht).trans h.entries, ?_⟩
  rw [theme_withTheme, hkey, h.current]

theorem Frame.addBuiltins (h : Frame c calls r) : Frame c calls (addBuiltins r) :=
  h.withTheme (entry_foldl_addBuiltin r.theme r.builtins)

/-- A `call` that selects no theme leaves the current one. -/
theorem Frame.stay (h : Frame c calls r) {call : Call} (hsel : call.selects? = none) :
    Frame c (calls ++ [call]) r := by
  refine ⟨h.builtins, h.entries, ?_⟩
  rw [h.current, Catalog.currentAfter_snoc, Catalog.currentBehind, hsel]

theorem Frame.select (h : Frame c calls r) {key : String}
    {i : { i : Nat // i < r.themes.length }} (hi : indexOf? r.themes key = some i) :
    Frame c (calls ++ [.select key]) { r with current := i.1, current_lt := i.2 } := by
  have hkey := indexOf?_some hi
  have hmem : key ∈ c.themes.map (·.key) := by
    rw [← h.keys, ← hkey]
    exact List.mem_map_of_mem (List.getElem_mem i.2)
  refine ⟨h.builtins, h.entries, ?_⟩
  rw [Catalog.currentAfter_snoc, Catalog.currentBehind]
  simp only [Call.selects?, if_pos hmem]
  exact hkey

theorem Frame.unknown (h : Frame c calls r) {key : String} (hi : indexOf? r.themes key = none) :
    Frame c (calls ++ [.select key]) r := by
  have hmem : key ∉ c.themes.map (·.key) := h.keys ▸ indexOf?_none hi
  refine ⟨h.builtins, h.entries, ?_⟩
  rw [h.current, Catalog.currentAfter_snoc, Catalog.currentBehind]
  simp only [Call.selects?, if_neg hmem]

/-- **A call keeps the themes**, and makes the right one current. -/
theorem Frame.step [Markup.Decoders] (h : Frame c calls r) {call : Call}
    (hstep : Step env r j call r' j') : Frame c (calls ++ [call]) r' := by
  cases hstep with
  | look hreg hsel hm => exact (h.stay hsel).withTheme hm.entry_eq
  | register extensions slot hreg hsel => exact (h.stay hsel).withTheme rfl
  | select hi => exact (h.select hi).addBuiltins
  | unknown hi => exact h.unknown hi

/-! ## Runs -/

/-- The calls `pre` and then the calls `post`. -/
theorem run_append [Markup.Decoders] (env : Environment) (r : Registry) (j : Journal)
    (pre post : List Call) :
    run env r j (pre ++ post) =
      ((run env (run env r j pre).1 (run env r j pre).2.1 post).1,
        (run env (run env r j pre).1 (run env r j pre).2.1 post).2.1,
        (run env r j pre).2.2 ++ (run env (run env r j pre).1 (run env r j pre).2.1 post).2.2) := by
  induction pre generalizing r j with
  | nil => rfl
  | cons call pre ih => simp only [List.cons_append, run, ih]

/-- Every call of a `run` has a result. -/
theorem length_run [Markup.Decoders] (env : Environment) (r : Registry) (j : Journal)
    (calls : List Call) : (run env r j calls).2.2.length = calls.length := by
  induction calls generalizing r j with
  | nil => rfl
  | cons call calls ih => simp only [run, List.length_cons, ih]

/-- What comes out of the call `call` of a run. -/
theorem getElem?_run [Markup.Decoders] (env : Environment) (r : Registry) (j : Journal)
    (pre post : List Call) (call : Call) : (run env r j (pre ++ call :: post)).2.2[pre.length]? =
      some (step env (run env r j pre).1 (run env r j pre).2.1 call).2.2 := by
  have hlen := length_run env r j pre
  simp only [run_append]
  rw [List.getElem?_append_right (Nat.le_of_eq hlen), hlen, Nat.sub_self]
  rfl

/-- **A run keeps the themes**, and makes the right one current. -/
theorem frame_run [Markup.Decoders] (h : Frame c calls r) (env : Environment) (j : Journal)
    (more : List Call) : Frame c (calls ++ more) (run env r j more).1 := by
  induction more generalizing calls r j with
  | nil => rw [List.append_nil]; exact h
  | cons call more ih =>
    have := ih (h.step (step_cases env r j call)) (Registry.step env r j call).2.1
    rwa [List.append_assoc, List.singleton_append] at this

/-! ## Fresh registries -/

/-- A registry is made of every valid catalog. -/
theorem exists_ofCatalog (hv : c.validate = .ok ()) : ∃ r, ofCatalog c = .ok r := by
  unfold ofCatalog
  rw [hv]
  simp only
  split
  · next hi =>
    exact absurd (Catalog.of_validate hv).2.1 (by simpa [Theme.ofEntry] using indexOf?_none hi)
  · exact ⟨_, rfl⟩

/-- A fresh registry is that of a valid catalog, with the grammars of the catalog deferred in the
current theme. -/
theorem of_ofCatalog (hc : ofCatalog c = .ok r) :
    c.validate = .ok () ∧ ∃ r₀, r = Registry.addBuiltins r₀ ∧
      r₀.themes = c.themes.map Theme.ofEntry ∧ Frame c [] r₀ := by
  unfold ofCatalog at hc
  split at hc
  · cases hc
  next hv =>
  simp only at hc
  split at hc
  · cases hc
  next i hi =>
  refine ⟨hv, _, (Except.ok.inj hc).symm, rfl, rfl, ?_, indexOf?_some hi⟩
  simp [Theme.ofEntry]

theorem frame_ofCatalog (hc : ofCatalog c = .ok r) : Frame c [] r := by
  obtain ⟨-, r₀, rfl, -, hframe⟩ := of_ofCatalog hc
  exact hframe.addBuiltins

end Registry

end Livery
