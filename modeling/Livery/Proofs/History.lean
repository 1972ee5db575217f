import Livery.Libraries
import Livery.Proofs.Caches
import Livery.Proofs.Frame

/-!
# Built-in grammars do not depend on history

Over a fixed store, what a look-up of a built-in grammar gives is a value of the catalog and the
store, whatever calls came before it; only the call that first tries an overlay which cannot be
loaded gets that failure instead.

* `Registry.Follows.step`: a call keeps every theme's caches right.
* `Registry.follows_run`: so does every run.
* `Registry.definition_history_independent`: the answer to every look-up of a built-in grammar in a
  run.
-/

namespace Livery

/-! ## What a history says -/

/-- What some calls register: the key of the theme that is `current` and the name, in order. -/
def Catalog.registrationsFrom (c : Catalog) : String → List Registry.Call → List (String × String)
  | _, [] => []
  | current, call :: calls =>
    (call.registers?.map (current, ·)).toList ++
      c.registrationsFrom (c.currentBehind current call) calls

/-- What `calls` on a fresh registry of `c` register. -/
def Catalog.registrations (c : Catalog) (calls : List Registry.Call) : List (String × String) :=
  c.registrationsFrom c.current calls

/-- The answer to a look-up of the `i`-th built-in grammar, where `tried` tells whether the overlay
was tried before. -/
def ThemeEntry.answer [Markup.Decoders] [Wording Definition.Fault]
    (fetch : ResourceName → Except ThemeError Bytes)
    (e : ThemeEntry) (tried : Bool) (i : Nat) (b : BuiltinGrammar) : Except ThemeError Handle :=
  match e.openOverlay fetch, tried with
  | .error cause, false => .error (.inTheme e.key cause)
  | _, _ => (e.builtin fetch b).map (⟨e.key, i, ·⟩)

theorem Catalog.registrations_snoc (c : Catalog) (calls : List Registry.Call)
    (call : Registry.Call) :
    c.registrations (calls ++ [call]) =
      c.registrations calls ++ (call.registers?.map (c.currentAfter calls, ·)).toList := by
  unfold registrations currentAfter
  generalize c.current = current
  induction calls generalizing current with
  | nil => simp [registrationsFrom]
  | cons a calls ih =>
    simp only [List.cons_append, registrationsFrom, List.foldl_cons, ih, List.append_assoc]

/-- The name `name` was registered under the theme `key`. -/
def Catalog.Registered (c : Catalog) (calls : List Registry.Call) (key name : String) : Prop :=
  (key, name) ∈ c.registrations calls

theorem Catalog.registered_of_none {c : Catalog} {calls : List Registry.Call}
    {call : Registry.Call} (h : call.registers? = none) (key : String) :
    c.Registered (calls ++ [call]) key = c.Registered calls key := by
  funext name
  simp [Registered, registrations_snoc, h]

theorem Catalog.registered_of_some {c : Catalog} {calls : List Registry.Call}
    {call : Registry.Call} {name : String} (h : call.registers? = some name) (key : String) :
    c.Registered (calls ++ [call]) key = fun n =>
      c.Registered calls key n ∨ key = c.currentAfter calls ∧ n = name := by
  funext n
  simp [Registered, registrations_snoc, h]

/-! ## The answer of one theme -/

theorem ThemeEntry.answer_tried [Markup.Decoders] [Wording Definition.Fault]
    (fetch : ResourceName → Except ThemeError Bytes) (e : ThemeEntry)
    (i : Nat) (b : BuiltinGrammar) :
    e.answer fetch true i b = (e.builtin fetch b).map (⟨e.key, i, ·⟩) := by
  unfold answer
  cases e.openOverlay fetch <;> rfl

theorem ThemeEntry.answer_ok [Markup.Decoders] [Wording Definition.Fault]
    {fetch : ResourceName → Except ThemeError Bytes} {e : ThemeEntry}
    {m : Option Overlay.Model} (h : e.openOverlay fetch = .ok m) (tried : Bool) (i : Nat)
    (b : BuiltinGrammar) :
    e.answer fetch tried i b = (e.builtin fetch b).map (⟨e.key, i, ·⟩) := by
  unfold answer
  rw [h]

theorem ThemeEntry.answer_error [Markup.Decoders] [Wording Definition.Fault]
    {fetch : ResourceName → Except ThemeError Bytes} {e : ThemeEntry}
    {cause : ThemeError} (h : e.openOverlay fetch = .error cause) (i : Nat) (b : BuiltinGrammar) :
    e.answer fetch false i b = .error (.inTheme e.key cause) := by
  unfold answer
  rw [h]

namespace Theme

variable {fetch : ResourceName → Except ThemeError Bytes} {c : Catalog} {e : ThemeEntry}
  {replaced : String → Prop} {t : Theme} {j : Journal}

variable [Markup.Decoders] [Wording Definition.Fault]

/-- A settled theme has no failure of the overlay to report any more. -/
theorem Follows.answer_settled (h : Follows fetch c e replaced t j) (hset : t.isSettled = true)
    (i : Nat) (b : BuiltinGrammar) :
    e.answer fetch (j.tried e.key) i b = (e.builtin fetch b).map (⟨e.key, i, ·⟩) := by
  unfold isSettled at hset
  split at hset
  · cases hset
  · next m hres =>
    cases ho : e.overlay with
    | none => exact ThemeEntry.answer_ok (openOverlay_none ho) ..
    | some r => rw [(h.settled m hres).2 (by simp [ho]), ThemeEntry.answer_tried]

/-- What the loader of the grammar `b` gives once there is a model. -/
theorem loadDeferred_result (b : BuiltinGrammar) (i : Nat) (hkey : t.key = e.key) :
    (t.loadDeferred (.ofStore fetch) j b.name i (.resource ⟨e.basePrefix, b.resource⟩)
      ((e.model? fetch).bind (·.colorSet? b.name))).result =
    ((e.builtin fetch b).map (⟨e.key, i, ·⟩ : Grammar → Handle)).map some := by
  rw [builtin_eq_runLoader b j t.key i]
  rcases loadDeferred_cases (.ofStore fetch) j t b.name i (.resource ⟨e.basePrefix, b.resource⟩)
    ((e.model? fetch).bind (·.colorSet? b.name)) with ⟨g, hl, he⟩ | ⟨err, hl, he⟩
  · rw [he, hl, hkey]; rfl
  · rw [he, hl]; rfl

/-- A theme that follows the pure functions answers with them. -/
theorem Follows.definition_result (h : Follows fetch c e replaced t j)
    (hs : Stocked fetch c e replaced t) {i : Nat} {b : BuiltinGrammar}
    (hb : c.grammars[i]? = some b) (hr : ¬ replaced b.name) :
    (t.definition (.ofStore fetch) j b.name).result =
      (e.answer fetch (j.tried e.key) i b).map some := by
  obtain ⟨slot, hg, hslot⟩ := hs.slots i b hb hr
  unfold definition
  rw [hg]
  cases slot with
  | loaded g => rw [h.answer_settled hslot.1, hslot.2, h.key]; rfl
  | failed err => rw [h.answer_settled hslot.1, hslot.2]; rfl
  | deferred loader =>
    cases loader with
    | custom load => exact hslot.elim
    | resource r =>
      obtain rfl : r = _ := hslot
      have hmodel : ∀ m, (t.resolve (.ofStore fetch) j).result = .ok m → m = e.model? fetch :=
        fun m hm => (h.resolve.settled m (resolve_settled hm)).1
      -- the model is there, or there is no overlay, or its overlay is loaded or fails
      rcases resolve_cases (.ofStore fetch) j t with
        ⟨m, hres, he⟩ | ⟨hres, ho, he⟩ | ⟨r, hres, ho, ⟨m, hl, he⟩ | ⟨err, hl, he⟩⟩
      · rw [he] at hmodel
        rw [he, h.answer_settled (by simp [isSettled, hres]), hmodel m rfl]
        exact loadDeferred_result b i h.key
      · rw [he] at hmodel
        rw [he, hmodel none rfl, ThemeEntry.answer_ok (openOverlay_none (h.overlay.symm.trans ho))]
        exact loadDeferred_result b i h.key
      · rw [he] at hmodel
        have hopen := @openOverlay_some _ fetch e _ r (h.overlay.symm.trans ho) j t.key
        rw [hl] at hopen
        rw [he, hmodel (some m) rfl, ThemeEntry.answer_ok hopen]
        exact loadDeferred_result b i h.key
      · have hopen := @openOverlay_some _ fetch e _ r (h.overlay.symm.trans ho) j t.key
        rw [hl] at hopen
        rw [he, h.pending hres, ThemeEntry.answer_error hopen, h.key]
        rfl

end Theme

/-! ## Registries that follow the pure functions -/

namespace Registry

variable {fetch : ResourceName → Except ThemeError Bytes} {c : Catalog} {calls : List Call}
  {r : Registry} {j : Journal}

section Runs

variable [Markup.Decoders] [Wording Definition.Fault]

/-- The registry `r` behind `calls`: the right theme is current, every theme has nothing cached but
right values, and the current one has the grammars of the catalog. -/
structure Follows (fetch : ResourceName → Except ThemeError Bytes) (c : Catalog)
    (calls : List Call) (r : Registry) (j : Journal) : Prop extends Frame c calls r where
  themes : ∀ (i : Nat) e t, c.themes[i]? = some e → r.themes[i]? = some t →
    Theme.Follows fetch c e (c.Registered calls e.key) t j
  stocked : ∀ e, c.themes[r.current]? = some e →
    Theme.Stocked fetch c e (c.Registered calls e.key) r.theme

/-- A look-up keeps a registry right. -/
theorem Follows.look (h : Follows fetch c calls r j) (hnd : (c.themes.map (·.key)).Nodup)
    {call : Call} {t : Theme} {j' : Journal} (hreg : call.registers? = none)
    (hsel : call.selects? = none) (hm : Theme.Moves (.ofStore fetch) r.theme j t j') :
    Follows fetch c (calls ++ [call]) (r.withTheme t) j' := by
  refine ⟨h.toFrame.step (.look hreg hsel hm), fun i e t' he ht' => ?_, fun e he => ?_⟩
  · rw [Catalog.registered_of_none hreg]
    rw [getElem?_withTheme] at ht'
    split at ht'
    · next hi =>
      obtain rfl := Option.some.inj ht'
      exact (h.themes _ e r.theme (hi ▸ he) (getElem?_current r)).moves hm
    · next hi =>
      -- what is done under the current theme does not try the overlay of another one
      have hne := h.key_ne hnd he hi
      exact (h.themes i e t' he ht').of_tried_eq
        (hm.tried_eq fun heq => hne (heq.symm.trans h.current))
  · rw [Catalog.registered_of_none hreg, theme_withTheme]
    exact (h.stocked e he).moves (h.themes _ e r.theme he (getElem?_current r)) hm

/-- A registration keeps a registry right, apart from what it registers under `name`. -/
theorem Follows.register (h : Follows fetch c calls r j) (hnd : (c.themes.map (·.key)).Nodup)
    {call : Call} {name : String} (extensions : List String) (slot : GrammarSlot)
    (hreg : call.registers? = some name) (hsel : call.selects? = none) :
    Follows fetch c (calls ++ [call])
      (r.withTheme { r.theme with
        grammars := r.theme.grammars.register name extensions slot }) j := by
  obtain ⟨e₀, he₀, hkey₀⟩ := h.entry
  have hstock : Theme.Stocked fetch c e₀ (c.Registered (calls ++ [call]) e₀.key)
      { r.theme with grammars := r.theme.grammars.register name extensions slot } := by
    rw [Catalog.registered_of_some hreg]
    simpa [hkey₀] using (h.stocked e₀ he₀).register name extensions slot
  refine ⟨(h.toFrame.stay hsel).withTheme rfl, fun i e t' he ht' => ?_, fun e he => ?_⟩
  · rw [getElem?_withTheme] at ht'
    split at ht'
    · next hi =>
      obtain rfl := Option.some.inj ht'
      obtain rfl : e₀ = e := Option.some.inj (he₀.symm.trans (hi ▸ he))
      have ht := h.themes _ e₀ r.theme he₀ (getElem?_current r)
      exact ⟨ht.declared, ht.pending, ht.settled, .inr hstock⟩
    · next hi =>
      rw [Catalog.registered_of_some hreg]
      simpa [h.key_ne hnd he hi] using h.themes i e t' he ht'
  · obtain rfl : e₀ = e := Option.some.inj (he₀.symm.trans he)
    rw [theme_withTheme]
    exact hstock

/-- Filling the current theme up makes a registry right whose themes are. -/
theorem follows_addBuiltins (hnames : (c.grammars.map (·.name)).Nodup) (hframe : Frame c calls r)
    (hthemes : ∀ (i : Nat) e t, c.themes[i]? = some e → r.themes[i]? = some t →
      Theme.Follows fetch c e (c.Registered calls e.key) t j) :
    Follows fetch c calls (addBuiltins r) j := by
  have hfill : ∀ e, c.themes[r.current]? = some e → _ := fun e he =>
    (hthemes _ e r.theme he (getElem?_current r)).addBuiltins hnames
  refine ⟨hframe.addBuiltins, fun i e t' he ht' => ?_, fun e he => ?_⟩
  · rw [addBuiltins, getElem?_withTheme] at ht'
    split at ht'
    · next hi =>
      obtain rfl := Option.some.inj ht'
      rw [hframe.builtins]
      exact (hfill e (hi ▸ he)).1
    · exact hthemes i e t' he ht'
  · rw [addBuiltins, theme_withTheme, hframe.builtins]
    exact (hfill e he).2

/-- **A call keeps a registry right.** -/
theorem Follows.step (h : Follows fetch c calls r j) (hnd : (c.themes.map (·.key)).Nodup)
    (hnames : (c.grammars.map (·.name)).Nodup) (call : Call) :
    Follows fetch c (calls ++ [call]) (step (.ofStore fetch) r j call).1
      (step (.ofStore fetch) r j call).2.1 := by
  have hstep := step_cases (.ofStore fetch) r j call
  -- which call it is does not matter, but only what kind of step it takes
  generalize (Registry.step (.ofStore fetch) r j call).1 = r' at hstep ⊢
  generalize (Registry.step (.ofStore fetch) r j call).2.1 = j' at hstep ⊢
  cases hstep with
  | look hreg hsel hm => exact h.look hnd hreg hsel hm
  | register extensions slot hreg hsel => exact h.register hnd extensions slot hreg hsel
  | @select key i hi =>
    refine follows_addBuiltins hnames (h.toFrame.select hi) fun k e t he ht => ?_
    rw [@Catalog.registered_of_none c calls (.select key) rfl]
    exact (h.themes k e t he ht).of_tried_eq (by simp)
  | @unknown key hi =>
    refine ⟨h.toFrame.unknown hi, fun k e t he ht => ?_, fun e he => ?_⟩
    · rw [@Catalog.registered_of_none c calls (.select key) rfl]; exact h.themes k e t he ht
    · rw [@Catalog.registered_of_none c calls (.select key) rfl]; exact h.stocked e he

/-! ## Runs -/

theorem follows_run (h : Follows fetch c calls r j) (hnd : (c.themes.map (·.key)).Nodup)
    (hnames : (c.grammars.map (·.name)).Nodup) (more : List Call) :
    Follows fetch c (calls ++ more) (run (.ofStore fetch) r j more).1
      (run (.ofStore fetch) r j more).2.1 := by
  induction more generalizing calls r j with
  | nil => rw [List.append_nil]; exact h
  | cons call more ih =>
    have := ih (h.step hnd hnames call)
    rwa [List.append_assoc, List.singleton_append] at this

/-- A fresh registry has nothing cached. -/
theorem follows_ofCatalog (hc : ofCatalog c = .ok r) :
    c.validate = .ok () ∧ Follows fetch c [] r [] := by
  obtain ⟨hv, r₀, rfl, hthemes, hframe⟩ := of_ofCatalog hc
  refine ⟨hv, follows_addBuiltins (Catalog.grammarNames_nodup hv) hframe fun k e t he ht => ?_⟩
  obtain rfl : Theme.ofEntry e = t := by simpa [hthemes, he] using ht
  exact ⟨rfl, fun _ => rfl, by rintro m ⟨⟩, .inl rfl⟩

/-- **The built-in grammars do not depend on history.** Take any calls on a registry of a catalog
over a fixed store, and among them a look-up of a built-in grammar that no call before it registered
anew under the theme then current. The answer is the one of the theme's entry in the catalog, where
all that counts of the calls before is whether the overlay of that theme was tried. -/
theorem definition_history_independent (hc : ofCatalog c = .ok r) (pre post : List Call) {i : Nat}
    {b : BuiltinGrammar} (hb : c.grammars[i]? = some b)
    (hr : ¬ c.Registered pre (c.currentAfter pre) b.name) :
    ∃ e, c.theme? (c.currentAfter pre) = some e ∧
      (run (.ofStore fetch) r [] (pre ++ .definition b.name :: post)).2.2[pre.length]? =
        some ⟨(e.answer fetch ((run (.ofStore fetch) r [] pre).2.1.tried e.key) i b).map
          (.definition ∘ some), []⟩ := by
  obtain ⟨hv, h₀⟩ := @follows_ofCatalog fetch c r _ _ hc
  have hnd := Catalog.keys_nodup hv
  have h := follows_run h₀ hnd (Catalog.grammarNames_nodup hv) pre
  rw [List.nil_append] at h
  obtain ⟨e, he, hkey⟩ := h.entry
  refine ⟨e, ?_, ?_⟩
  · exact hkey ▸ Catalog.theme?_of_getElem? hnd he
  · have hresult := (h.themes _ e _ he (getElem?_current _)).definition_result (h.stocked e he) hb
      (hkey ▸ hr)
    rw [getElem?_run]
    simp only [step, replying, definition, onTheme, Outcome.within, hresult]
    cases e.answer fetch ((run (.ofStore fetch) r [] pre).2.1.tried e.key) i b <;> rfl

end Runs

/-- A night theme whose overlay is not there: the failure was reported by the first look-up, and the
second one looks for the grammar. -/
theorem definition_after_failed_overlay :
    let c : Catalog := ⟨"Day", [⟨"Day", "", "day", none⟩, ⟨"Night", "", "night", some ⟨"o", "n"⟩⟩],
      [⟨"Json", [".json"], "Json.xshd"⟩]⟩
    let fetch : ResourceName → Except ThemeError Bytes := fun r => .error (.resourceNotFound r)
    let pre : List Call := [.definition "Json", .select "Night", .definition "Json", .model]
    ∃ r, ofCatalog c = .ok r ∧ ¬ c.Registered pre (c.currentAfter pre) "Json" ∧
      ∃ e, c.theme? (c.currentAfter pre) = some e ∧
        (run (.ofStore fetch) r [] (pre ++ [.definition "Json"])).2.2[pre.length]? =
          some ⟨(e.answer fetch ((run (.ofStore fetch) r [] pre).2.1.tried e.key) 0
            ⟨"Json", [".json"], "Json.xshd"⟩).map (.definition ∘ some), []⟩ := by
  intro c fetch pre
  have hv : c.validate = .ok () := by
    simp [c, Catalog.validate, Catalog.defect?, Catalog.themesDefect?, Catalog.themeDefect?,
      Catalog.isComplete, Catalog.currentDefect?, Catalog.grammarsDefect?, Catalog.grammarDefect?]
  have hr : ¬ c.Registered pre (c.currentAfter pre) "Json" := by
    simp [c, pre, Catalog.Registered, Catalog.registrations, Catalog.registrationsFrom,
      Call.registers?]
  obtain ⟨r, hc⟩ := exists_ofCatalog hv
  exact ⟨r, hc, hr, @definition_history_independent fetch c r _ _ hc pre [] 0
    ⟨"Json", [".json"], "Json.xshd"⟩ rfl hr⟩

end Registry

end Livery
