import Livery.Proofs.Moves
import Mathlib.Tactic.Set

/-!
# Caches of a theme

Over a fixed store the overlay of a theme and its built-in grammars are pure functions of the
catalog and the store, `ThemeEntry.openOverlay` and `ThemeEntry.builtin`. A theme **follows** them
when it has nothing cached but their values.

* `Theme.Follows.moves`: look-ups in a theme keep it so.
* `Theme.Stocked.register`: so does a registration, apart from the name that is registered.
* `Theme.Follows.addBuiltins`: a theme that becomes current has every grammar of the catalog.
-/

namespace Livery

/-! ## The values -/

section Values

variable [Markup.Decoders] (fetch : ResourceName → Except ThemeError Bytes)

/-- The model of the overlay of `e`, if it has one: opened, read under the schema and resolved. -/
def ThemeEntry.openOverlay (e : ThemeEntry) : Except ThemeError (Option Overlay.Model) :=
  match e.overlay with
  | none => .ok none
  | some r => do
    let data ← fetch r
    let d ← (Overlay.read data true).mapError Overlay.Failure.error
    let m ← (Overlay.resolve d).mapError Overlay.Objection.error
    pure (some m)

/-- The model of the theme of `e`, which has none if it has no overlay or one that cannot be
loaded. -/
def ThemeEntry.model? (e : ThemeEntry) : Option Overlay.Model := (e.openOverlay fetch).toOption.join

/-- The built-in grammar `b` under the theme of `e`: its file opened at the base of the theme, and
loaded in the colours that the model has for it. -/
def ThemeEntry.builtin [Wording Definition.Fault] (e : ThemeEntry) (b : BuiltinGrammar) :
    Except ThemeError Grammar :=
  (do
    let data ← fetch ⟨e.basePrefix, b.resource⟩
    (Grammar.load b.name data ((e.model? fetch).bind (·.colorSet? b.name))).result).mapError
      (.inGrammar b.name)

end Values

/-- The overlay of the theme `key` was opened, or it was found that it cannot be. -/
def Journal.tried (j : Journal) (key : String) : Bool :=
  j.any fun
    | .opened (.overlay k) _ _ => k == key
    | _ => false

/-! ## The journal -/

namespace Journal

@[simp] theorem tried_append (j j' : Journal) (key : String) :
    tried (j ++ j') key = (tried j key || tried j' key) := List.any_append

@[simp] theorem tried_noted (notices : List Notice) (key : String) :
    tried (notices.map .noted) key = false := by
  simp [tried, List.any_map]

@[simp] theorem tried_nil (key : String) : tried [] key = false := rfl

@[simp] theorem tried_cons_noted (notice : Notice) (j : Journal) (key : String) :
    tried (.noted notice :: j) key = tried j key := rfl

@[simp] theorem tried_cons_ran (k name : String) (ticket : Nat) (custom : Bool)
    (colors : Option ColorSet) (j : Journal) (key : String) :
    tried (.ran k ticket name custom colors :: j) key = tried j key := rfl

@[simp] theorem tried_cons_grammar (k : String) (ticket : Nat) (r : ResourceName) (ok : Bool)
    (j : Journal) (key : String) :
    tried (.opened (.grammar k ticket) r ok :: j) key = tried j key := rfl

@[simp] theorem tried_cons_overlay (k : String) (r : ResourceName) (ok : Bool) (j : Journal)
    (key : String) : tried (.opened (.overlay k) r ok :: j) key = (k == key || tried j key) := rfl

end Journal

namespace Theme

variable {env : Environment} {t t' : Theme} {j j' : Journal} {key : String}

theorem runLoader_tried (env : Environment) (j : Journal) (k name : String) (ticket : Nat)
    (colors : Option ColorSet) (loader : Loader) (key : String) :
    (runLoader env j k name ticket colors loader).1.tried key = j.tried key := by
  cases loader with
  | custom load => simp [runLoader]
  | resource r =>
    simp only [runLoader]
    cases env.fetch (j ++ [.ran k ticket name false colors]) r with
    | error e => simp
    | ok data => simp

theorem loadDeferred_tried (env : Environment) (j : Journal) (t : Theme) (name : String)
    (ticket : Nat) (loader : Loader) (colors : Option ColorSet) (key : String) :
    (t.loadDeferred env j name ticket loader colors).journal.tried key = j.tried key := by
  rcases loadDeferred_cases env j t name ticket loader colors with ⟨g, -, he⟩ | ⟨e, -, he⟩
  · simp [he, runLoader_tried]
  · simp [he, runLoader_tried]

variable [Markup.Decoders]

theorem loadOverlay_tried (env : Environment) (j : Journal) (k : String) (r : ResourceName)
    (key : String) : (loadOverlay env j k r).1.tried key = (j.tried key || k == key) := by
  unfold loadOverlay
  cases env.fetch j r with
  | error e => simp
  | ok data => simp

/-- The overlay of one theme is `tried` under no other. -/
theorem Move.tried_eq (h : Move env t j t' j') (hne : t.key ≠ key) :
    j'.tried key = j.tried key := by
  cases h with
  | resolve =>
    rcases resolve_cases env j t with ⟨_, -, he⟩ | ⟨-, -, he⟩ | ⟨_, -, -, ⟨_, -, he⟩ | ⟨_, -, he⟩⟩
    all_goals simp [he, loadOverlay_tried, hne]
  | load => exact loadDeferred_tried ..
  | note => simp

theorem Moves.tried_eq (h : Moves env t j t' j') (hne : t.key ≠ key) :
    j'.tried key = j.tried key := by
  induction h with
  | refl => rfl
  | head hm _ ih =>
    have hkey : _ = _ := congrArg Prod.fst hm.entry_eq
    exact (ih fun h => hne (hkey.symm.trans h)).trans (hm.tried_eq hne)

end Theme

/-! ## Grammars of the catalog in a theme -/

namespace Theme

variable {t : Theme}

/-- Grammars that the theme knows are not deferred again. -/
theorem foldl_addBuiltin_known {bs : List BuiltinGrammar}
    (h : ∀ b ∈ bs, t.contains b.name = true) : bs.foldl Registry.addBuiltin t = t := by
  induction bs with
  | nil => rfl
  | cons b bs ih =>
    rw [List.forall_mem_cons] at h
    rw [List.foldl_cons, Registry.addBuiltin, if_pos h.1]
    exact ih h.2

/-- New grammars of different names are deferred in order, under the next tickets. -/
theorem foldl_addBuiltin_new {bs : List BuiltinGrammar} {t : Theme}
    (hnd : (bs.map (·.name)).Nodup) (hnew : ∀ b ∈ bs, t.contains b.name = false) :
    (bs.foldl Registry.addBuiltin t).entry = t.entry ∧
      (bs.foldl Registry.addBuiltin t).resolution = t.resolution ∧
      (∀ i b, bs[i]? = some b → (bs.foldl Registry.addBuiltin t).grammars.get? b.name =
        some ⟨t.grammars.nextTicket + i, .deferred (.resource ⟨t.basePrefix, b.resource⟩)⟩) ∧
      ∀ n, n ∉ bs.map (·.name) →
        (bs.foldl Registry.addBuiltin t).grammars.get? n = t.grammars.get? n := by
  induction bs generalizing t with
  | nil => exact ⟨rfl, rfl, by simp, fun _ _ => rfl⟩
  | cons b bs ih =>
    rw [List.forall_mem_cons] at hnew
    obtain ⟨hb, hnd⟩ := List.nodup_cons.1 hnd
    rw [List.foldl_cons, Registry.addBuiltin, if_neg (by simp [hnew.1])]
    -- the first one takes the next ticket, and the others are still new behind it
    set t₁ := t.registerDeferred b.name b.extensions (.resource ⟨t.basePrefix, b.resource⟩)
    have hget : ∀ x, t₁.grammars.get? x = if x = b.name then
        some ⟨t.grammars.nextTicket, .deferred (.resource ⟨t.basePrefix, b.resource⟩)⟩
        else t.grammars.get? x := fun x => GrammarTable.get?_register t.grammars b.name x b.extensions _
    have hne : ∀ b' ∈ bs, b'.name ≠ b.name := fun b' hb' h => hb (List.mem_map.2 ⟨b', hb', h⟩)
    have hnew₁ : ∀ b' ∈ bs, t₁.contains b'.name = false := fun b' hb' => by
      have h0 : (t.grammars.get? b'.name).isSome = false := hnew.2 b' hb'
      change (t₁.grammars.get? b'.name).isSome = false
      rw [hget, if_neg (hne b' hb'), h0]
    obtain ⟨hentry, hres, hslots, hother⟩ := ih hnd hnew₁
    refine ⟨hentry, hres, fun i b' hb' => ?_, fun n hn => ?_⟩
    · cases i with
      | zero =>
        obtain rfl : b = b' := by simpa using hb'
        rw [hother b.name hb, hget, if_pos rfl, Nat.add_zero]
      | succ i =>
        rw [hslots i b' (by simpa using hb')]
        simp only [t₁, registerDeferred, GrammarTable.register, Nat.add_assoc, Nat.add_comm 1]
    · simp only [List.map_cons, List.mem_cons, not_or] at hn
      rw [hother n hn.2, hget, if_neg hn.1]

end Theme

/-! ## The pure functions agree with the loading ones -/

section Store

variable [Markup.Decoders] {fetch : ResourceName → Except ThemeError Bytes} {c : Catalog}
  {e : ThemeEntry}

theorem Overlay.load_result (data : Bytes) :
    (Overlay.load data).result = (do
      let d ← (Overlay.read data true).mapError Overlay.Failure.error
      (Overlay.resolve d).mapError Overlay.Objection.error) := by
  simp only [Overlay.load, Overlay.readSource]
  cases Overlay.read data true with
  | error f => rfl
  | ok d =>
    simp only
    show _ = (Overlay.resolve d).mapError Overlay.Objection.error
    cases Overlay.resolve d with
    | error o => rfl
    | ok m => rfl

theorem openOverlay_none (ho : e.overlay = none) : e.openOverlay fetch = .ok none := by
  simp only [ThemeEntry.openOverlay, ho]

variable [Wording Definition.Fault]

/-- What `loadOverlay` gives is what the overlay is. -/
theorem openOverlay_some {r : ResourceName} (ho : e.overlay = some r) (j : Journal) (key : String) :
    e.openOverlay fetch = (Theme.loadOverlay (.ofStore fetch) j key r).2.map some := by
  simp only [ThemeEntry.openOverlay, ho, Theme.loadOverlay, Environment.ofStore]
  cases hf : fetch r with
  | error err => rfl
  | ok data =>
    simp only [Overlay.load_result, bind, Except.bind, pure, Except.pure]
    cases (Overlay.read data true).mapError Overlay.Failure.error with
    | error err => rfl
    | ok d =>
      simp only
      cases (Overlay.resolve d).mapError Overlay.Objection.error with
      | error err => rfl
      | ok m => rfl

/-- What `runLoader` gives for a built-in grammar, in the colours of the model, is what the grammar
is. -/
theorem builtin_eq_runLoader (b : BuiltinGrammar) (j : Journal) (key : String) (ticket : Nat) :
    e.builtin fetch b = (Theme.runLoader (.ofStore fetch) j key b.name ticket
      ((e.model? fetch).bind (·.colorSet? b.name))
      (.resource ⟨e.basePrefix, b.resource⟩)).2.mapError (.inGrammar b.name) := by
  simp only [ThemeEntry.builtin, Theme.runLoader, Environment.ofStore]
  cases fetch ⟨e.basePrefix, b.resource⟩ with
  | error err => rfl
  | ok data => rfl

/-! ## Themes that follow the pure functions -/

/-- What is registered for the built-in grammar `b`: its own loader, or what the grammar is. Nothing
is loaded before the overlay was tried. -/
def Theme.SlotFollows (fetch : ResourceName → Except ThemeError Bytes) (e : ThemeEntry)
    (b : BuiltinGrammar) (settled : Bool) : GrammarSlot → Prop
  | .deferred (.resource r) => r = ⟨e.basePrefix, b.resource⟩
  | .deferred (.custom _) => False
  | .loaded g => settled = true ∧ e.builtin fetch b = .ok g
  | .failed err => settled = true ∧ e.builtin fetch b = .error err

/-- The theme `t` has the grammars of the catalog `c`, as they come except where something else was
registered under the name. -/
structure Theme.Stocked (fetch : ResourceName → Except ThemeError Bytes) (c : Catalog)
    (e : ThemeEntry) (replaced : String → Prop) (t : Theme) : Prop where
  knows : ∀ b ∈ c.grammars, t.contains b.name = true
  slots : ∀ i b, c.grammars[i]? = some b → ¬ replaced b.name →
    ∃ slot, t.grammars.get? b.name = some ⟨i, slot⟩ ∧ SlotFollows fetch e b t.isSettled slot

/-- The theme `t` is what `e` declares it to be, with nothing cached but the right values. -/
structure Theme.Follows (fetch : ResourceName → Except ThemeError Bytes) (c : Catalog)
    (e : ThemeEntry) (replaced : String → Prop) (t : Theme) (j : Journal) : Prop where
  declared : t.entry = (Theme.ofEntry e).entry
  pending : t.resolution = .pending → j.tried e.key = false
  settled : ∀ m, t.resolution = .settled m →
    m = e.model? fetch ∧ (e.overlay ≠ none → j.tried e.key = true)
  stock : t.grammars = {} ∨ Theme.Stocked fetch c e replaced t

namespace Theme

variable {replaced : String → Prop} {t t' : Theme} {j j' : Journal}

theorem Follows.key (h : Follows fetch c e replaced t j) : t.key = e.key :=
  congrArg Prod.fst h.declared

theorem Follows.basePrefix (h : Follows fetch c e replaced t j) : t.basePrefix = e.basePrefix :=
  congrArg (·.2.2.1) h.declared

theorem Follows.overlay (h : Follows fetch c e replaced t j) : t.overlay = e.overlay :=
  congrArg (·.2.2.2) h.declared

/-- Only whether the theme's own overlay was `tried` counts of what was done so far. -/
theorem Follows.of_tried_eq (h : Follows fetch c e replaced t j)
    (hj : j'.tried e.key = j.tried e.key) : Follows fetch c e replaced t j' :=
  ⟨h.declared, fun hp => hj.trans (h.pending hp),
    fun m hm => ⟨(h.settled m hm).1, fun ho => hj.trans ((h.settled m hm).2 ho)⟩, h.stock⟩

/-- Nothing becomes wrong about the grammar `b` when the overlay is settled. -/
theorem SlotFollows.settle {b : BuiltinGrammar} {s : Bool} {slot : GrammarSlot}
    (h : SlotFollows fetch e b s slot) : SlotFollows fetch e b true slot := by
  cases slot with
  | deferred loader => cases loader <;> exact h
  | loaded g => exact ⟨rfl, h.2⟩
  | failed err => exact ⟨rfl, h.2⟩

theorem Stocked.settle (h : Stocked fetch c e replaced t) (m : Option Overlay.Model) :
    Stocked fetch c e replaced { t with resolution := .settled m } :=
  ⟨h.knows, fun i b hb hr =>
    let ⟨slot, hg, hs⟩ := h.slots i b hb hr
    ⟨slot, hg, hs.settle⟩⟩

/-- A settled overlay is right if the model `m` is. -/
theorem Follows.settle (h : Follows fetch c e replaced t j) {m : Option Overlay.Model}
    (hm : m = e.model? fetch) (hj : e.overlay ≠ none → j'.tried e.key = true) :
    Follows fetch c e replaced { t with resolution := .settled m } j' := by
  refine ⟨h.declared, fun hp => ?_, fun m' hm' => ?_, h.stock.imp id (·.settle m)⟩
  · cases hp
  · cases hm'; exact ⟨hm, hj⟩

/-- `resolve` keeps a theme right. -/
theorem Follows.resolve (h : Follows fetch c e replaced t j) :
    Follows fetch c e replaced (t.resolve (.ofStore fetch) j).state
      (t.resolve (.ofStore fetch) j).journal := by
  have hkey := h.key
  -- it is settled already, has no overlay, or its overlay is loaded or fails
  rcases resolve_cases (.ofStore fetch) j t with
    ⟨m, -, he⟩ | ⟨-, ho, he⟩ | ⟨r, -, ho, ⟨m, hl, he⟩ | ⟨err, hl, he⟩⟩
  · rw [he]; exact h
  · rw [he]
    have hopen := @openOverlay_none _ fetch e (h.overlay.symm.trans ho)
    exact h.settle (by simp [ThemeEntry.model?, hopen, Except.toOption])
      fun hne => absurd (h.overlay.symm.trans ho) hne
  · rw [he]
    have hopen := @openOverlay_some _ fetch e _ r (h.overlay.symm.trans ho) j t.key
    rw [hl] at hopen
    exact h.settle (by simp [ThemeEntry.model?, hopen, Except.toOption, Except.map])
      fun _ => by simp [loadOverlay_tried, hkey]
  · rw [he]
    have hopen := @openOverlay_some _ fetch e _ r (h.overlay.symm.trans ho) j t.key
    rw [hl] at hopen
    exact h.settle (by simp [ThemeEntry.model?, hopen, Except.toOption, Except.map])
      fun _ => by simp [loadOverlay_tried, hkey]

/-- Settling the slot of `name` keeps the stock, if the slot is right in case it is that of a
built-in grammar. -/
theorem Stocked.settleSlot (h : Stocked fetch c e replaced t) {name : String} {ticket : Nat}
    {slot : GrammarSlot}
    (hslot : ∀ i b, c.grammars[i]? = some b → b.name = name → ¬ replaced name →
      ticket = i ∧ SlotFollows fetch e b t.isSettled slot) :
    Stocked fetch c e replaced { t with grammars := t.grammars.settle name ticket slot } := by
  refine ⟨fun b hb => ?_, fun i b hb hr => ?_⟩
  · exact (NameMap.contains_insert ..).2 (.inr (h.knows b hb))
  · simp only [GrammarTable.get?_settle]
    by_cases hn : b.name = name
    · obtain ⟨rfl, hs⟩ := hslot i b hb hn (hn ▸ hr)
      exact ⟨slot, by rw [if_pos hn], hs⟩
    · obtain ⟨old, hg, hs⟩ := h.slots i b hb hr
      exact ⟨old, by rw [if_neg hn]; exact hg, hs⟩

/-- `loadDeferred` keeps a theme right. -/
theorem Follows.load (h : Follows fetch c e replaced t j) {name : String} {ticket : Nat}
    {loader : Loader} {model : Option Overlay.Model}
    (hslot : t.grammars.get? name = some ⟨ticket, .deferred loader⟩)
    (hres : t.resolution = .settled model) :
    Follows fetch c e replaced
      (t.loadDeferred (.ofStore fetch) j name ticket loader (model.bind (·.colorSet? name))).state
      (t.loadDeferred (.ofStore fetch) j name ticket loader
        (model.bind (·.colorSet? name))).journal := by
  have hstock : Stocked fetch c e replaced t := h.stock.resolve_left fun h0 => by
    rw [h0] at hslot; cases hslot
  have hsettled : t.isSettled = true := by simp [isSettled, hres]
  obtain ⟨hm, -⟩ := h.settled model hres
  have htried := loadDeferred_tried (.ofStore fetch) j t name ticket loader
    (model.bind (·.colorSet? name)) e.key
  -- the loader of a built-in grammar is its own, and gives what the grammar is
  have hown : ∀ i b, c.grammars[i]? = some b → b.name = name → ¬ replaced name →
      ticket = i ∧ e.builtin fetch b = (runLoader (.ofStore fetch) j t.key name ticket
        (model.bind (·.colorSet? name)) loader).2.mapError (.inGrammar name) := by
    rintro i b hb rfl hr
    obtain ⟨slot, hg, hs⟩ := hstock.slots i b hb hr
    obtain ⟨rfl, rfl⟩ : ticket = i ∧ .deferred loader = slot := by
      simpa using hslot.symm.trans hg
    refine ⟨rfl, ?_⟩
    cases loader with
    | custom load => exact hs.elim
    | resource r => rw [show r = _ from hs, hm]; exact builtin_eq_runLoader b j t.key ticket
  rcases loadDeferred_cases (.ofStore fetch) j t name ticket loader
    (model.bind (·.colorSet? name)) with ⟨g, hl, he⟩ | ⟨err, hl, he⟩
  all_goals
    rw [he] at htried ⊢
    refine Follows.of_tried_eq ⟨h.declared, h.pending, h.settled, .inr ?_⟩ htried
    refine hstock.settleSlot fun i b hb hn hr => ?_
    obtain ⟨hi, hbuiltin⟩ := hown i b hb hn hr
    rw [hl] at hbuiltin
    exact ⟨hi, hsettled, hbuiltin⟩

/-- **A `Move` keeps a theme right.** -/
theorem Follows.move (h : Follows fetch c e replaced t j) (hm : Move (.ofStore fetch) t j t' j') :
    Follows fetch c e replaced t' j' := by
  cases hm with
  | resolve => exact h.resolve
  | load hslot hres => exact h.load hslot hres
  | note => exact h.of_tried_eq (by simp)

theorem Follows.moves (h : Follows fetch c e replaced t j)
    (hm : Moves (.ofStore fetch) t j t' j') : Follows fetch c e replaced t' j' :=
  hm.keep (P := Follows fetch c e replaced) (fun hm' ht => ht.move hm') h

/-- A theme that has its grammars keeps them through `Moves`. -/
theorem Stocked.moves (hs : Stocked fetch c e replaced t) (h : Follows fetch c e replaced t j)
    (hm : Moves (.ofStore fetch) t j t' j') : Stocked fetch c e replaced t' := by
  have hknows : ∀ b ∈ c.grammars, t'.contains b.name = true :=
    fun b hb => hm.contains (hs.knows b hb)
  -- an empty table knows no grammar, so there is none in the catalog either
  refine (h.moves hm).stock.elim (fun h0 => ⟨hknows, fun i b hb _ => ?_⟩) id
  have := hknows b (List.mem_of_getElem? hb)
  rw [contains, h0] at this
  cases this

/-! ## Registration and stock -/

/-- A registration keeps a theme right, apart from the `name` that is registered. -/
theorem Stocked.register (h : Stocked fetch c e replaced t) (name : String)
    (extensions : List String) (slot : GrammarSlot) :
    Stocked fetch c e (fun n => replaced n ∨ n = name)
      { t with grammars := t.grammars.register name extensions slot } := by
  refine ⟨fun b hb => (NameMap.contains_insert ..).2 (.inr (h.knows b hb)), fun i b hb hr => ?_⟩
  obtain ⟨hr, hn⟩ := not_or.1 hr
  obtain ⟨old, hg, hs⟩ := h.slots i b hb hr
  exact ⟨old, by rw [GrammarTable.get?_register, if_neg hn]; exact hg, hs⟩

/-- **A theme that becomes current has the grammars of the catalog**, be it for the first time or
again. -/
theorem Follows.addBuiltins (h : Follows fetch c e replaced t j)
    (hnd : (c.grammars.map (·.name)).Nodup) :
    Follows fetch c e replaced (c.grammars.foldl Registry.addBuiltin t) j ∧
      Stocked fetch c e replaced (c.grammars.foldl Registry.addBuiltin t) := by
  rcases h.stock with h0 | hs
  · have hnew : ∀ b ∈ c.grammars, t.contains b.name = false := fun b _ => by
      rw [contains, h0]; rfl
    obtain ⟨hentry, hres, hslots, -⟩ := foldl_addBuiltin_new hnd hnew
    have hstock : Stocked fetch c e replaced (c.grammars.foldl Registry.addBuiltin t) := by
      refine ⟨fun b hb => ?_, fun i b hb _ => ?_⟩
      · obtain ⟨i, hi⟩ := List.getElem?_of_mem hb
        exact GrammarTable.contains_of_get? (hslots i b hi)
      · have hslot := hslots i b hb
        rw [h0, Nat.zero_add] at hslot
        exact ⟨_, hslot, by simp [SlotFollows, h.basePrefix]⟩
    exact ⟨⟨hentry.trans h.declared, fun hp => h.pending (hres ▸ hp),
      fun m hm => h.settled m (hres ▸ hm), .inr hstock⟩, hstock⟩
  · rw [foldl_addBuiltin_known hs.knows]
    exact ⟨h, hs⟩

end Theme

end Store

end Livery
