import Livery.Proofs.LifeCycle
import Livery.Proofs.Moves
import Livery.Theme.Run
import Mathlib.Data.List.Forall2

/-!
# The grammar table of a theme

A theme keeps three tables: the names in order, the registrations and the extensions. Registrations
write to all of them, and look-ups only put a result in the place of a loader; so the three agree
behind every history.

* `GrammarTable.Recorded`, `after_recorded`: the tables agree with the names that were registered.
* `Stays`: a loaded grammar is the answer until something else is registered under its name.
* `definitionsOf_ok`, `definitionsOf_error`: a walk over grammars gives one handle for each, or
  stops at the first that cannot be had.
* `table_integrity`: all this for every history of a theme.
-/

namespace Livery

namespace NameMap

variable {α : Type}

/-- A value is listed in `values` exactly if it stands under some name. -/
theorem mem_values_iff (m : NameMap α) (a : α) : a ∈ m.values ↔ ∃ x, m.get? x = some a := by
  obtain ⟨l, hsorted⟩ := m
  unfold values get?
  induction l with
  | nil => simp
  | cons e l ih =>
    obtain ⟨k, v⟩ := e
    obtain ⟨hk, hl⟩ := List.pairwise_cons.1 hsorted
    rw [List.map_cons, List.mem_cons, ih hl]
    constructor
    · rintro (rfl | ⟨x, hx⟩)
      · exact ⟨k, by simp⟩
      · -- a name further on is greater than the first one
        have hmem : (x, a) ∈ l := by
          obtain ⟨l₁, l₂, rfl, -⟩ := List.lookup_eq_some_iff.1 hx
          simp
        have hne : x ≠ k := fun heq => absurd (heq ▸ hk _ hmem) (String.lt_irrefl k)
        exact ⟨x, by rw [List.lookup_cons, beq_false_of_ne hne]; exact hx⟩
    · rintro ⟨x, hx⟩
      rw [List.lookup_cons] at hx
      split at hx
      · exact .inl (Option.some.inj hx).symm
      · exact .inr ⟨x, hx⟩

end NameMap

/-! ## Tables -/

namespace GrammarTable

variable {g : GrammarTable} {names : List String}

/-- The three tables of `g` agree: `names` were registered, in this order. -/
structure Recorded (names : List String) (g : GrammarTable) : Prop where
  order : g.order = names.eraseDups
  nodup : g.order.Nodup
  known : ∀ n, g.contains n = true ↔ n ∈ names
  owners : ∀ x n, g.owners.get? x = some n → n ∈ names

theorem recorded_empty : Recorded [] {} := by
  refine ⟨rfl, .nil, fun n => ?_, fun x n h => ?_⟩
  · simp [contains, NameMap.contains]
  · simp at h

theorem Recorded.mem_order (h : g.Recorded names) (n : String) :
    n ∈ g.order ↔ n ∈ names := by
  rw [h.order, List.mem_eraseDups]

/-- `register` keeps the tables in agreement. -/
theorem Recorded.register (h : g.Recorded names) (name : String) (extensions : List String)
    (slot : GrammarSlot) : (g.register name extensions slot).Recorded (names ++ [name]) := by
  have hknown : ∀ n, (g.register name extensions slot).contains n = true ↔
      n ∈ names ++ [name] := by
    intro n
    rw [List.mem_append, List.mem_singleton, ← h.known n, or_comm]
    exact NameMap.contains_insert ..
  have horder : (g.register name extensions slot).order = (names ++ [name]).eraseDups := by
    rw [eraseDups_concat, ← h.order]
    simp only [GrammarTable.register, h.known]
  refine ⟨horder, ?_, hknown, fun x n hx => ?_⟩
  · -- a name that is not known yet does not stand in the order
    simp only [GrammarTable.register]
    split
    · exact h.nodup
    · next hnew =>
      have hnot : name ∉ g.order := fun hmem => hnew ((h.known name).2 ((h.mem_order name).1 hmem))
      exact List.nodup_append.2 ⟨h.nodup, by simp, by
        rintro a ha b hb rfl
        exact hnot (List.mem_singleton.1 hb ▸ ha)⟩
  · rw [List.mem_append, List.mem_singleton]
    simp only [GrammarTable.register, get?_foldl_grant] at hx
    split at hx
    · exact .inr (Option.some.inj hx).symm
    · exact .inl (h.owners x n hx)

/-- `settle`, with which loading ends, keeps them in agreement. -/
theorem Recorded.settle (h : g.Recorded names) {name : String} (hname : g.contains name = true)
    (ticket : Nat) (slot : GrammarSlot) : (g.settle name ticket slot).Recorded names := by
  refine ⟨h.order, h.nodup, fun n => ?_, h.owners⟩
  rw [← h.known n]
  have hc : (g.settle name ticket slot).contains n = g.contains n :=
    NameMap.contains_insert_of_contains hname n _
  rw [hc]

end GrammarTable

/-! ## Look-ups and the tables -/

namespace Theme

variable {env : Environment} {t t' : Theme} {j j' : Journal} {names : List String}

/-- A call that registers nothing adds none to the `names`. -/
theorem names_of_none {call : Call} (h : call.registers? = none) (env : Environment)
    (history : History) : History.names ((env, call) :: history) = history.names := by
  simp [History.names, h]

theorem names_of_some {call : Call} {name : String} (h : call.registers? = some name)
    (env : Environment) (history : History) :
    History.names ((env, call) :: history) = name :: history.names := by
  simp [History.names, h]

variable [Markup.Decoders]

theorem Move.recorded (hm : Move env t j t' j') (h : t.grammars.Recorded names) :
    t'.grammars.Recorded names := by
  cases hm with
  | resolve => rw [resolve_grammars]; exact h
  | @load name ticket loader model hslot =>
    have hname := GrammarTable.contains_of_get? hslot
    rcases loadDeferred_cases env j t name ticket loader (model.bind (·.colorSet? name)) with
      ⟨_, -, he⟩ | ⟨_, -, he⟩
    all_goals rw [he]; exact h.settle hname ticket _
  | note => exact h

/-- Look-ups keep the tables in agreement. -/
theorem Moves.recorded (hm : Moves env t j t' j') (h : t.grammars.Recorded names) :
    t'.grammars.Recorded names :=
  hm.keep (P := fun t _ => t.grammars.Recorded names) (fun hm' h' => hm'.recorded h') h

/-- A `Call` looks something up or registers something. -/
theorem step_cases (env : Environment) (t : Theme) (j : Journal) (call : Call) :
    (call.registers? = none ∧ Moves env t j (step env t j call).1 (step env t j call).2) ∨
      ∃ name extensions slot, call.registers? = some name ∧
        step env t j call =
          ({ t with grammars := t.grammars.register name extensions slot }, j) := by
  cases call with
  | register name extensions grammar => exact .inr ⟨name, extensions, .loaded grammar, rfl, rfl⟩
  | registerDeferred name extensions loader =>
    exact .inr ⟨name, extensions, .deferred loader, rfl, rfl⟩
  | definition name => exact .inl ⟨rfl, definition_moves env j t name⟩
  | definitionFor extension => exact .inl ⟨rfl, definitionFor_moves env j t extension⟩
  | definitions => exact .inl ⟨rfl, definitionsOf_moves env _ j t⟩
  | resolve => exact .inl ⟨rfl, (Move.resolve t j).moves⟩
  | colorSet grammar => exact .inl ⟨rfl, (Move.resolve t j).moves⟩

/-- **The tables agree behind every history**: they are `Recorded`. -/
theorem after_recorded (h : t.grammars.Recorded names) (history : History) :
    (after t j history).1.grammars.Recorded (names ++ history.names) := by
  induction history generalizing t j names with
  | nil => simpa [after, History.names] using h
  | cons c history ih =>
    obtain ⟨env, call⟩ := c
    rcases step_cases env t j call with ⟨hreg, hm⟩ | ⟨name, extensions, slot, hreg, heq⟩
    · rw [names_of_none hreg]
      exact ih (hm.recorded h)
    · have hstep : (step env t j call).1.grammars.Recorded (names ++ [name]) := by
        rw [heq]
        exact h.register name extensions slot
      have hrec := @ih _ (step env t j call).2 _ hstep
      rw [List.append_assoc, List.singleton_append] at hrec
      rw [names_of_some hreg]
      exact hrec

/-! ## Loaded grammars -/

/-- A grammar is loaded under `name`, and `handle` is its handle. -/
def Holds (t : Theme) (name : String) (handle : Handle) : Prop :=
  t.grammars.get? name = some ⟨handle.ticket, .loaded handle.grammar⟩ ∧ handle.theme = t.key

/-- What is loaded is answered, and nothing else happens. -/
theorem Holds.definition {name : String} {handle : Handle} (h : t.Holds name handle)
    (env : Environment) (j : Journal) : t.definition env j name = ⟨t, j, .ok (some handle)⟩ := by
  obtain ⟨hg, hkey⟩ := h
  unfold Theme.definition
  rw [hg]
  simp only [← hkey]

theorem Move.holds {name : String} {handle : Handle} (hm : Move env t j t' j')
    (h : t.Holds name handle) : t'.Holds name handle := by
  have hkey : t'.key = t.key := congrArg Prod.fst hm.entry_eq
  refine ⟨?_, h.2.trans hkey.symm⟩
  cases hm with
  | resolve => rw [resolve_grammars]; exact h.1
  | @load other ticket loader model hslot =>
    -- what is loaded now was deferred, so it is something else
    have hne : name ≠ other := by
      rintro rfl
      rw [h.1] at hslot
      cases hslot
    rcases loadDeferred_cases env j t other ticket loader (model.bind (·.colorSet? other)) with
      ⟨_, -, he⟩ | ⟨_, -, he⟩
    all_goals
      rw [he]
      exact (NameMap.get?_insert_of_ne _ hne).trans h.1
  | note => exact h.1

theorem Moves.holds {name : String} {handle : Handle} (hm : Moves env t j t' j')
    (h : t.Holds name handle) : t'.Holds name handle :=
  hm.keep (P := fun t _ => t.Holds name handle) (fun hm' h' => hm'.holds h') h

/-- A loaded grammar is there until something else is registered under its `name`. -/
theorem Holds.after {name : String} {handle : Handle} (h : t.Holds name handle)
    {history : History} (hfree : name ∉ History.names history) (j : Journal) :
    (after t j history).1.Holds name handle := by
  induction history generalizing t j with
  | nil => exact h
  | cons c history ih =>
    obtain ⟨env, call⟩ := c
    rcases step_cases env t j call with ⟨hreg, hm⟩ | ⟨other, extensions, slot, hreg, heq⟩
    · rw [names_of_none hreg] at hfree
      exact ih (hm.holds h) hfree _
    · rw [names_of_some hreg, List.mem_cons, not_or] at hfree
      refine ih ?_ hfree.2 _
      rw [heq]
      exact ⟨(NameMap.get?_insert_of_ne _ hfree.1).trans h.1, h.2⟩

/-- A grammar is loaded, and `handle` is the answer to every look-up of `name` until something is
registered there. -/
def Stays (t : Theme) (name : String) (handle : Handle) : Prop :=
  t.Holds name handle ∧ ∀ (later : History) (j : Journal) (env : Environment),
    name ∉ later.names →
      ((Theme.after t j later).1.definition env (Theme.after t j later).2 name).result =
        .ok (some handle)

theorem Holds.stays {name : String} {handle : Handle} (h : t.Holds name handle) :
    t.Stays name handle := by
  refine ⟨h, fun later j env hfree => ?_⟩
  rw [(h.after hfree j).definition]

/-! ## Look-ups -/

/-- A look-up of a deferred grammar fails, or the grammar is loaded. -/
theorem definition_deferred (env : Environment) (j : Journal) {name : String} {ticket : Nat}
    {loader : Loader} (hslot : t.grammars.get? name = some ⟨ticket, .deferred loader⟩) :
    (∃ e, (t.definition env j name).result = .error e) ∨
      ∃ handle, (t.definition env j name).result = .ok (some handle) ∧
        (t.definition env j name).state.Holds name handle := by
  unfold Theme.definition
  rw [hslot]
  simp only [Outcome.andThen]
  rcases t.resolve env j with ⟨t₁, j₁, e | m⟩
  · exact .inl ⟨e, rfl⟩
  · simp only
    rcases loadDeferred_cases env j₁ t₁ name ticket loader (m.bind (·.colorSet? name)) with
      ⟨g, -, he⟩ | ⟨e, -, he⟩
    · rw [he]
      exact .inr ⟨_, rfl, NameMap.get?_insert_self .., rfl⟩
    · rw [he]
      exact .inl ⟨_, rfl⟩

/-- A look-up finds nothing exactly if nothing is registered. -/
theorem definition_eq_none_iff (env : Environment) (j : Journal) (t : Theme) (name : String) :
    (t.definition env j name).result = .ok none ↔ t.grammars.contains name = false := by
  rcases hg : t.grammars.get? name with _ | ⟨ticket, slot⟩
  · have hget : t.grammars.registrations.get? name = none := hg
    simp [Theme.definition, hg, GrammarTable.contains, NameMap.contains, hget]
  · rw [GrammarTable.contains_of_get? hg]
    cases slot with
    | loaded g => simp [Theme.definition, hg]
    | failed e => simp [Theme.definition, hg]
    | deferred loader =>
      rcases definition_deferred env j hg with ⟨e, he⟩ | ⟨handle, he, -⟩
      · simp [he]
      · simp [he]

/-- What a look-up gives is loaded from then on. -/
theorem holds_of_definition {name : String} {handle : Handle}
    (h : t.definition env j name = ⟨t', j', .ok (some handle)⟩) : t'.Holds name handle := by
  rcases hg : t.grammars.get? name with _ | ⟨ticket, slot⟩
  · simp [Theme.definition, hg] at h
  · cases slot with
    | loaded g =>
      simp only [Theme.definition, hg, Outcome.mk.injEq, Except.ok.injEq, Option.some.injEq] at h
      obtain ⟨rfl, -, rfl⟩ := h
      exact ⟨hg, rfl⟩
    | failed e => simp [Theme.definition, hg] at h
    | deferred loader =>
      rcases definition_deferred env j hg with ⟨e, he⟩ | ⟨other, he, hholds⟩
      · rw [h] at he
        cases he
      · rw [h] at he hholds
        cases he
        exact hholds

/-- **A walk that gets to its end** has one handle for each grammar, in order, and all of them are
loaded. -/
theorem definitionsOf_ok {walk : List String} (hknown : ∀ n ∈ walk, t.grammars.contains n = true)
    {handles : List Handle} (h : definitionsOf env walk j t = ⟨t', j', .ok handles⟩) :
    List.Forall₂ t'.Holds walk handles := by
  induction walk generalizing t j handles with
  | nil =>
    simp only [definitionsOf, Outcome.mk.injEq, Except.ok.injEq] at h
    obtain ⟨-, -, rfl⟩ := h
    exact .nil
  | cons n walk ih =>
    rw [List.forall_mem_cons] at hknown
    simp only [definitionsOf, Outcome.andThen] at h
    have hnone := definition_eq_none_iff env j t n
    rcases hd : t.definition env j n with ⟨t₁, j₁, e | handle⟩
    · simp [hd] at h
    · have hm := definition_moves env j t n
      rw [hd] at h hm hnone
      -- the look-up of a known name does not come back with nothing
      obtain ⟨handle, rfl⟩ : ∃ hd, handle = some hd := by
        cases handle with
        | none => rw [hknown.1] at hnone; simp at hnone
        | some handle => exact ⟨handle, rfl⟩
      simp only at h
      rcases hrest : definitionsOf env walk j₁ t₁ with ⟨t₂, j₂, e | rest⟩
      · simp [hrest, Outcome.map, Except.map] at h
      · have hm' := definitionsOf_moves env walk j₁ t₁
        rw [hrest] at h hm'
        simp only [Outcome.map, Except.map, Option.toList_some, List.singleton_append,
          Outcome.mk.injEq, Except.ok.injEq] at h
        obtain ⟨rfl, rfl, rfl⟩ := h
        have hknown₁ : ∀ m ∈ walk, t₁.grammars.contains m = true :=
          fun m hmem => hm.contains (hknown.2 m hmem)
        exact .cons (hm'.holds (holds_of_definition hd)) (ih hknown₁ hrest)

/-- **A walk that stops** does so at the first grammar that cannot be had, with its error. -/
theorem definitionsOf_error {walk : List String} {e : ThemeError}
    (h : definitionsOf env walk j t = ⟨t', j', .error e⟩) :
    ∃ pre n post t₁ j₁ handles, walk = pre ++ n :: post ∧
      definitionsOf env pre j t = ⟨t₁, j₁, .ok handles⟩ ∧
      t₁.definition env j₁ n = ⟨t', j', .error e⟩ := by
  induction walk generalizing t j with
  | nil => simp [definitionsOf] at h
  | cons n walk ih =>
    simp only [definitionsOf, Outcome.andThen] at h
    rcases hd : t.definition env j n with ⟨t₁, j₁, err | handle⟩
    · simp only [hd] at h
      have hlast : t.definition env j n = ⟨t', j', .error e⟩ := by
        rw [hd]
        simpa using h
      exact ⟨[], n, walk, t, j, [], rfl, rfl, hlast⟩
    · simp only [hd] at h
      rcases hrest : definitionsOf env walk j₁ t₁ with ⟨t₂, j₂, err | rest⟩
      · rw [hrest] at h
        have heq : (⟨t₂, j₂, .error err⟩ : Outcome Theme (List Handle)) = ⟨t', j', .error e⟩ := by
          simpa [Outcome.map, Except.map] using h
        obtain ⟨pre, m, post, t₃, j₃, handles, rfl, hpre, hlast⟩ := ih (hrest.trans heq)
        refine ⟨n :: pre, m, post, t₃, j₃, handle.toList ++ handles, rfl, ?_, hlast⟩
        simp only [definitionsOf, Outcome.andThen, hd, hpre]
        rfl
      · simp [hrest, Outcome.map, Except.map] at h

/-! ## Histories -/

/-- **The grammar table is sound behind every history of a theme**, whatever its resources and
loaders do. The names in order are the names of the registrations, in the order in which they first
came and each once, and the extensions belong to such names. A look-up finds nothing exactly if
nothing was registered. A look-up of all grammars gives, for each name in order, the handle that the
name has from then on; or else the error of the first name that cannot be had, and the ones before
it are loaded. -/
theorem table_integrity (e : ThemeEntry) (j : Journal) (history : History) :
    let t := (after (ofEntry e) j history).1
    let j' := (after (ofEntry e) j history).2
    t.grammars.order.Nodup ∧
    (∀ n, n ∈ t.grammars.order ↔ n ∈ t.grammars.registrations.names) ∧
    (∀ n ∈ t.grammars.owners.values, n ∈ t.grammars.registrations.names) ∧
    t.grammars.order = history.names.eraseDups ∧
    (∀ env n, (t.definition env j' n).result = .ok none ↔ n ∉ history.names) ∧
    ∀ env, match t.definitions env j' with
      | ⟨t₁, _, .ok handles⟩ => List.Forall₂ t₁.Stays t.grammars.order handles
      | ⟨t₁, j₁, .error err⟩ => ∃ pre n post t₂ j₂ handles, t.grammars.order = pre ++ n :: post ∧
          definitionsOf env pre j' t = ⟨t₂, j₂, .ok handles⟩ ∧
          t₂.definition env j₂ n = ⟨t₁, j₁, .error err⟩ ∧
          List.Forall₂ t₁.Stays pre handles := by
  intro t j'
  have hrec : t.grammars.Recorded history.names :=
    after_recorded (t := ofEntry e) GrammarTable.recorded_empty history
  have hkeys : ∀ n, n ∈ t.grammars.registrations.names ↔ n ∈ history.names := by
    intro n
    rw [NameMap.mem_names_iff]
    exact hrec.known n
  have hcontains : ∀ n ∈ t.grammars.order, t.grammars.contains n = true :=
    fun n hn => (hrec.known n).2 ((hrec.mem_order n).1 hn)
  refine ⟨hrec.nodup, fun n => ?_, fun n hn => ?_, hrec.order, fun env n => ?_, fun env => ?_⟩
  · rw [hrec.mem_order, hkeys]
  · obtain ⟨x, hx⟩ := (NameMap.mem_values_iff _ n).1 hn
    exact (hkeys n).2 (hrec.owners x n hx)
  · rw [definition_eq_none_iff, ← hrec.known n, Bool.not_eq_true]
  · unfold definitions
    rcases hwalk : definitionsOf env t.grammars.order j' t with ⟨t₁, j₁, err | handles⟩
    · obtain ⟨pre, n, post, t₂, j₂, handles, hsplit, hpre, hlast⟩ := definitionsOf_error hwalk
      have hknown : ∀ m ∈ pre, t.grammars.contains m = true :=
        fun m hm => hcontains m (by rw [hsplit]; exact List.mem_append_left _ hm)
      -- what was loaded before the failure is not touched by it
      have hmoves := definition_moves env j₂ t₂ n
      rw [hlast] at hmoves
      exact ⟨pre, n, post, t₂, j₂, handles, hsplit, hpre, hlast,
        (definitionsOf_ok hknown hpre).imp fun _ _ hh => (hmoves.holds hh).stays⟩
    · exact (definitionsOf_ok hcontains hwalk).imp fun _ _ hh => hh.stays

end Theme

end Livery
