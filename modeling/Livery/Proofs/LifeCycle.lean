import Livery.ColorSet.Run
import Livery.Proofs.Search
import Mathlib.Data.List.Perm.Basic

/-!
# The life of a colour set

A colour set is started under a name, drafted by calls in any order, finished, and then only has
tokens exchanged. What it is at any point can be told from the log of the calls that succeeded.

* `Holds`, `Consists`: what a set is, given the names registered, the extensions set last and the
  tokens stored.
* `Draft.Answers`, `Answers`: how the next call is answered, given the same.
* `Draft.Logged.step`, `Holds.exchange`: what one call preserves.
* `life_cycle`: a whole life.
-/

namespace Livery

/-! ## Runs -/

/-- What holds at the start, and behind every call if it holds before, holds behind every run of
`logged`. -/
theorem logged_induction {σ κ α : Type} {step : σ → κ → σ × α}
    {motive : σ → List (κ × α) → Prop} {s : σ} (start : motive s [])
    (next : ∀ s log call, motive s log →
      motive (step s call).1 (log ++ [(call, (step s call).2)])) (calls : List κ) :
    motive (logged step s calls).1 (logged step s calls).2 := by
  -- from anywhere in a run
  suffices hfrom : ∀ s log, motive s log →
      motive (logged step s calls).1 (log ++ (logged step s calls).2) from hfrom s [] start
  intro s log start
  induction calls generalizing s log with
  | nil => simpa [logged] using start
  | cons call calls ih =>
    have h := ih _ _ (next s log call start)
    rw [List.append_assoc] at h
    exact h

/-- The token of `tokens` that was stored last under `name`, or the placeholder. -/
def lastToken (tokens : List Token) (name : String) : Token :=
  (tokens.reverse.find? (·.name == name)).getD (.placeholder name)

theorem lastToken_name (tokens : List Token) (name : String) :
    (lastToken tokens name).name = name := by
  unfold lastToken
  cases h : tokens.reverse.find? (·.name == name) with
  | none => rfl
  | some t => exact (of_find?_key h).2

theorem lastToken_concat (tokens : List Token) (t : Token) (name : String) :
    lastToken (tokens ++ [t]) name = if name = t.name then t else lastToken tokens name := by
  unfold lastToken
  rw [find?_key_concat]
  split_ifs <;> rfl

theorem lastToken_of_not_mem {tokens : List Token} {name : String}
    (h : name ∉ tokens.map (·.name)) : lastToken tokens name = .placeholder name := by
  have hnone : tokens.reverse.find? (·.name == name) = none := by
    rw [find?_key_eq_none_iff, List.map_reverse, List.mem_reverse]
    exact h
  rw [lastToken, hnone]
  rfl

namespace ColorSet

variable {s : ColorSet} {name : String} {extensions names : List String} {tokens : List Token}

/-! ## What a set consists of -/

/-- The set `s` has the name `name` and these `extensions`; `names` were registered in it and
`tokens` stored. -/
structure Holds (s : ColorSet) (name : String) (extensions names : List String)
    (tokens : List Token) : Prop where
  name : s.name = name
  extensions : s.extensions = extensions
  distinct : names.Nodup
  nonempty : "" ∉ names
  stored : ∀ t ∈ tokens, t.name ∈ names
  color : ∀ n, s.color? n = if n ∈ names then some (lastToken tokens n) else none

namespace Holds

variable (h : s.Holds name extensions names tokens)
include h

theorem contains (n : String) : s.contains n = true ↔ n ∈ names := by
  have hn := h.color n
  rw [color?] at hn
  rw [ColorSet.contains, NameMap.contains, hn]
  split <;> simp_all

theorem mem_colorNames (n : String) : n ∈ s.colorNames ↔ n ∈ names := by
  rw [colorNames, NameMap.mem_names_iff]
  exact h.contains n

theorem size : s.size = names.length := by
  have hnodup : s.colorNames.Nodup :=
    s.colors.names_sorted.imp fun hlt => String.ne_of_lt hlt
  have hperm := (List.perm_ext_iff_of_nodup hnodup h.distinct).2 h.mem_colorNames
  rw [← hperm.length_eq]
  exact (List.length_map ..).symm

/-- The entry under the name `n` is a token of that name. -/
theorem keyed {n : String} {t : Token} (ht : s.color? n = some t) : t.name = n := by
  rw [h.color] at ht
  split at ht
  · obtain rfl := Option.some.inj ht
    exact lastToken_name tokens n
  · cases ht

/-- A new name `n` gets a placeholder. -/
theorem register {n : String} (hn : n ≠ "") (hnew : n ∉ names) :
    Holds { s with colors := s.colors.insert n (.placeholder n) } name extensions
      (names ++ [n]) tokens where
  name := h.name
  extensions := h.extensions
  distinct := by
    rw [← List.concat_eq_append]
    exact h.distinct.concat hnew
  nonempty := by simpa [h.nonempty] using hn.symm
  stored := fun t ht => List.mem_append_left _ (h.stored t ht)
  color := fun x => by
    have hx := h.color x
    rw [color?] at hx ⊢
    rw [NameMap.get?_insert, hx]
    by_cases heq : x = n
    · subst heq
      -- no token was stored under the name before
      have hfree : x ∉ tokens.map (·.name) := fun hmem => by
        obtain ⟨t, ht, rfl⟩ := List.mem_map.1 hmem
        exact hnew (h.stored t ht)
      simp [lastToken_of_not_mem hfree]
    · simp [heq]

/-- A name that is there gets another token, `t`. -/
theorem store {t : Token} (ht : t.name ∈ names) :
    Holds { s with colors := s.colors.insert t.name t } name extensions names
      (tokens ++ [t]) where
  name := h.name
  extensions := h.extensions
  distinct := h.distinct
  nonempty := h.nonempty
  stored := by simpa [or_imp, forall_and, ht] using h.stored
  color := fun x => by
    have hx := h.color x
    rw [color?] at hx ⊢
    rw [NameMap.get?_insert, hx, lastToken_concat]
    by_cases heq : x = t.name
    · subst heq
      simp [ht]
    · simp [heq]

theorem setExtensions (extensions' : List String) :
    Holds { s with extensions := extensions' } name extensions' names tokens :=
  ⟨h.name, rfl, h.distinct, h.nonempty, h.stored, h.color⟩

/-- `replace` displaces a token exactly if there is one of its name. -/
theorem replace_eq (t : Token) : s.replace t =
    if t.name ∈ names then
      .ok (lastToken tokens t.name, { s with colors := s.colors.insert t.name t })
    else .error (.unknownColor t.name) := by
  have hcolor := h.color t.name
  rw [color?] at hcolor
  rw [replace, hcolor]
  by_cases ht : t.name ∈ names
  · simp only [if_pos ht]
  · simp only [if_neg ht]

end Holds

/-! ## Drafts -/

namespace Draft

/-- How the draft `d`, in which `names` are registered, answers a call. A call that is refused
leaves the draft as it is. -/
structure Answers (d : Draft) (names : List String) : Prop where
  register : ∀ n, (d.step (.register n)).2 =
    if n = "" then .error .emptyName
    else if n ∈ names then .error (.duplicateColor n)
    else .ok ()
  populate : ∀ t, (d.step (.populate t)).2 =
    if t.name ∈ names then .ok ()
    else if t.name = "" then .error .emptyName
    else .error (.unknownColor t.name)
  setExtensions : ∀ extensions, (d.step (.setExtensions extensions)).2 = .ok ()
  refused : ∀ call e, (d.step call).2 = .error e → (d.step call).1 = d

variable {d : Draft} (h : d.set.Holds name extensions names tokens)

theorem accept_refused {d : Draft} {result : Except ColorSetError Draft} {e : ColorSetError}
    (h : (d.accept result).2 = .error e) : (d.accept result).1 = d := by
  cases result with
  | ok d' => cases h
  | error e' => rfl

include h

theorem register_eq (n : String) : d.register n =
    if n = "" then .error .emptyName
    else if n ∈ names then .error (.duplicateColor n)
    else .ok ⟨{ d.set with colors := d.set.colors.insert n (.placeholder n) }⟩ := by
  simp only [Draft.register, h.contains]

theorem populate_eq (t : Token) : d.populate t =
    if t.name ∈ names then .ok ⟨{ d.set with colors := d.set.colors.insert t.name t }⟩
    else if t.name = "" then .error .emptyName
    else .error (.unknownColor t.name) := by
  rw [Draft.populate, h.replace_eq]
  by_cases hempty : t.name = ""
  · simp [hempty, h.nonempty]
  · by_cases ht : t.name ∈ names
    · simp only [if_neg hempty, if_pos ht]
    · simp only [if_neg hempty, if_neg ht]

theorem answers : d.Answers names where
  register := fun n => by
    rw [step, register_eq h]
    split_ifs <;> rfl
  populate := fun t => by
    rw [step, populate_eq h]
    split_ifs <;> rfl
  setExtensions := fun _ => rfl
  refused := fun call e hrefused => by
    cases call with
    | register n => exact accept_refused hrefused
    | populate t => exact accept_refused hrefused
    | setExtensions _ => cases hrefused

omit h

/-- The set of the draft `d`, given the log of the calls so far. -/
def Logged (name : String) (d : Draft) (log : Log) : Prop :=
  d.set.Holds name log.extensions log.registered log.populated

/-- **One call on a draft.** -/
theorem Logged.step {log : Log} (h : Logged name d log) (call : Call) :
    Logged name (d.step call).1 (log ++ [(call, (d.step call).2)]) := by
  unfold Logged Log.extensions Log.registered Log.populated at *
  simp only [List.filterMap_append]
  cases call with
  | register n =>
    rw [Draft.step, register_eq h]
    split_ifs with hempty hmem
    · simpa [accept] using h
    · simpa [accept] using h
    · simpa [accept] using h.register hempty hmem
  | populate t =>
    rw [Draft.step, populate_eq h]
    split_ifs with hmem hempty
    · simpa [accept] using h.store hmem
    · simpa [accept] using h
    · simpa [accept] using h
  | setExtensions extensions =>
    simpa [Draft.step, accept, Draft.setExtensions] using h.setExtensions extensions

theorem Logged.run {start : Draft} (h : Logged name start []) (calls : List Call) :
    Logged name (start.run calls).1 (start.run calls).2 :=
  logged_induction h (fun _ _ call h => h.step call) calls

theorem logged_start (name : String) : Logged name ⟨{ name }⟩ [] :=
  ⟨rfl, rfl, .nil, List.not_mem_nil, fun _ ht => absurd ht List.not_mem_nil, fun _ => rfl⟩

end Draft

/-! ## Finished sets -/

/-- How the set `s`, in which `names` are registered and `tokens` stored, answers a replacement:
with the token it displaces. One that is refused leaves the set as it is. -/
structure Answers (s : ColorSet) (names : List String) (tokens : List Token) : Prop where
  exchange : ∀ t, (s.exchange t).2 =
    if t.name ∈ names then .ok (lastToken tokens t.name) else .error (.unknownColor t.name)
  refused : ∀ t e, (s.exchange t).2 = .error e → (s.exchange t).1 = s

namespace Holds

variable (h : s.Holds name extensions names tokens)
include h

theorem answers : s.Answers names tokens where
  exchange := fun t => by
    rw [exchange, h.replace_eq]
    split_ifs <;> rfl
  refused := fun t e hrefused => by
    rw [exchange, h.replace_eq] at hrefused ⊢
    split_ifs at hrefused ⊢
    rfl

omit h

/-- **One replacement.** -/
theorem exchange {log : Exchanges} (h : s.Holds name extensions names (tokens ++ log.stored))
    (t : Token) : (s.exchange t).1.Holds name extensions names
      (tokens ++ Exchanges.stored (log ++ [(t, (s.exchange t).2)])) := by
  unfold Exchanges.stored at *
  rw [List.filterMap_append, ← List.append_assoc, ColorSet.exchange, h.replace_eq]
  split_ifs with ht
  · simpa using h.store ht
  · simpa using h

theorem run (h : s.Holds name extensions names tokens) (replacements : List Token) :
    (s.run replacements).1.Holds name extensions names
      (tokens ++ (s.run replacements).2.stored) :=
  logged_induction
    (motive := fun s log => Holds s name extensions names (tokens ++ Exchanges.stored log))
    (by simpa [Exchanges.stored] using h) (fun _ _ t h => h.exchange t) replacements

end Holds

/-! ## A whole life -/

/-- What a set that holds these things shows. -/
structure Consists (s : ColorSet) (name : String) (extensions names : List String)
    (tokens : List Token) : Prop extends s.Holds name extensions names tokens where
  members : ∀ n, s.contains n = true ↔ n ∈ names
  size : s.size = names.length
  increasing : s.colorNames.Pairwise (· < ·)
  listed : ∀ n, n ∈ s.colorNames ↔ s.contains n = true
  keyed : ∀ n t, s.color? n = some t → t.name = n

theorem Holds.consists (h : s.Holds name extensions names tokens) :
    s.Consists name extensions names tokens where
  toHolds := h
  members := h.contains
  size := h.size
  increasing := s.colors.names_sorted
  listed := fun n => (h.mem_colorNames n).trans (h.contains n).symm
  keyed := fun _ _ => h.keyed

/-- The sets `s` and `s'` differ at most in the tokens under their names. -/
structure SameMembers (s s' : ColorSet) : Prop where
  name : s'.name = s.name
  extensions : s'.extensions = s.extensions
  contains : ∀ n, s'.contains n = s.contains n
  size : s'.size = s.size

theorem Holds.sameMembers {s' : ColorSet} {tokens' : List Token}
    (h : s.Holds name extensions names tokens) (h' : s'.Holds name extensions names tokens') :
    s.SameMembers s' where
  name := h'.name.trans h.name.symm
  extensions := h'.extensions.trans h.extensions.symm
  contains := fun n => Bool.eq_iff_iff.2 ((h'.contains n).trans (h.contains n).symm)
  size := h'.size.trans h.size.symm

/-- **The life of a colour set**: started under a name, drafted by any calls, finished, and used for
any replacements. -/
theorem life_cycle (name : String) (calls : List Draft.Call) (replacements : List Token) :
    match Draft.start name with
    | .error e => name = "" ∧ e = .emptyName
    | .ok start =>
      name ≠ "" ∧ ∃ d log s exchanges,
        start.run calls = (d, log) ∧ d.finish.run replacements = (s, exchanges) ∧
        d.set.Consists name log.extensions log.registered log.populated ∧
        d.Answers log.registered ∧
        s.Consists name log.extensions log.registered (log.populated ++ exchanges.stored) ∧
        s.Answers log.registered (log.populated ++ exchanges.stored) ∧
        d.finish.SameMembers s := by
  unfold Draft.start
  split_ifs with hname
  · exact ⟨hname, rfl⟩
  · have hdraft := (Draft.logged_start name).run calls
    have hset := Holds.run hdraft replacements
    exact ⟨hname, _, _, _, _, rfl, rfl, hdraft.consists, Draft.answers hdraft, hset.consists,
      hset.answers, Holds.sameMembers hdraft hset⟩

end ColorSet

end Livery
