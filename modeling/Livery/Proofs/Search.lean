import Mathlib.Data.List.Nodup

/-!
# Lists searched by key

Entries with keys are searched from the front for the first of a key, or from the back for the one
that was made last.

* `find?_key_eq_none_iff`, `of_find?_key`, `find?_key_eq_some_iff`: what is found under a key, and
  that nothing else is where keys are distinct.
* `find?_key_concat`, `eraseDups_concat`: the last entry of a key and the order of the keys, when
  one more entry is made.
-/

namespace Livery

section Keys

variable {α κ : Type} [BEq κ] [LawfulBEq κ] {key : α → κ} {l : List α} {k : κ} {a : α}

/-- Nothing is found under the key `k`, if that does not come up. -/
theorem find?_key_eq_none_iff : l.find? (key · == k) = none ↔ k ∉ l.map key := by
  simp

/-- What is found under `k` is an entry of that key. -/
theorem of_find?_key (h : l.find? (key · == k) = some a) : a ∈ l ∧ key a = k :=
  ⟨List.mem_of_find?_eq_some h, by simpa using List.find?_some h⟩

/-- **Where the keys are distinct**, the entry `a` is found under its key. -/
theorem find?_key_eq_some_iff (hkeys : (l.map key).Nodup) :
    l.find? (key · == k) = some a ↔ a ∈ l ∧ key a = k := by
  refine ⟨of_find?_key, ?_⟩
  rintro ⟨ha, rfl⟩
  cases hfind : l.find? (key · == key a) with
  | none => exact absurd (List.mem_map_of_mem ha) (find?_key_eq_none_iff.1 hfind)
  | some b =>
    obtain ⟨hb, hkey⟩ := of_find?_key hfind
    rw [List.inj_on_of_nodup_map hkeys hb ha hkey]

/-- The last of the entries `l` that is looked for, when `a` is one more. -/
theorem find?_reverse_concat (p : α → Bool) (l : List α) (a : α) :
    (l ++ [a]).reverse.find? p = if p a = true then some a else l.reverse.find? p := by
  rw [List.reverse_append, List.reverse_singleton, List.singleton_append, List.find?_cons]
  cases p a <;> rfl

/-- The last entry of the key `k`, when `a` is one more. -/
theorem find?_key_concat [DecidableEq κ] (l : List α) (a : α) (k : κ) :
    (l ++ [a]).reverse.find? (key · == k) =
      if k = key a then some a else l.reverse.find? (key · == k) := by
  rw [find?_reverse_concat]
  simp only [beq_iff_eq, eq_comm (a := k)]

end Keys

/-- One more `name` comes last, unless it was there. -/
theorem eraseDups_concat (names : List String) (name : String) :
    (names ++ [name]).eraseDups =
      if name ∈ names then names.eraseDups else names.eraseDups ++ [name] := by
  rw [List.eraseDups_append]
  split
  · next h =>
    rw [show [name].removeAll names = [] by simp [List.removeAll, h]]
    simp
  · next h =>
    rw [show [name].removeAll names = [name] by simp [List.removeAll, h]]
    simp [List.eraseDups_cons]

end Livery
