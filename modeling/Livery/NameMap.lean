/-!
# Maps from names

A map from names to values, kept as a list in increasing order of the names. Equal maps are equal
lists, and listing a map shows its names sorted.

- `get?_insert`: look-up after an insertion.
- `names_sorted`, `mem_names_iff`: the names listed are those with a value, in increasing order.
-/

namespace Livery

/-- An association list in strictly increasing order of its names. -/
structure NameMap (α : Type) where
  entries : List (String × α)
  sorted : entries.Pairwise (·.1 < ·.1)

namespace NameMap

variable {α β : Type}

/-- Puts `value` under `name`, in place of an earlier one. -/
def insertSorted (name : String) (value : α) : List (String × α) → List (String × α)
  | [] => [(name, value)]
  | e :: es =>
    if name < e.1 then (name, value) :: e :: es
    else if name = e.1 then (name, value) :: es
    else e :: insertSorted name value es

theorem mem_insertSorted {name : String} {value : α} {e : String × α} {l : List (String × α)}
    (h : e ∈ insertSorted name value l) : e = (name, value) ∨ e ∈ l := by
  induction l with
  | nil => simpa [insertSorted] using h
  | cons a l ih => grind [insertSorted]

theorem insertSorted_sorted (name : String) (value : α) {l : List (String × α)}
    (h : l.Pairwise (·.1 < ·.1)) : (insertSorted name value l).Pairwise (·.1 < ·.1) := by
  induction l with
  | nil => simp [insertSorted]
  | cons a l ih =>
    rw [List.pairwise_cons] at h
    unfold insertSorted
    split
    · next hlt =>
      refine List.pairwise_cons.2 ⟨fun e he => ?_, List.pairwise_cons.2 h⟩
      rcases List.mem_cons.1 he with rfl | he
      · exact hlt
      · exact String.lt_trans hlt (h.1 e he)
    · split
      · next heq => exact List.pairwise_cons.2 ⟨fun e he => by simpa [heq] using h.1 e he, h.2⟩
      · next hlt hne =>
        refine List.pairwise_cons.2 ⟨fun e he => ?_, ih h.2⟩
        rcases mem_insertSorted he with rfl | he
        · rcases Std.lt_trichotomy a.1 name with h' | h' | h'
          · exact h'
          · exact absurd h'.symm hne
          · exact absurd h' hlt
        · exact h.1 e he

def empty : NameMap α := ⟨[], .nil⟩

instance : Inhabited (NameMap α) := ⟨empty⟩

instance [DecidableEq α] : DecidableEq (NameMap α) := fun a b =>
  if h : a.entries = b.entries then
    isTrue (by cases a; cases b; simpa using h)
  else isFalse fun hab => h (by rw [hab])

/-- The value under `name`. -/
def get? (m : NameMap α) (name : String) : Option α :=
  m.entries.lookup name

def contains (m : NameMap α) (name : String) : Bool :=
  (m.get? name).isSome

/-- Puts `value` under `name`, in place of an earlier one, by `insertSorted`. -/
def insert (m : NameMap α) (name : String) (value : α) : NameMap α :=
  ⟨insertSorted name value m.entries, insertSorted_sorted name value m.sorted⟩

/-- The names of `m` in increasing order. -/
def names (m : NameMap α) : List String := m.entries.map (·.1)

/-- The values of `m` in the order of their names. -/
def values (m : NameMap α) : List α := m.entries.map (·.2)

def size (m : NameMap α) : Nat := m.entries.length

/-- The same names with each value changed by `f`. -/
def map (f : α → β) (m : NameMap α) : NameMap β :=
  ⟨m.entries.map fun e => (e.1, f e.2), List.pairwise_map.2 m.sorted⟩

theorem lookup_insertSorted (name : String) (value : α) (l : List (String × α)) (x : String) :
    (insertSorted name value l).lookup x = if x = name then some value else l.lookup x := by
  induction l with
  | nil => grind [insertSorted]
  | cons a l ih =>
    obtain ⟨k, v⟩ := a
    unfold insertSorted
    by_cases hx : x = name <;> by_cases hk : x = k <;> grind

@[simp] theorem get?_insert (m : NameMap α) (name x : String) (value : α) :
    (m.insert name value).get? x = if x = name then some value else m.get? x :=
  lookup_insertSorted name value m.entries x

@[simp] theorem get?_empty (x : String) : (empty : NameMap α).get? x = none := rfl

theorem get?_insert_self (m : NameMap α) (name : String) (value : α) :
    (m.insert name value).get? name = some value := by simp

theorem get?_insert_of_ne {m : NameMap α} {name x : String} (value : α) (h : x ≠ name) :
    (m.insert name value).get? x = m.get? x := by simp [h]

theorem contains_insert (m : NameMap α) (name x : String) (value : α) :
    (m.insert name value).contains x = true ↔ x = name ∨ m.contains x = true := by
  unfold contains
  rw [get?_insert]
  by_cases h : x = name <;> simp [h]

theorem contains_insert_of_contains {m : NameMap α} {name : String}
    (h : m.contains name = true) (x : String) (value : α) :
    (m.insert name value).contains x = m.contains x := by
  rw [Bool.eq_iff_iff, contains_insert]
  exact ⟨fun hx => hx.elim (fun heq => heq ▸ h) id, .inr⟩

@[simp] theorem get?_map (f : α → β) (m : NameMap α) (x : String) :
    (m.map f).get? x = (m.get? x).map f := by
  change (m.entries.map fun e => (e.1, f e.2)).lookup x = (m.entries.lookup x).map f
  induction m.entries with
  | nil => rfl
  | cons a l ih =>
    obtain ⟨k, v⟩ := a
    by_cases h : x = k <;> grind

/-- `names` lists the names in strictly increasing order. -/
theorem names_sorted (m : NameMap α) : m.names.Pairwise (· < ·) :=
  List.pairwise_map.2 m.sorted

/-- The name `x` is listed exactly when there is a value under it. -/
theorem mem_names_iff (m : NameMap α) (x : String) : x ∈ m.names ↔ (m.get? x).isSome = true := by
  unfold names get?
  induction m.entries with
  | nil => simp
  | cons a l ih =>
    obtain ⟨k, v⟩ := a
    by_cases h : x = k <;> grind

end NameMap

end Livery
