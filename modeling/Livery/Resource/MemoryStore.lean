import Livery.Text.Utf8
import Livery.ThemeError

/-!
# Resources in memory

A store of files under their addresses. Storing under an address again replaces what was there.
-/

namespace Livery

/-- The files that a store holds, one for each `ResourceName`. -/
structure MemoryStore where
  entries : List (ResourceName × Bytes) := []

namespace MemoryStore

/-- The file at the address `r`. -/
def get? (s : MemoryStore) (r : ResourceName) : Option Bytes := s.entries.lookup r

/-- Stores `data` at `r`, in place of an earlier file at the same address. -/
def insert (s : MemoryStore) (r : ResourceName) (data : Bytes) : MemoryStore :=
  ⟨(r, data) :: s.entries.filter (·.1 != r)⟩

def size (s : MemoryStore) : Nat := s.entries.length

/-- Opens the file at the address `r`. -/
def fetch (s : MemoryStore) (r : ResourceName) : Except ThemeError Bytes :=
  match s.get? r with
  | some data => .ok data
  | none => .error (.resourceNotFound r)

theorem lookup_filter_ne {r x : ResourceName} (h : x ≠ r) (l : List (ResourceName × Bytes)) :
    (l.filter (·.1 != r)).lookup x = l.lookup x := by
  induction l with
  | nil => rfl
  | cons e l ih => grind

@[simp] theorem get?_insert (s : MemoryStore) (r x : ResourceName) (data : Bytes) :
    (s.insert r data).get? x = if x = r then some data else s.get? x := by
  unfold insert get?
  by_cases h : x = r
  · simp [h]
  · have hx : (x == r) = false := by simpa using h
    simp [List.lookup_cons, hx, h, lookup_filter_ne h]

end MemoryStore

end Livery
