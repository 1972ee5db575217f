import Livery.Proofs.Blanks
import Livery.Proofs.Literals
import Mathlib.Data.Set.Function

/-!
# Lists of extensions

An attribute that lists extensions is cut at every `;`, and what is left of a piece without the
white space around it is an entry. Lists that are written with a `;` between two entries and nothing
else are canonical.

* `split_append`: a list of lists is read list by list.
* `isEntry_of_mem_split`: what is read are entries that can be told in a list.
* `split_canonical`: the canonical texts and the lists of entries correspond to each other.
-/

namespace Livery.Extension

variable {s : String} {entries : List String}

/-- What `piece` of a list gives: an entry, unless it is white space. -/
def entryOf (piece : List Char) : Option String :=
  if (Text.trimmed piece).isEmpty then none else some (String.ofList (Text.trimmed piece))

/-- The entries that `split` finds are those of the pieces of a list. -/
theorem split_eq_filterMap (s : String) :
    split s = (s.toList.splitOn ';').filterMap entryOf := by
  unfold split
  rw [Text.pieces_eq_splitOn]
  induction s.toList.splitOn ';' with
  | nil => rfl
  | cons piece pieces ih =>
    rw [List.map_cons, List.filterMap_cons, entryOf]
    by_cases h : (Text.trimmed piece).isEmpty = true
    · rw [List.filter_cons_of_neg (by simp [h]), if_pos h, ih]
    · rw [List.filter_cons_of_pos (by simp [h]), if_neg h, List.map_cons, ih]

/-- **A list of lists is read list by list.** -/
theorem split_append (a b : String) : split (a ++ ";" ++ b) = split a ++ split b := by
  have htext : (a ++ ";" ++ b).toList = a.toList ++ ';' :: b.toList := by
    simp [String.toList_append]
  rw [split_eq_filterMap, split_eq_filterMap, split_eq_filterMap, htext,
    List.splitOn_eq_splitOnP, List.splitOnP_append_cons _ _ (by rfl), List.filterMap_append]
  rfl

/-- **What `split` gives are entries.** -/
theorem isEntry_of_mem_split {e : String} (h : e ∈ split s) : IsEntry e := by
  rw [split_eq_filterMap, List.mem_filterMap] at h
  obtain ⟨piece, hpiece, hentry⟩ := h
  unfold entryOf at hentry
  split at hentry
  · cases hentry
  · next hne =>
    rw [Option.some.injEq] at hentry
    subst hentry
    refine ⟨?_, ?_, ?_⟩
    · intro hnil
      apply hne
      rw [← String.toList_inj, String.toList_ofList] at hnil
      rw [hnil]
      rfl
    · rw [← String.toList_inj, Text.trim_toList, String.toList_ofList, Text.trimmed_trimmed]
    · -- trimming only takes characters away
      rw [String.toList_ofList]
      intro hmem
      rw [← Text.pieces_eq_splitOn] at hpiece
      exact Text.not_mem_of_mem_pieces hpiece ((Text.trimmed_sublist piece).subset hmem)

/-! ## Canonical texts -/

/-- A text in which a list can be written: nothing for no entries, or entries with a `;` between
each two of them. -/
def IsCanonical (s : String) : Prop :=
  s = "" ∨ ∀ piece ∈ s.toList.splitOn ';', IsEntry (String.ofList piece)

theorem isCanonical_join (h : ∀ e ∈ entries, IsEntry e) : IsCanonical (join entries) := by
  cases entries with
  | nil => exact .inl rfl
  | cons entry more =>
    right
    have hsplit :
        (join (entry :: more)).toList.splitOn ';' = (entry :: more).map String.toList := by
      rw [join, String.toList_intercalate]
      apply List.splitOn_intercalate
      · intro cs hcs
        obtain ⟨e, he, rfl⟩ := List.mem_map.1 hcs
        exact (h e he).undivided
      · exact List.cons_ne_nil _ _
    rw [hsplit]
    intro piece hpiece
    obtain ⟨e, he, rfl⟩ := List.mem_map.1 hpiece
    rw [String.ofList_toList]
    exact h e he

/-- A piece that is an entry is read as it is. -/
theorem entryOf_entry {piece : List Char} (h : IsEntry (String.ofList piece)) :
    entryOf piece = some (String.ofList piece) := by
  have htrim : Text.trimmed piece = piece := by
    have := congrArg String.toList h.trimmed
    rwa [Text.trim_toList, String.toList_ofList] at this
  have hne : piece ≠ [] := by
    rintro rfl
    exact h.nonempty rfl
  rw [entryOf, htrim, if_neg (by simpa using hne)]

/-- **A canonical text is what `join` writes of its entries.** -/
theorem join_split (h : IsCanonical s) : join (split s) = s := by
  rcases h with rfl | hentries
  · rfl
  · have hsplit : split s = (s.toList.splitOn ';').map String.ofList := by
      rw [split_eq_filterMap, ← List.filterMap_eq_map]
      apply List.filterMap_congr
      intro piece hpiece
      exact entryOf_entry (hentries piece hpiece)
    have hback : (String.toList ∘ String.ofList) = id := funext fun cs => String.toList_ofList
    rw [← String.toList_inj, join, String.toList_intercalate, hsplit, List.map_map, hback,
      List.map_id]
    exact List.intercalate_splitOn ';'

/-- **Splitting and joining extension lists.** A list of lists is read list by list. Whatever the
text, its entries can be told in a list, and they are read again from the list that is written with
them; so is every list of such entries. Splitting is one-to-one between the canonical texts and the
lists of such entries. -/
theorem split_canonical :
    (∀ a b, split (a ++ ";" ++ b) = split a ++ split b) ∧
    (∀ s, (∀ e ∈ split s, IsEntry e) ∧ split (join (split s)) = split s) ∧
    (∀ entries, (∀ e ∈ entries, IsEntry e) → split (join entries) = entries) ∧
    Set.BijOn split {s | IsCanonical s} {entries | ∀ e ∈ entries, IsEntry e} := by
  have hentries : ∀ s, ∀ e ∈ split s, IsEntry e := fun s e he => isEntry_of_mem_split he
  refine ⟨split_append, ?_, ?_, ?_, ?_, ?_⟩
  · intro s
    exact ⟨hentries s, split_join (hentries s)⟩
  · intro entries h
    exact split_join h
  · intro s _
    exact hentries s
  · intro s hs t ht heq
    rw [← join_split hs, ← join_split ht, heq]
  · intro entries h
    exact ⟨join entries, isCanonical_join h, split_join h⟩

/-- Two entries between pieces that give none. -/
theorem split_canonical_sparse :
    split " .cs ;; .csx;" = [".cs", ".csx"] ∧ (∀ e ∈ [".cs", ".csx"], IsEntry e) ∧
      split (join [".cs", ".csx"]) = [".cs", ".csx"] := by
  obtain ⟨-, hread, hback, -⟩ := split_canonical
  have hsplit : split " .cs ;; .csx;" = [".cs", ".csx"] := by decide +kernel
  have hentries : ∀ e ∈ [".cs", ".csx"], IsEntry e := by
    rw [← hsplit]
    exact (hread " .cs ;; .csx;").1
  exact ⟨hsplit, hentries, hback _ hentries⟩

end Livery.Extension
