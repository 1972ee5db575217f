import Livery.Text.Blank
import Livery.Text.Split
import Mathlib.Data.List.DropRight

/-!
# White space at the ends, separators in between

A text is tight if it neither begins nor ends with white space. Trimming gives the tight part of a
text, and leaves tight texts alone. Cutting at a separator is the cutting of the list library.

* `trimmed_eq_self_iff`: the tight texts are those that trimming leaves as they are.
* `isTight_trimmed`: a trimmed text is tight.
* `trimmed_map_toLower`: letter case does not matter to trimming.
* `pieces_eq_splitOn`: the pieces between separators.
-/

namespace Livery.Text

variable {cs : List Char}

/-- The characters `cs` have no white space at either end. -/
structure IsTight (cs : List Char) : Prop where
  head : ∀ c ∈ cs.head?, isBlank c = false
  last : ∀ c ∈ cs.getLast?, isBlank c = false

theorem trimmed_eq_rdropWhile (cs : List Char) :
    trimmed cs = (cs.dropWhile isBlank).rdropWhile isBlank := rfl

theorem dropWhile_isBlank_of_head (h : ∀ c ∈ cs.head?, isBlank c = false) :
    cs.dropWhile isBlank = cs := by
  cases cs with
  | nil => rfl
  | cons c cs => exact List.dropWhile_cons_of_neg (by simp [h c rfl])

/-- What is left of `cs` behind the white space at its front does not begin with white space. -/
theorem head_dropWhile_isBlank (cs : List Char) :
    ∀ c ∈ (cs.dropWhile isBlank).head?, isBlank c = false := by
  intro c hc
  have h := List.head?_dropWhile_not isBlank cs
  rw [Option.mem_def.1 hc] at h
  exact h

theorem IsTight.trimmed_eq (h : IsTight cs) : trimmed cs = cs := by
  rw [trimmed_eq_rdropWhile, dropWhile_isBlank_of_head h.head, List.rdropWhile_eq_self_iff]
  intro hne
  have hlast := h.last _ (List.getLast?_eq_some_getLast hne)
  simp [hlast]

/-- **A text is tight when `trimmed`.** -/
theorem isTight_trimmed (cs : List Char) : IsTight (trimmed cs) := by
  rw [trimmed_eq_rdropWhile]
  constructor
  · -- what is left at the front is what trimming at the front has left there
    intro c hc
    have hprefix := List.rdropWhile_prefix isBlank (l := cs.dropWhile isBlank)
    obtain ⟨more, hmore⟩ := hprefix
    apply head_dropWhile_isBlank cs
    rw [← hmore, List.head?_append, Option.mem_def.1 hc]
    rfl
  · intro c hc
    have hne : (cs.dropWhile isBlank).rdropWhile isBlank ≠ [] := by
      intro hnil
      rw [hnil] at hc
      cases hc
    have hlast := List.rdropWhile_last_not isBlank (cs.dropWhile isBlank) hne
    rw [Option.mem_def, List.getLast?_eq_some_getLast hne, Option.some.injEq] at hc
    rw [hc] at hlast
    exact Bool.eq_false_iff.2 hlast

theorem trimmed_eq_self_iff : trimmed cs = cs ↔ IsTight cs := by
  constructor
  · intro h
    rw [← h]
    exact isTight_trimmed cs
  · exact IsTight.trimmed_eq

theorem trimmed_trimmed (cs : List Char) : trimmed (trimmed cs) = trimmed cs :=
  (isTight_trimmed cs).trimmed_eq

/-- Trimming only takes characters away. -/
theorem trimmed_sublist (cs : List Char) : (trimmed cs).Sublist cs := by
  rw [trimmed_eq_rdropWhile]
  have hback := (List.rdropWhile_prefix isBlank (cs.dropWhile isBlank)).sublist
  have hfront := List.dropWhile_sublist isBlank (l := cs)
  exact hback.trans hfront

/-! ## Letter case -/

/-- The number of the character `c` in lower case. -/
theorem toNat_toLower (c : Char) :
    c.toLower.toNat = if 65 ≤ c.toNat ∧ c.toNat ≤ 90 then c.toNat + 32 else c.toNat := by
  unfold Char.toLower
  by_cases h : c.val ≥ 'A'.val ∧ c.val ≤ 'Z'.val
  · have hrange : 65 ≤ c.toNat ∧ c.toNat ≤ 90 := h
    rw [dif_pos h, if_pos hrange]
    show (c.val + 32).toNat = c.val.toNat + 32
    have hsmall : c.val.toNat + 32 < 4294967296 := by
      have : c.val.toNat ≤ 90 := hrange.2
      omega
    rw [UInt32.toNat_add]
    exact Nat.mod_eq_of_lt hsmall
  · have hrange : ¬ (65 ≤ c.toNat ∧ c.toNat ≤ 90) := h
    rw [dif_neg h, if_neg hrange]

/-- Between the letters there is no white space. -/
theorem isBlank_of_letter {c : Char} (h : 65 ≤ c.toNat) (h' : c.toNat ≤ 122) :
    isBlank c = false := by
  rw [Bool.eq_false_iff]
  simp only [isBlank, ne_eq, Bool.or_eq_true, Bool.and_eq_true, decide_eq_true_eq, beq_iff_eq]
  omega

/-- A letter `c` that changes its case is no white space, before and after. -/
theorem isBlank_toLower (c : Char) : isBlank c.toLower = isBlank c := by
  have hlower := toNat_toLower c
  by_cases h : 65 ≤ c.toNat ∧ c.toNat ≤ 90
  · rw [if_pos h] at hlower
    rw [isBlank_of_letter (by omega) (by omega), isBlank_of_letter h.1 (by omega)]
  · rw [if_neg h] at hlower
    unfold isBlank
    rw [hlower]

/-- No letter is a dot in the other case. -/
theorem toLower_beq_dot (c : Char) : (c.toLower == '.') = (c == '.') := by
  have hlower := toNat_toLower c
  have hdot : ∀ d : Char, d = '.' ↔ d.toNat = 46 := fun d => Char.toNat_inj.symm
  rw [Bool.eq_iff_iff, beq_iff_eq, beq_iff_eq, hdot, hdot, hlower]
  split
  · omega
  · exact Iff.rfl

theorem toLower_toLower (c : Char) : c.toLower.toLower = c.toLower := by
  rw [← Char.toNat_inj, toNat_toLower, toNat_toLower]
  split
  · rw [if_neg (by omega)]
  · rfl

theorem trimmed_map_toLower (cs : List Char) :
    trimmed (cs.map Char.toLower) = (trimmed cs).map Char.toLower := by
  have hblank : isBlank ∘ Char.toLower = isBlank := funext isBlank_toLower
  simp only [trimmed, List.dropWhile_map, ← List.map_reverse, hblank]

/-! ## Pieces -/

theorem pieces_eq_splitOn (separator : Char) (cs : List Char) :
    pieces separator cs = cs.splitOn separator := by
  induction cs with
  | nil => rfl
  | cons c cs ih =>
    rw [List.splitOn_eq_splitOnP, List.splitOnP_cons_eq_if_modifyHead, ← List.splitOn_eq_splitOnP,
      ← ih, pieces]
    by_cases hc : c = separator
    · simp [hc]
    · rw [if_neg hc, if_neg (by simpa using hc)]
      have hne : pieces separator cs ≠ [] := by
        rw [ih]
        exact List.splitOn_ne_nil _ _
      cases hps : pieces separator cs with
      | nil => exact absurd hps hne
      | cons p ps => rfl

/-- No piece holds the `separator`. -/
theorem not_mem_of_mem_pieces {separator : Char} {piece : List Char}
    (h : piece ∈ pieces separator cs) : separator ∉ piece := by
  induction cs generalizing piece with
  | nil =>
    rw [pieces, List.mem_singleton] at h
    rw [h]
    exact List.not_mem_nil
  | cons c cs ih =>
    rw [pieces] at h
    by_cases hc : c = separator
    · rw [if_pos hc, List.mem_cons] at h
      rcases h with rfl | h
      · exact List.not_mem_nil
      · exact ih h
    · rw [if_neg hc] at h
      cases hps : pieces separator cs with
      | nil =>
        rw [hps, List.mem_singleton] at h
        rw [h, List.mem_singleton]
        exact Ne.symm hc
      | cons p ps =>
        rw [hps] at h ih
        rcases List.mem_cons.1 h with rfl | h
        · rw [List.mem_cons, not_or]
          exact ⟨Ne.symm hc, ih List.mem_cons_self⟩
        · exact ih (List.mem_cons_of_mem _ h)

end Livery.Text
