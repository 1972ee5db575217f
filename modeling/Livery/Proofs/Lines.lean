import Livery.Position
import Mathlib.Data.List.Basic

/-!
# Lines and columns

A position is meant to be looked up in the source: take the lines of the text, count to the line,
count to the column. That finds the byte whose offset the position was made from.

* `Position.ofOffset_line`: the line counts the line feeds.
* `Position.ofOffset_before`: offsets further on have later positions.
* `Position.byteAt_ofOffset`: the byte at the position of an offset is the byte at the offset.
* `Position.ofOffset_within`: every offset of a text has a position in it.
-/

namespace Livery

/-- The lines of `input` without the line feeds between them. There is always one. -/
def linesOf (input : Bytes) : List Bytes := input.splitOn 0x0A

/-- The byte of `input` at a line and a column, both counted from one. -/
def byteAt (input : Bytes) : Position → Option UInt8
  | ⟨line + 1, column + 1⟩ => (linesOf input)[line]?.bind (·[column]?)
  | _ => none

theorem linesOf_cons (b : UInt8) (bs : Bytes) :
    linesOf (b :: bs) =
      if b = 0x0A then [] :: linesOf bs else (linesOf bs).modifyHead (List.cons b) := by
  rw [linesOf, List.splitOn, List.splitOnP_cons_eq_if_modifyHead]
  simp [linesOf, List.splitOn]

/-- The first line of `input`. -/
theorem linesOf_head (input : Bytes) :
    (linesOf input)[0]? = some (input.takeWhile (· != 0x0A)) := by
  induction input with
  | nil => rfl
  | cons b bs ih =>
    rw [linesOf_cons]
    by_cases hb : b = 0x0A
    · simp [hb]
    · rw [if_neg hb, List.getElem?_modifyHead, if_pos rfl, ih,
        List.takeWhile_cons_of_pos (by simpa using hb)]
      rfl

namespace Position

/-- The position `p` comes before `q`: on an earlier line, or further left on the same one. -/
def Before (p q : Position) : Prop :=
  p.line < q.line ∨ p.line = q.line ∧ p.column < q.column

theorem Before.trans {p q s : Position} (h : p.Before q) (h' : q.Before s) : p.Before s := by
  unfold Before at *
  omega

theorem Before.ne {p q : Position} (h : p.Before q) : p ≠ q := by
  rintro rfl
  unfold Before at h
  omega

/-! ## Walking through the bytes -/

theorem before_advance (p : Position) (b : UInt8) : p.Before (p.advance b) := by
  unfold advance
  split
  · exact .inl (Nat.lt_succ_self _)
  · exact .inr ⟨rfl, Nat.lt_succ_self _⟩

theorem before_foldl_advance (p : Position) {bs : Bytes} (h : bs ≠ []) :
    p.Before (bs.foldl advance p) := by
  induction bs generalizing p with
  | nil => exact absurd rfl h
  | cons b bs ih =>
    rw [List.foldl_cons]
    by_cases hbs : bs = []
    · subst hbs
      exact before_advance p b
    · exact (before_advance p b).trans (ih _ hbs)

/-- **Offsets further on have later positions.** -/
theorem ofOffset_before (input : Bytes) {o o' : Nat} (h : o < o') (ho : o' ≤ input.length) :
    (ofOffset input o).Before (ofOffset input o') := by
  have hsplit : input.take o' = input.take o ++ (input.drop o).take (o' - o) := by
    rw [← List.take_add]
    congr 1
    omega
  have hbetween : (input.drop o).take (o' - o) ≠ [] := by
    intro heq
    have := congrArg List.length heq
    simp only [List.length_take, List.length_drop, List.length_nil] at this
    omega
  unfold ofOffset
  rw [hsplit, List.foldl_append]
  exact before_foldl_advance _ hbetween

/-- One byte further. -/
theorem ofOffset_succ {input : Bytes} {o : Nat} {b : UInt8} (h : input[o]? = some b) :
    ofOffset input (o + 1) = (ofOffset input o).advance b := by
  rw [ofOffset, List.take_add_one, h, Option.toList_some, List.foldl_append]
  rfl

theorem foldl_advance_line (p : Position) (bs : Bytes) :
    (bs.foldl advance p).line = p.line + bs.count 0x0A := by
  induction bs generalizing p with
  | nil => rfl
  | cons b bs ih =>
    rw [List.foldl_cons, ih, advance, List.count_cons]
    by_cases hb : b = 0x0A
    · simp [hb]
      omega
    · simp [hb]

/-- The line counts the line feeds before the offset `o`. -/
theorem ofOffset_line (input : Bytes) (o : Nat) :
    (ofOffset input o).line = (input.take o).count 0x0A + 1 := by
  rw [ofOffset, foldl_advance_line, Nat.add_comm]

/-- Without line feeds in `bs`, the columns go on. -/
theorem foldl_advance_plain (p : Position) {bs : Bytes} (h : 0x0A ∉ bs) :
    bs.foldl advance p = ⟨p.line, p.column + bs.length⟩ := by
  induction bs generalizing p with
  | nil => rfl
  | cons b bs ih =>
    rw [List.mem_cons, not_or] at h
    rw [List.foldl_cons, ih _ h.2, advance, if_neg (Ne.symm h.1), List.length_cons]
    simp only [Position.mk.injEq, true_and]
    omega

/-- Columns that the walk of `advance` has when it starts go away with the first line. -/
theorem foldl_advance_columns (line column n : Nat) (bs : Bytes) :
    bs.foldl advance ⟨line, column + n⟩ =
      if 0x0A ∈ bs then bs.foldl advance ⟨line, column⟩ else ⟨line, column + n + bs.length⟩ := by
  induction bs generalizing column with
  | nil => rfl
  | cons b bs ih =>
    rw [List.foldl_cons, List.foldl_cons, advance, advance]
    by_cases hb : b = 0x0A
    · simp [hb]
    · rw [if_neg hb, if_neg hb]
      dsimp only
      rw [Nat.add_right_comm, ih]
      simp only [List.mem_cons, Ne.symm hb, false_or, List.length_cons]
      split
      · rfl
      · simp only [Position.mk.injEq, true_and]
        omega

/-- Where the walk from the start of `input` is after `o` bytes: so many lines further down, and
there in front of what is left of the line. On the first line the columns go on from where it
started. -/
theorem foldl_advance_at (line column : Nat) {o : Nat} {input : Bytes} (h : o ≤ input.length) :
    ∃ i k l, (input.take o).foldl advance ⟨line, column⟩ =
        ⟨line + i, if i = 0 then column + k else k + 1⟩ ∧
      (linesOf input)[i]? = some l ∧ k ≤ l.length ∧
      l.drop k = (input.drop o).takeWhile (· != 0x0A) := by
  induction o generalizing line column input with
  | zero => exact ⟨0, 0, _, by simp, linesOf_head input, Nat.zero_le _, by simp⟩
  | succ o ih =>
    cases input with
    | nil => simp at h
    | cons x rest =>
      rw [List.take_succ_cons, List.foldl_cons, linesOf_cons, advance, List.drop_succ_cons]
      have hrest : o ≤ rest.length := Nat.le_of_succ_le_succ h
      by_cases hx : x = 0x0A
      · -- one line is done, and the walk starts anew
        obtain ⟨i, k, l, hwalk, hline, hk, hleft⟩ := ih (line + 1) 1 hrest
        refine ⟨i + 1, k, l, ?_, by rw [if_pos hx]; exact hline, hk, hleft⟩
        rw [if_pos hx, hwalk]
        by_cases hi : i = 0
        · simp [hi, Nat.add_comm]
        · simp [hi]
          omega
      · obtain ⟨i, k, l, hwalk, hline, hk, hleft⟩ := ih line (column + 1) hrest
        rw [if_neg hx, if_neg hx, hwalk]
        by_cases hi : i = 0
        · subst hi
          refine ⟨0, k + 1, x :: l, ?_, ?_, Nat.succ_le_succ hk, hleft⟩
          · simp
            omega
          · rw [List.getElem?_modifyHead, if_pos rfl, hline]
            rfl
        · refine ⟨i, k, l, by simp [hi], ?_, hk, hleft⟩
          rw [List.getElem?_modifyHead, if_neg hi, hline]

/-- The position of the offset `o`, by the line it is on and what is left of this line. -/
theorem ofOffset_at {input : Bytes} {o : Nat} (h : o ≤ input.length) :
    ∃ i k l, ofOffset input o = ⟨i + 1, k + 1⟩ ∧ (linesOf input)[i]? = some l ∧ k ≤ l.length ∧
      l.drop k = (input.drop o).takeWhile (· != 0x0A) := by
  obtain ⟨i, k, l, hwalk, hat⟩ := foldl_advance_at 1 1 h
  refine ⟨i, k, l, ?_, hat⟩
  rw [ofOffset, hwalk, Nat.add_comm 1 i]
  by_cases hi : i = 0
  · simp [hi, Nat.add_comm]
  · simp [hi]

/-- **The byte at the position of an offset is the byte at the offset**, unless it ends a line. -/
theorem byteAt_ofOffset {input : Bytes} {o : Nat} {b : UInt8} (h : input[o]? = some b)
    (hb : b ≠ 0x0A) : byteAt input (ofOffset input o) = some b := by
  obtain ⟨hlt, -⟩ := List.getElem?_eq_some_iff.1 h
  obtain ⟨i, k, l, hposition, hline, -, hleft⟩ := ofOffset_at (Nat.le_of_lt hlt)
  have hbyte : l[k]? = some b := by
    rw [← List.head?_drop] at h ⊢
    rw [hleft, List.head?_takeWhile, h]
    simpa using hb
  rw [hposition, byteAt, hline]
  exact hbyte

/-- The position `p` lies in `input`: there is such a line, and the column is one of its bytes or
the place behind its last one. -/
structure Within (input : Bytes) (p : Position) : Prop where
  line : 1 ≤ p.line ∧ p.line ≤ (linesOf input).length
  column : 1 ≤ p.column ∧ ∃ l, (linesOf input)[p.line - 1]? = some l ∧ p.column ≤ l.length + 1

/-- **The position of an offset lies in the text.** -/
theorem ofOffset_within {input : Bytes} {o : Nat} (h : o ≤ input.length) :
    (ofOffset input o).Within input := by
  obtain ⟨i, k, l, hposition, hline, hk, -⟩ := ofOffset_at h
  obtain ⟨hlt, -⟩ := List.getElem?_eq_some_iff.1 hline
  rw [hposition]
  exact ⟨⟨Nat.succ_pos i, hlt⟩, Nat.succ_pos k, l, hline, Nat.succ_le_succ hk⟩

theorem ofMarkup_within {input : Bytes} {o : Nat} (h : o ≤ input.length) :
    (ofMarkup input o).Within input := by
  unfold ofMarkup
  split
  · exact ofOffset_within (by omega)
  · exact ofOffset_within h

end Position

end Livery
