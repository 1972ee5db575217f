import Livery.Libraries
import Livery.Proofs.Relocation

/-!
# Positions behind a byte-order mark

A byte-order mark of UTF-8 is taken off a text before it is scanned, and offsets count from behind
it. Positions are looked up in the text with the mark, whose three bytes they do not know of, so
each of them is that of a place three bytes further left.

* `Position.ofOffset_marked`: what an offset of the text means in the text with the mark.
* `Position.Early`: how far off positions are.
* `read_marked`: the mark changes nothing but positions, and these come out early.
-/

namespace Livery

/-- The byte-order mark of UTF-8. -/
def utf8Mark : Bytes := [0xEF, 0xBB, 0xBF]

namespace Position

variable {input : Bytes} {o : Nat}

/-! ## One byte more or less -/

/-- On the first line, the column that `ofOffset` gives counts the bytes. -/
theorem ofOffset_first (ho : o ≤ input.length) (h : (ofOffset input o).line = 1) :
    ofOffset input o = ⟨1, o + 1⟩ := by
  rw [ofOffset_line] at h
  have hplain : 0x0A ∉ input.take o := List.count_eq_zero.1 (by omega)
  rw [ofOffset, foldl_advance_plain _ hplain, List.length_take, Nat.min_eq_left ho, Nat.add_comm]

/-- Going back by `k` on a line, as far as there are columns. -/
theorem ofOffset_back (ho : o ≤ input.length) {k : Nat} (h : k < (ofOffset input o).column) :
    k ≤ o ∧ ofOffset input (o - k) =
      ⟨(ofOffset input o).line, (ofOffset input o).column - k⟩ := by
  induction k with
  | zero => exact ⟨Nat.zero_le _, rfl⟩
  | succ k ih =>
    obtain ⟨hk, hback⟩ := ih (by omega)
    have hne : o - k ≠ 0 := by
      intro hzero
      rw [hzero] at hback
      have hcolumn := congrArg column hback
      simp only [ofOffset, List.take_zero, List.foldl_nil] at hcolumn h
      omega
    obtain ⟨n, hn⟩ := Nat.exists_eq_succ_of_ne_zero hne
    have hlt : n < input.length := by omega
    have hstep := ofOffset_succ (List.getElem?_eq_getElem hlt)
    rw [← Nat.succ_eq_add_one, ← hn, hback, advance] at hstep
    refine ⟨by omega, ?_⟩
    rw [show o - (k + 1) = n by omega]
    split at hstep
    · -- the line begins there, so there was no column left
      have hcolumn := congrArg column hstep
      dsimp only at hcolumn
      omega
    · obtain ⟨hline, hcolumn⟩ := Position.mk.inj hstep
      rw [hline, show (ofOffset input o).column - (k + 1) = (ofOffset input n).column by omega]

/-! ## Three bytes more -/

/-- **What an offset means behind `utf8Mark`.** On the first line the columns count the mark; on the
others nothing is different. -/
theorem ofOffset_marked (ho : o ≤ input.length) :
    ofOffset (utf8Mark ++ input) (o + 3) =
      if (ofOffset input o).line = 1 then ⟨1, o + 4⟩ else ofOffset input o := by
  have hwalk : ofOffset (utf8Mark ++ input) (o + 3) = (input.take o).foldl advance ⟨1, 1 + 3⟩ := rfl
  rw [hwalk, foldl_advance_columns, ofOffset_line, List.length_take, Nat.min_eq_left ho]
  by_cases hfeed : 0x0A ∈ input.take o
  · have hcount := List.count_pos_iff.2 hfeed
    rw [if_pos hfeed, if_neg (by omega)]
    rfl
  · have hcount := List.count_eq_zero.2 hfeed
    rw [if_neg hfeed, if_pos (by omega), Nat.add_comm]

/-- The positions of offsets inside `utf8Mark`. -/
theorem ofOffset_mark (input : Bytes) (h : o < 3) :
    ofOffset (utf8Mark ++ input) o = ⟨1, o + 1⟩ := by
  match o, h with
  | 0, _ => rfl
  | 1, _ => rfl
  | 2, _ => rfl

/-- The position `p'` comes out early for `p`: what is on the first line stays there and is not
moved to the right with the text, what is further down moves up or to the left, and what is far
enough to the right keeps its line. -/
structure Early (p p' : Position) : Prop where
  first : p.line = 1 → p'.line = 1 ∧ p'.column ≤ p.column + 1
  later : p.line ≠ 1 → p'.Before p
  line : 5 ≤ p.column → p'.line = p.line

theorem ofOffset_early {o' : Nat} (ho : o ≤ input.length) (hle : o ≤ o' + 1) (hle' : o' ≤ o + 1) :
    Early (ofOffset input o) (ofOffset (utf8Mark ++ input) o') := by
  have hpositive : 1 ≤ (ofOffset input o).line := by rw [ofOffset_line]; exact Nat.succ_pos _
  rcases Nat.lt_or_ge o' 3 with hmark | hbehind
  · rw [ofOffset_mark input hmark]
    refine ⟨fun hfirst => ⟨rfl, ?_⟩, fun hlater => .inl (by dsimp only; omega), fun hcolumn => ?_⟩
    · rw [ofOffset_first ho hfirst]
      dsimp only
      omega
    · -- a fifth column is further right than this
      have := (ofOffset_back ho (show 4 < (ofOffset input o).column by omega)).1
      omega
  · obtain ⟨m, rfl⟩ : ∃ m, o' = m + 3 := ⟨o' - 3, by omega⟩
    have hbefore := ofOffset_before input (show m < o by omega) ho
    have hmline : 1 ≤ (ofOffset input m).line := by rw [ofOffset_line]; exact Nat.succ_pos _
    have hline : (ofOffset (utf8Mark ++ input) (m + 3)).line = (ofOffset input m).line := by
      rw [ofOffset_marked (by omega)]
      split
      · next hfirst => exact hfirst.symm
      · rfl
    refine ⟨fun hfirst => ?_, fun hlater => ?_, fun hcolumn => ?_⟩
    · have hmfirst : (ofOffset input m).line = 1 := by
        unfold Before at hbefore
        omega
      rw [ofOffset_marked (by omega), if_pos hmfirst, ofOffset_first ho hfirst]
      refine ⟨rfl, ?_⟩
      dsimp only
      omega
    · rw [ofOffset_marked (by omega)]
      split
      · exact .inl (by dsimp only; omega)
      · exact hbefore
    · have hback := (ofOffset_back ho (show o - m < (ofOffset input o).column by omega)).2
      rw [show o - (o - m) = m by omega] at hback
      rw [hline, hback]

theorem ofMarkup_early (ho : o ≤ input.length) :
    Early (ofMarkup input o) (ofMarkup (utf8Mark ++ input) o) := by
  unfold ofMarkup
  split
  · split
    · exact ofOffset_early (by omega) (by omega) (by omega)
    · exact ofOffset_early (by omega) (by omega) (by omega)
  · split
    · exact ofOffset_early ho (by omega) (by omega)
    · exact ofOffset_early ho (by omega) (by omega)

end Position

namespace Overlay

open Markup (Source)

/-- **A byte-order mark changes nothing but positions**, and these come out early. Take any text
that has no byte-order mark and does not begin with `<?` in UTF-16, read strictly or leniently, and
put the mark of UTF-8 in front of it. Either both are the same document up to positions, or both
fail for the same cause. -/
theorem read_marked [Markup.Decoders] {input : Bytes}
    (h : Markup.withoutMark input = (.utf8, input)) (strict : Bool) :
    Matches Position.Early (Document.Alike Position.Early) (read input strict)
      (read (utf8Mark ++ input) strict) := by
  have hmarked : Markup.withoutMark (utf8Mark ++ input) = (.utf8, input) := rfl
  refine read_matches (h.trans hmarked.symm) ?_ strict
  intro o ho
  rw [h] at ho
  exact Position.ofMarkup_early ho

/-! ## A property on the second line -/

theorem line_feed_plain : (0x3C : UInt8) ∉ ([0x0A] : Bytes) := by decide

/-- The overlay `dawn` with its property on a line of its own, with or without a mark. -/
def dawnBelow (mark : Bool) : Source where
  mark := mark
  root := dawn.root
  content := some (.empty ⟨[0x0A], line_feed_plain⟩ prefixedProperty (.done ⟨[], Source.no_text⟩),
    ⟨[], Source.no_blanks⟩)

theorem dawnBelow_read (mark : Bool) :
    read (dawnBelow mark).bytes true = .ok (dawnBelow mark).document := by
  have hregular : (dawnBelow mark).Regular := by
    obtain ⟨inside, htag, hcontent⟩ := dawn_regular
    refine ⟨inside, htag, ?_⟩
    rintro _ ⟨⟩
    exact hcontent (dawnContent, ⟨[], Source.no_blanks⟩) rfl
  have hoverlay : (dawnBelow mark).IsOverlay true := by
    refine ⟨dawn_isOverlay.name, ?_, dawn_isOverlay.named, dawn_isOverlay.known, fun _ => rfl⟩
    intro c hc
    obtain rfl := List.mem_singleton.1 hc
    exact prefixedProperty_isChild _
  rw [read_bytes]
  exact (root_source_ok_iff _ hregular true _).2 ⟨hoverlay, rfl⟩

theorem read_marked_below :
    Markup.withoutMark (dawnBelow false).bytes = (.utf8, (dawnBelow false).bytes) ∧
      Matches Position.Early (Document.Alike Position.Early) (read (dawnBelow false).bytes true)
        (read (utf8Mark ++ (dawnBelow false).bytes) true) := by
  have hmark : Markup.withoutMark (dawnBelow false).bytes = (.utf8, (dawnBelow false).bytes) :=
    Source.withoutMark_bytes _
  exact ⟨hmark, read_marked hmark true⟩

/-- The mark moves the property of `dawnBelow` to the end of the line before its own. -/
theorem marked_line_differs :
    (∀ mark ∈ Markup.byteOrderMarks, ¬ mark <+: (dawnBelow false).bytes) ∧
    read (dawnBelow false).bytes true = .ok (dawnBelow false).document ∧
    read (utf8Mark ++ (dawnBelow false).bytes) true = .ok (dawnBelow true).document ∧
    (dawnBelow false).document.items.map Item.position = [some ⟨2, 1⟩] ∧
    (dawnBelow true).document.items.map Item.position = [some ⟨1, 112⟩] := by
  refine ⟨by decide +kernel, dawnBelow_read false, dawnBelow_read true, ?_, ?_⟩
  · decide +kernel
  · decide +kernel

end Overlay

end Livery
