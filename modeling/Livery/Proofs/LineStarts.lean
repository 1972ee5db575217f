import Livery.Position.LineIndex
import Livery.Proofs.Lines
import Mathlib.Data.List.Induction

/-!
# Positions looked up

An index holds the starts of all lines of its text, in increasing order and nothing else. So halving
ends at the last start that is not behind the offset, and the position found is the one that the
walk through the text has.

* `isIndex_ofBytes`: what the index of a text holds.
* `bisect_spec`: where halving ends.
* `position_eq`: the position looked up is the position walked to.
* `position_counts`: it counts line feeds and the bytes behind the last one.
-/

namespace Livery.LineIndex

/-! ## What an index holds -/

/-- The numbers in `xs` increase. -/
def Increasing (xs : Array Nat) : Prop :=
  ∀ (i j : Nat) (hi : i < xs.size) (hj : j < xs.size), i < j → xs[i] < xs[j]

/-- The starts of the lines of `input`: zero and the places behind line feeds, in increasing
order. -/
structure IsIndex (input : Bytes) (starts : Array Nat) : Prop where
  first : starts[0]? = some 0
  increasing : Increasing starts
  mem_iff : ∀ start, start ∈ starts ↔ start = 0 ∨ ∃ o, start = o + 1 ∧ input[o]? = some 0x0A

theorem isIndex_nil : IsIndex [] #[0] := by
  refine ⟨rfl, ?_, ?_⟩
  · intro i j hi hj hij
    simp only [List.size_toArray, List.length_cons, List.length_nil] at hi hj
    omega
  · intro start
    simp

variable {input : Bytes} {starts : Array Nat}

theorem IsIndex.le_length (h : IsIndex input starts) {start : Nat} (hs : start ∈ starts) :
    start ≤ input.length := by
  rcases (h.mem_iff start).1 hs with rfl | ⟨o, rfl, ho⟩
  · exact Nat.zero_le _
  · exact (List.getElem?_eq_some_iff.1 ho).1

/-- The line feeds of `input` with one more byte `b`. -/
theorem lineFeed_concat (input : Bytes) (b : UInt8) (o : Nat) :
    (input ++ [b])[o]? = some 0x0A ↔ input[o]? = some 0x0A ∨ o = input.length ∧ b = 0x0A := by
  rcases Nat.lt_trichotomy o input.length with h | h | h
  · rw [List.getElem?_append_left h]
    constructor
    · exact .inl
    · rintro (h' | ⟨rfl, -⟩)
      · exact h'
      · omega
  · subst h
    simp
  · have hbeyond : (input ++ [b])[o]? = none := by
      apply List.getElem?_eq_none
      rw [List.length_append, List.length_singleton]
      omega
    have hbefore : input[o]? = none := List.getElem?_eq_none (Nat.le_of_lt h)
    rw [hbeyond, hbefore]
    constructor
    · intro h'
      cases h'
    · rintro (h' | ⟨rfl, -⟩)
      · cases h'
      · omega

/-- **`note` takes one more byte**: behind a line feed a line starts, and nothing else changes. -/
theorem IsIndex.note (h : IsIndex input starts) (b : UInt8) :
    IsIndex (input ++ [b]) (note starts (b, input.length)) := by
  unfold LineIndex.note
  dsimp only
  by_cases hb : b = 0x0A
  · rw [if_pos hb]
    refine ⟨?_, ?_, ?_⟩
    · have hpos : (0 : Nat) < starts.size := (Array.getElem?_eq_some_iff.1 h.first).1
      rw [Array.getElem?_push, if_neg (by omega)]
      exact h.first
    · intro i j hi hj hij
      rw [Array.size_push] at hi hj
      have hi' : i < starts.size := by omega
      rw [Array.getElem_push_lt hi', Array.getElem_push]
      split
      · next hj' => exact h.increasing i j hi' hj' hij
      · -- the starts so far are not behind the end of the text so far
        have hle := h.le_length (Array.getElem_mem hi')
        omega
    · intro start
      rw [Array.mem_push, h.mem_iff]
      constructor
      · rintro ((h0 | ⟨o, rfl, ho⟩) | rfl)
        · exact .inl h0
        · exact .inr ⟨o, rfl, (lineFeed_concat _ _ _).2 (.inl ho)⟩
        · exact .inr ⟨input.length, rfl, (lineFeed_concat _ _ _).2 (.inr ⟨rfl, hb⟩)⟩
      · rintro (h0 | ⟨o, rfl, ho⟩)
        · exact .inl (.inl h0)
        · rcases (lineFeed_concat _ _ _).1 ho with ho | ⟨rfl, -⟩
          · exact .inl (.inr ⟨o, rfl, ho⟩)
          · exact .inr rfl
  · rw [if_neg hb]
    refine ⟨h.first, h.increasing, ?_⟩
    intro start
    rw [h.mem_iff]
    have hsame : ∀ o : Nat, (input ++ [b])[o]? = some 0x0A ↔ input[o]? = some 0x0A := by
      intro o
      rw [lineFeed_concat]
      constructor
      · rintro (ho | ⟨-, hb'⟩)
        · exact ho
        · exact absurd hb' hb
      · exact .inl
    simp only [hsame]

/-- **The index of a text holds the starts of its lines.** -/
theorem isIndex_ofBytes (input : Bytes) : IsIndex input (ofBytes input).starts := by
  -- from the end, as the loop goes
  induction input using List.reverseRecOn with
  | nil => exact isIndex_nil
  | append_singleton input b ih =>
    have hloop : (ofBytes (input ++ [b])).starts =
        LineIndex.note (ofBytes input).starts (b, input.length) := by
      simp only [ofBytes, List.zipIdx_append, List.foldl_append, Nat.zero_add]
      rfl
    rw [hloop]
    exact ih.note b

/-! ## Halving -/

/-- Where `x` is found among the increasing numbers `xs`, or where it would be. -/
def Ends (xs : Array Nat) (x : Nat) : Except Nat Nat → Prop
  | .ok i => xs[i]? = some x
  | .error i => i ≤ xs.size ∧ (∀ k (hk : k < xs.size), k < i → xs[k] < x) ∧
      ∀ k (hk : k < xs.size), i ≤ k → x < xs[k]

/-- **`bisect` ends where the number is or would be**, if all before the range is smaller and all
behind it is greater. -/
theorem bisect_spec {xs : Array Nat} (hxs : Increasing xs) (x : Nat) {lo hi : Nat} (hle : lo ≤ hi)
    (bound : hi ≤ xs.size) (hbelow : ∀ k (hk : k < xs.size), k < lo → xs[k] < x)
    (habove : ∀ k (hk : k < xs.size), hi ≤ k → x < xs[k]) :
    Ends xs x (bisect xs x lo hi bound) := by
  fun_induction bisect xs x lo hi bound with
  | case1 lo hi bound h middle inside heq => exact Array.getElem?_eq_some_iff.2 ⟨inside, heq⟩
  | case2 lo hi bound h middle inside hne hlt ih =>
    have hmiddle : middle = lo + (hi - lo) / 2 := rfl
    apply ih (by omega) _ habove
    -- what stands before the middle is smaller still
    intro k hk hk'
    rcases Nat.lt_or_eq_of_le (Nat.le_of_lt_succ hk') with hbefore | rfl
    · have := hxs k middle hk inside hbefore
      omega
    · exact hlt
  | case3 lo hi bound h middle inside hne hge ih =>
    have hmiddle : middle = lo + (hi - lo) / 2 := rfl
    apply ih (by omega) hbelow
    intro k hk hk'
    rcases Nat.lt_or_eq_of_le hk' with hbehind | rfl
    · have := hxs middle k inside hk hbehind
      omega
    · omega
  | case4 lo hi bound h =>
    have : lo = hi := by omega
    subst this
    exact ⟨bound, hbelow, habove⟩

/-! ## Looking up -/

/-- The line `line` of an index that `offset` is on: the last one that does not start behind it. -/
structure OnLine (starts : Array Nat) (offset line : Nat) : Prop where
  exists_start : ∃ start, starts[line]? = some start ∧ start ≤ offset
  last : ∀ k (hk : k < starts.size), line < k → offset < starts[k]

/-- **The line that is looked up** is the one that `offset` is on. No difference falls below
zero. -/
theorem line_onLine (h : IsIndex input starts) (offset : Nat) :
    ∃ line, (LineIndex.mk starts).line offset = .ok line ∧ OnLine starts offset line := by
  have hspec := bisect_spec h.increasing offset (Nat.zero_le _) (Nat.le_refl starts.size)
    (fun k _ hk => absurd hk (Nat.not_lt_zero k)) (fun k hk hk' => absurd hk (Nat.not_lt_of_le hk'))
  unfold LineIndex.line
  dsimp only
  cases hb : bisect starts offset 0 starts.size (Nat.le_refl _) with
  | ok line =>
    rw [hb] at hspec
    obtain ⟨hline, hstart⟩ := Array.getElem?_eq_some_iff.1 hspec
    refine ⟨line, rfl, ⟨offset, hspec, Nat.le_refl _⟩, ?_⟩
    intro k hk hlt
    have := h.increasing line k hline hk hlt
    omega
  | error next =>
    rw [hb] at hspec
    obtain ⟨hnext, hbelow, habove⟩ := hspec
    obtain ⟨hsize, hzero⟩ := Array.getElem?_eq_some_iff.1 h.first
    -- the first line starts at zero, so the place is behind it
    have hpos : 0 < next := by
      by_contra hnot
      have := habove 0 hsize (by omega)
      omega
    have hlast : next - 1 < starts.size := by omega
    refine ⟨next - 1, if_pos hpos, ⟨starts[next - 1], ?_, ?_⟩, ?_⟩
    · exact Array.getElem?_eq_getElem hlast
    · have := hbelow (next - 1) hlast (by omega)
      omega
    · intro k hk hlt
      exact habove k hk (by omega)

/-- There is one line that `offset` is on. -/
theorem OnLine.unique {offset line line' : Nat}
    (hline : OnLine starts offset line) (hline' : OnLine starts offset line') : line = line' := by
  obtain ⟨start, hstart, hle⟩ := hline.exists_start
  obtain ⟨start', hstart', hle'⟩ := hline'.exists_start
  obtain ⟨hlt, rfl⟩ := Array.getElem?_eq_some_iff.1 hstart
  obtain ⟨hlt', rfl⟩ := Array.getElem?_eq_some_iff.1 hstart'
  rcases Nat.lt_trichotomy line line' with hless | heq | hless
  · have := hline.last line' hlt' hless
    omega
  · exact heq
  · have := hline'.last line hlt hless
    omega

/-- The position of `offset` by the line it is on. -/
theorem position_of_onLine (h : IsIndex input starts) {offset line start : Nat}
    (hline : OnLine starts offset line) (hstart : starts[line]? = some start) :
    (LineIndex.mk starts).position offset = .ok ⟨line + 1, offset - start + 1⟩ := by
  obtain ⟨line', hfound, hline'⟩ := line_onLine h offset
  obtain rfl := hline.unique hline'
  obtain ⟨start', hstart', hle⟩ := hline.exists_start
  obtain rfl : start = start' := Option.some.inj (hstart.symm.trans hstart')
  have hdifference : difference offset start = .ok (offset - start) := if_pos hle
  rw [LineIndex.position, hfound]
  dsimp only [bind, Except.bind, pure, Except.pure]
  rw [hstart]
  dsimp only
  rw [hdifference]

/-- **No look-up fails**, whatever the offset. -/
theorem exists_position (input : Bytes) (offset : Nat) :
    ∃ p, (ofBytes input).position offset = .ok p := by
  have h := isIndex_ofBytes input
  obtain ⟨line, -, hline⟩ := line_onLine h offset
  obtain ⟨start, hstart, -⟩ := hline.exists_start
  exact ⟨_, position_of_onLine h hline hstart⟩

/-! ## The walk through the text -/

/-- The walk of `Position.ofOffset` has come to `offset`: it counts the lines of the index, and the
bytes from the start of the line on. -/
structure Walked (input : Bytes) (starts : Array Nat) (offset line start : Nat) : Prop where
  onLine : OnLine starts offset line
  start_eq : starts[line]? = some start
  position : Position.ofOffset input offset = ⟨line + 1, offset - start + 1⟩

theorem Walked.start_le {offset line start : Nat} (h : Walked input starts offset line start) :
    start ≤ offset := by
  obtain ⟨start', hstart', hle⟩ := h.onLine.exists_start
  obtain rfl : start = start' := Option.some.inj (h.start_eq.symm.trans hstart')
  exact hle

/-- A line feed on the walk: the next line of the index starts behind it. -/
theorem Walked.lineFeed (h : IsIndex input starts) {offset line start : Nat}
    (hw : Walked input starts offset line start) (hb : input[offset]? = some 0x0A) :
    Walked input starts (offset + 1) (line + 1) (offset + 1) := by
  obtain ⟨hline, hget⟩ := Array.getElem?_eq_some_iff.1 hw.start_eq
  have hle := hw.start_le
  have hmem : offset + 1 ∈ starts := (h.mem_iff _).2 (.inr ⟨offset, rfl, hb⟩)
  obtain ⟨k, hk, hstart⟩ := Array.mem_iff_getElem.1 hmem
  -- no line starts between the two
  have hnext : k = line + 1 := by
    rcases Nat.lt_trichotomy k (line + 1) with hless | heq | hless
    · have hbefore : starts[k] ≤ starts[line] := by
        rcases Nat.lt_or_eq_of_le (Nat.le_of_lt_succ hless) with hlt | rfl
        · exact Nat.le_of_lt (h.increasing k line hk hline hlt)
        · exact Nat.le_refl _
      omega
    · exact heq
    · have hbetween := hw.onLine.last (line + 1) (by omega) (Nat.lt_succ_self _)
      have hbehind := h.increasing (line + 1) k (by omega) hk hless
      omega
  subst hnext
  have hstart' : starts[line + 1]? = some (offset + 1) := Array.getElem?_eq_some_iff.2 ⟨hk, hstart⟩
  refine ⟨⟨⟨_, hstart', Nat.le_refl _⟩, ?_⟩, hstart', ?_⟩
  · intro k' hk' hlt
    have := h.increasing (line + 1) k' hk hk' hlt
    omega
  · rw [Position.ofOffset_succ hb, hw.position, Position.advance, if_pos rfl, Nat.sub_self]

/-- Any other byte `b` on the walk: the line goes on. -/
theorem Walked.plain (h : IsIndex input starts) {offset line start : Nat} {b : UInt8}
    (hw : Walked input starts offset line start) (hb : input[offset]? = some b) (hne : b ≠ 0x0A) :
    Walked input starts (offset + 1) line start := by
  have hle := hw.start_le
  refine ⟨⟨⟨start, hw.start_eq, by omega⟩, ?_⟩, hw.start_eq, ?_⟩
  · intro k hk hlt
    have hbehind := hw.onLine.last k hk hlt
    -- nothing starts behind a byte that is no line feed
    have hnot : starts[k] ≠ offset + 1 := by
      intro heq
      rcases (h.mem_iff _).1 (Array.getElem_mem hk) with hzero | ⟨o, ho, hfeed⟩
      · omega
      · obtain rfl : o = offset := by omega
        rw [hb, Option.some.injEq] at hfeed
        exact hne hfeed
    omega
  · rw [Position.ofOffset_succ hb, hw.position, Position.advance, if_neg hne,
      Nat.sub_add_comm hle]

/-- **The walk comes to every offset of `input`.** -/
theorem exists_walked (h : IsIndex input starts) {offset : Nat} (hle : offset ≤ input.length) :
    ∃ line start, Walked input starts offset line start := by
  induction offset with
  | zero =>
    refine ⟨0, 0, ⟨⟨0, h.first, Nat.le_refl _⟩, ?_⟩, h.first, rfl⟩
    intro k hk hlt
    have := h.increasing 0 k (by omega) hk hlt
    omega
  | succ offset ih =>
    obtain ⟨line, start, hw⟩ := ih (by omega)
    have hb : input[offset]? = some input[offset] := List.getElem?_eq_getElem hle
    by_cases hfeed : input[offset] = 0x0A
    · rw [hfeed] at hb
      exact ⟨line + 1, offset + 1, hw.lineFeed h hb⟩
    · exact ⟨line, start, hw.plain h hb hfeed⟩

/-- **The position looked up is the position walked to.** -/
theorem position_eq {offset : Nat} (hle : offset ≤ input.length) :
    (ofBytes input).position offset = .ok (Position.ofOffset input offset) := by
  have h := isIndex_ofBytes input
  obtain ⟨line, start, hw⟩ := exists_walked h hle
  rw [hw.position]
  exact position_of_onLine h hw.onLine hw.start_eq

/-- So are the positions of markup. -/
theorem markup_eq {offset : Nat} (hle : offset ≤ input.length) :
    (ofBytes input).markup input offset = .ok (Position.ofMarkup input offset) := by
  unfold markup Position.ofMarkup
  cases offset with
  | zero =>
    rw [if_neg (by simp)]
    exact position_eq hle
  | succ previous =>
    have hprevious : input[previous]? = some input[previous] := List.getElem?_eq_getElem hle
    dsimp only
    by_cases hopen : input[previous + 1]? = some 0x3C
    · rw [if_pos hopen, if_neg (by simp [hopen])]
      exact position_eq hle
    · rw [if_neg hopen, hprevious]
      dsimp only
      by_cases hb : input[previous] = 0x3C
      · have hsnaps : input[previous + 1 - 1]? = some 0x3C := by
          rw [Nat.add_sub_cancel, hprevious, hb]
        rw [if_pos hb, if_pos ⟨Nat.succ_ne_zero _, hopen, hsnaps⟩]
        exact position_eq (by omega)
      · rw [if_neg hb, if_neg (by simp [hprevious, hb])]
        exact position_eq hle

/-! ## Counting -/

/-- The column counts the bytes behind the last line feed. -/
theorem foldl_advance_column (bs : Bytes) :
    (bs.foldl Position.advance ⟨1, 1⟩).column = (bs.reverse.takeWhile (· != 0x0A)).length + 1 := by
  induction bs using List.reverseRecOn with
  | nil => rfl
  | append_singleton bs b ih =>
    rw [List.foldl_append, List.foldl_cons, List.foldl_nil, Position.advance, List.reverse_append,
      List.reverse_singleton, List.singleton_append]
    by_cases hb : b = 0x0A
    · rw [if_pos hb, List.takeWhile_cons_of_neg (by simp [hb])]
      rfl
    · rw [if_neg hb, List.takeWhile_cons_of_pos (by simpa using hb), List.length_cons, ih]

/-- The position of `offset`, counted in the text before it. -/
theorem ofOffset_counts (input : Bytes) (offset : Nat) :
    Position.ofOffset input offset = ⟨1 + (input.take offset).count 0x0A,
      1 + ((input.take offset).reverse.takeWhile (· != 0x0A)).length⟩ := by
  have hline := Position.ofOffset_line input offset
  have hcolumn := foldl_advance_column (input.take offset)
  rw [← Position.ofOffset] at hcolumn
  rw [Nat.add_comm 1, Nat.add_comm 1, ← hline, ← hcolumn]

/-- **Positions are looked up by counting.** At every offset of a text, its end included, the
position that is looked up counts the line feeds before the offset and the bytes behind the last of
them. Offsets further on have later positions, and no two have the same one. No look-up fails, for
no difference in it falls below zero and no line is missing from the index. -/
theorem position_counts (input : Bytes) :
    (∀ offset ≤ input.length, (ofBytes input).position offset =
      .ok ⟨1 + (input.take offset).count 0x0A,
        1 + ((input.take offset).reverse.takeWhile (· != 0x0A)).length⟩) ∧
    (∀ o o', o < o' → o' ≤ input.length → ∃ p p', (ofBytes input).position o = .ok p ∧
      (ofBytes input).position o' = .ok p' ∧ p.Before p') ∧
    (∀ o ≤ input.length, ∀ o' ≤ input.length,
      (ofBytes input).position o = (ofBytes input).position o' → o = o') ∧
    ∀ offset fault, (ofBytes input).position offset ≠ .error fault := by
  have hbefore : ∀ o o', o < o' → o' ≤ input.length → ∃ p p',
      (ofBytes input).position o = .ok p ∧ (ofBytes input).position o' = .ok p' ∧ p.Before p' := by
    intro o o' hlt hle
    exact ⟨_, _, position_eq (by omega), position_eq hle, Position.ofOffset_before input hlt hle⟩
  have hne : ∀ o o', o < o' → o' ≤ input.length →
      (ofBytes input).position o ≠ (ofBytes input).position o' := by
    intro o o' hlt hle heq
    obtain ⟨p, p', hp, hp', h⟩ := hbefore o o' hlt hle
    rw [hp, hp', Except.ok.injEq] at heq
    exact h.ne heq
  refine ⟨?_, hbefore, ?_, ?_⟩
  · intro offset hle
    rw [position_eq hle, ofOffset_counts]
  · intro o ho o' ho' heq
    rcases Nat.lt_trichotomy o o' with hlt | hsame | hlt
    · exact absurd heq (hne o o' hlt ho')
    · exact hsame
    · exact absurd heq.symm (hne o' o hlt ho)
  · intro offset fault hfault
    obtain ⟨p, hp⟩ := exists_position input offset
    rw [hp] at hfault
    cases hfault

/-- An empty line between two others: where the last one starts, and where the text ends. -/
theorem position_counts_emptyLine :
    (ofBytes [0x61, 0x0A, 0x0A, 0x62]).position 3 = .ok ⟨3, 1⟩ ∧
      (ofBytes [0x61, 0x0A, 0x0A, 0x62]).position 4 = .ok ⟨3, 2⟩ := by
  obtain ⟨hcounts, -⟩ := position_counts [0x61, 0x0A, 0x0A, 0x62]
  exact ⟨hcounts 3 (by decide), hcounts 4 (by decide)⟩

end Livery.LineIndex
