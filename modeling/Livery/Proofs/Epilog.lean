import Livery.Libraries
import Livery.Proofs.Acceptance
import Livery.Proofs.Boundaries
import Livery.Proofs.Relocation

/-!
# Behind the root

Reading stops at the end of the root element. Text in front of the root is refused, but nobody looks
at what stands behind it, be it well formed or not.

* `RootEnds`: where the root of some markup ends.
* `RootEnds.contents_alike`, `RootEnds.top_alike`: the tree of contents up to there.
* `read_epilog`: a text that is read has an end of its root, and is read the same with anything
  else behind it.
* `read_behind_root`: so an overlay may be followed by what no well-formed text contains.
-/

namespace Livery

namespace Markup

variable {bs rest tail : Bytes} {l : Lexeme}

/-! ## Where the root ends -/

/-- How many elements are open behind a lexeme in front of which `depth` are open, unless it ends
the root. -/
def Lexeme.openBehind? (depth : Nat) : Lexeme → Option Nat
  | .startTag _ => some (depth + 1)
  | .emptyTag _ => if depth = 0 then none else some depth
  | .endTag _ => if depth = 1 then none else some (depth - 1)
  | _ => some depth

/-- The root of some markup, in which so many elements are open at the beginning, ends in front of
`tail`: with an end tag, or with its own tag if this is all there is of it. -/
inductive RootEnds : Nat → Bytes → Bytes → Prop
  | last {depth : Nat} {bs tail : Bytes} {l : Lexeme} (h : Lexeme.scan bs = .found l tail)
    (hl : l.openBehind? depth = none) : RootEnds depth bs tail
  | next {depth depth' : Nat} {bs rest tail : Bytes} {l : Lexeme}
    (h : Lexeme.scan bs = .found l rest) (hl : l.openBehind? depth = some depth') :
    RootEnds depth' rest tail → RootEnds depth bs tail

theorem RootEnds.suffix {depth : Nat} (h : RootEnds depth bs tail) :
    tail <:+ bs ∧ tail.length < bs.length := by
  induction h with
  | last h => exact ⟨Lexeme.scan_suffix h, Lexeme.scan_length_lt h⟩
  | next h _ _ ih =>
    exact ⟨ih.1.trans (Lexeme.scan_suffix h), Nat.lt_trans ih.2 (Lexeme.scan_length_lt h)⟩

/-- A root ends with `>`, or its end tag is cut off by the end of the text. -/
theorem RootEnds.split {depth : Nat} (h : RootEnds depth bs tail) :
    ∃ p, bs = p ++ tail ∧ (p.getLast? = some 0x3E ∨ tail = []) := by
  induction h with
  | last h hl =>
    obtain ⟨part, heq, hends⟩ := Lexeme.scan_split h
    refine ⟨part, heq, ?_⟩
    cases hends with
    | closed hlast => exact .inl hlast
    | text => cases hl
    | unclosed => exact .inr rfl
  | next h _ _ ih =>
    obtain ⟨part, rfl, -⟩ := Lexeme.scan_split h
    obtain ⟨p, rfl, hp⟩ := ih
    refine ⟨part ++ p, (List.append_assoc ..).symm, hp.imp_left fun hlast => ?_⟩
    rw [List.getLast?_append, hlast]
    rfl

variable {p : Bytes}

/-- The lexeme `l` that ends the root, whatever stands behind it. -/
theorem scan_last (h : Lexeme.scan (p ++ tail) = .found l tail) (hl : ∀ b, l ≠ .text b)
    (hlast : p.getLast? = some 0x3E) (more : Bytes) (o : Nat) :
    Stream.scan o (p ++ more) = .next o l (Stream.scan (o + p.length) more) := by
  obtain ⟨part, hpart, hends⟩ := Lexeme.scan_split h
  obtain rfl := List.append_cancel_right hpart
  cases hends with
  | closed _ hscan =>
    rw [Source.scan_next (hscan more) fun ⟨b, hb⟩ => absurd hb (hl b), List.length_append,
      Nat.add_sub_cancel]
  | text => exact absurd rfl (hl _)
  | unclosed hno => exact absurd hlast hno

/-- A lexeme in front of the end of the root, whatever `more` stands behind that end. -/
theorem RootEnds.scan_next {depth : Nat} (hmore : RootEnds depth rest tail)
    (h : Lexeme.scan (p ++ tail) = .found l rest) (hlast : p.getLast? = some 0x3E) :
    ∃ part p', p = part ++ p' ∧ part ≠ [] ∧ rest = p' ++ tail ∧ p'.getLast? = some 0x3E ∧
      ∀ more o, Stream.scan o (p ++ more) =
        .next o l (Stream.scan (o + part.length) (p' ++ more)) := by
  obtain ⟨⟨p', hrest⟩, hlt⟩ := hmore.suffix
  obtain ⟨part, hpart, hends⟩ := Lexeme.scan_split h
  rw [← hrest, ← List.append_assoc] at hpart
  obtain rfl := List.append_cancel_right hpart
  have hne : p' ≠ [] := by
    rintro rfl
    rw [← hrest] at hlt
    simp at hlt
  have hnonempty : part ≠ [] := by
    rintro rfl
    have := Lexeme.scan_length_lt h
    simp [hrest] at this
  have hnext : ∀ more, Lexeme.scan (part ++ (p' ++ more)) = .found l (p' ++ more) := by
    intro more
    cases hends with
    | closed _ hscan => exact hscan _
    | text hnext hscan =>
      -- the next markup begins inside the root
      refine hscan _ ?_
      rw [← hrest, List.head?_append_of_ne_nil _ hne] at hnext
      rw [List.head?_append_of_ne_nil _ hne]
      exact hnext.resolve_left (by simp [hne])
    | unclosed => exact absurd (List.append_eq_nil_iff.1 hrest).1 hne
  refine ⟨part, p', rfl, hnonempty, hrest.symm, ?_, fun more o => ?_⟩
  · rwa [List.getLast?_append_of_ne_nil _ hne] at hlast
  · rw [List.append_assoc, Source.scan_next (hnext more) (fun _ => by simp [hne]),
      List.length_append, Nat.add_sub_cancel]

/-- What well-formed text may have behind its root: blanks, comments and instructions. -/
def Lexeme.mayFollowRoot : Lexeme → Bool
  | .text bytes => bytes.all isBlankByte
  | .comment _ => true
  | .instruction _ => true
  | _ => false

/-- Nothing but lexemes that `mayFollowRoot`. -/
def Stream.IsEpilog : Stream → Prop
  | .finished _ => True
  | .broken _ _ => False
  | .next _ lexeme rest => lexeme.mayFollowRoot = true ∧ rest.IsEpilog

theorem Stream.not_isEpilog_of_found (h : Lexeme.scan bs = .found l rest)
    (hl : l.mayFollowRoot = false) (o : Nat) : ¬ (Stream.scan o bs).IsEpilog := by
  rw [Stream.scan_step, h]
  dsimp only
  split <;> exact fun hepilog => absurd (hl.symm.trans hepilog.1) (by simp)

theorem Stream.not_isEpilog_of_broken {fault : Fault} (h : Lexeme.scan bs = .broken fault)
    (o : Nat) : ¬ (Stream.scan o bs).IsEpilog := by
  rw [Stream.scan_step, h]
  exact id

/-! ## Contents up to the end of the root -/

/-- The content of a text as far as its root reaches. -/
def Content.upToRoot : Content → Content
  | .text offset bytes more => .text offset bytes more.upToRoot
  | .cdata offset bytes more => .cdata offset bytes more.upToRoot
  | .remark lexeme more => .remark lexeme more.upToRoot
  | .empty e _ => .empty e .closed
  | .element e inner _ => .element e inner .closed
  | c => c

/-- The offsets are of the same place, in front of `n`. -/
def SameBelow (n : Nat) (o o' : Nat) : Prop := o = o' ∧ o < n

variable {n : Nat}

/-- An element in front of what follows it takes two of the contents that are there. -/
theorem Content.take_nest (e : Element) (k : Nat) {cs : List Content} (h : 2 ≤ cs.length) :
    (nest e cs).take (k + 1) = nest e (cs.take (k + 2)) := by
  match cs, h with
  | _ :: _ :: _, _ => rfl

/-- **The contents of the elements that are open** are the same whatever stands behind the end that
`RootEnds` finds. -/
theorem RootEnds.contents_alike [Decoders] {depth : Nat} (h : RootEnds depth (p ++ tail) tail)
    (hdepth : depth ≠ 0) (hlast : p.getLast? = some 0x3E) (more : Bytes) {o : Nat}
    (hn : o + p.length ≤ n) (state : CharsetState) {opened : List Bytes}
    (hopened : opened.length = depth) :
    List.Forall₂ (Content.Alike (SameBelow n))
      (((Stream.scan o (p ++ tail)).contents state opened).take depth)
      (((Stream.scan o (p ++ more)).contents state opened).take depth) := by
  generalize hbs : p ++ tail = bs at h
  induction h generalizing p o state opened with
  | @last depth _ _ l h hl =>
    subst hbs
    obtain ⟨name, rfl, rfl⟩ : ∃ name, l = .endTag name ∧ depth = 1 := by
      cases l <;> simp_all [Lexeme.openBehind?]
    have hscan := scan_last h (by simp) hlast
    have hat : SameBelow n o o := ⟨rfl, by
      have := List.length_pos_of_mem (List.mem_of_getLast? hlast)
      omega⟩
    obtain ⟨expected, rfl⟩ := List.length_eq_one_iff.1 hopened
    rw [hscan, hscan]
    simp only [Stream.contents]
    split
    · exact .cons .closed .nil
    · exact .cons (.broken hat _) .nil
  | @next depth depth' _ _ _ l h hl hmore ih =>
    subst hbs
    obtain ⟨part, p', rfl, hpart, rfl, hlast', hscan⟩ := hmore.scan_next h hlast
    have hpos := List.length_pos_of_ne_nil hpart
    rw [List.length_append] at hn
    have hat : SameBelow n o o := ⟨rfl, by omega⟩
    have hrest := fun state hdepth opened hopened =>
      @ih p' hdepth hlast' (o + part.length) (by omega) state opened hopened rfl
    rw [hscan, hscan]
    obtain ⟨k, rfl⟩ := Nat.exists_eq_succ_of_ne_zero hdepth
    cases l with
    | startTag tag =>
      obtain rfl := Option.some.inj hl
      have he : Element.Alike (SameBelow n) ⟨o, state.charset, tag⟩ ⟨o, state.charset, tag⟩ :=
        ⟨hat, rfl, fun _ _ => rfl⟩
      have hlength : ∀ stream : Stream,
          2 ≤ (stream.contents state (tag.name :: opened)).length := fun stream => by
        rw [Stream.length_contents, List.length_cons]
        omega
      simp only [Stream.contents]
      rw [Content.take_nest _ _ (hlength _), Content.take_nest _ _ (hlength _)]
      exact Content.Alike.nest he (hrest state (by omega) _ (by simp [hopened]))
    | endTag name =>
      obtain ⟨hk, rfl⟩ : k ≠ 0 ∧ k = depth' := by simpa [Lexeme.openBehind?] using hl
      obtain ⟨expected, outer, rfl⟩ := List.exists_cons_of_length_eq_add_one hopened
      simp only [Stream.contents]
      split
      · exact .cons .closed (hrest state hk outer (by simpa using hopened))
      · rw [List.take_replicate]
        exact Content.Alike.replicate (.broken hat _) _
    | declaration inside =>
      obtain rfl := Option.some.inj hl
      simp only [Stream.contents, List.take_modifyHead]
      exact Content.Alike.modifyHead (hrest _ hdepth opened hopened) fun _ _ hc => .remark _ _ hc
    | emptyTag tag =>
      obtain rfl := Option.some.inj hl
      have he : Element.Alike (SameBelow n) ⟨o, state.charset, tag⟩ ⟨o, state.charset, tag⟩ :=
        ⟨hat, rfl, fun _ _ => rfl⟩
      simp only [Stream.contents, List.take_modifyHead]
      exact Content.Alike.modifyHead (hrest state hdepth opened hopened) fun _ _ hc => .empty he hc
    | text bytes =>
      obtain rfl := Option.some.inj hl
      simp only [Stream.contents, List.take_modifyHead]
      exact Content.Alike.modifyHead (hrest state hdepth opened hopened)
        fun _ _ hc => .text hat bytes hc
    | cdata bytes =>
      obtain rfl := Option.some.inj hl
      simp only [Stream.contents, List.take_modifyHead]
      exact Content.Alike.modifyHead (hrest state hdepth opened hopened)
        fun _ _ hc => .cdata hat bytes hc
    | _ =>
      obtain rfl := Option.some.inj hl
      simp only [Stream.contents, List.take_modifyHead]
      exact Content.Alike.modifyHead (hrest state hdepth opened hopened)
        fun _ _ hc => .remark _ _ hc

/-- So is the content of the text as far as the root reaches. -/
theorem RootEnds.top_alike [Decoders] (h : RootEnds 0 (p ++ tail) tail)
    (hlast : p.getLast? = some 0x3E)
    (more : Bytes) {o : Nat} (hn : o + p.length ≤ n) (state : CharsetState) :
    Content.Alike (SameBelow n) (Source.top o (p ++ tail) state).upToRoot
      (Source.top o (p ++ more) state).upToRoot := by
  generalize hbs : p ++ tail = bs at h
  generalize hdepth : 0 = depth at h
  induction h generalizing p o state with
  | @last _ _ tail l h hl =>
    subst hbs hdepth
    obtain ⟨tag, rfl⟩ : ∃ tag, l = .emptyTag tag := by
      cases l <;> simp_all [Lexeme.openBehind?]
    have hscan := scan_last h (by simp) hlast
    have hat : SameBelow n o o := ⟨rfl, by
      have := List.length_pos_of_mem (List.mem_of_getLast? hlast)
      omega⟩
    simp only [Source.top, hscan, Stream.contents]
    rw [Source.headD_modifyHead, Source.headD_modifyHead]
    exact .empty ⟨hat, rfl, fun _ _ => rfl⟩ .closed
  | @next _ depth' _ _ tail l h hl hmore ih =>
    subst hbs hdepth
    obtain ⟨part, p', rfl, hpart, rfl, hlast', hscan⟩ := hmore.scan_next h hlast
    have hpos := List.length_pos_of_ne_nil hpart
    rw [List.length_append] at hn
    have hat : SameBelow n o o := ⟨rfl, by omega⟩
    have hrest := fun hdepth state =>
      @ih p' hlast' (o + part.length) (by omega) state rfl hdepth
    simp only [Source.top] at hrest ⊢
    rw [hscan, hscan]
    cases l with
    | startTag tag =>
      obtain rfl := Option.some.inj hl
      have hinner := hmore.contents_alike (by omega) hlast' more (o := o + part.length) (n := n)
        (by omega) state (show [tag.name].length = 1 from rfl)
      have hpair : ∀ stream : Stream, ∃ inner after,
          stream.contents state [tag.name] = [inner, after] := fun stream =>
        List.length_eq_two.1 (stream.length_contents state [tag.name])
      obtain ⟨inner, after, heq⟩ := hpair (Stream.scan (o + part.length) (p' ++ tail))
      obtain ⟨inner', after', heq'⟩ := hpair (Stream.scan (o + part.length) (p' ++ more))
      rw [heq, heq'] at hinner
      simp only [Stream.contents, heq, heq']
      cases hinner with
      | cons hinner _ => exact .element ⟨hat, rfl, fun _ _ => rfl⟩ hinner .closed
    | endTag name =>
      simp only [Stream.contents]
      exact .broken hat _
    | emptyTag tag => cases hl
    | text bytes =>
      obtain rfl := Option.some.inj hl
      simp only [Stream.contents, Source.headD_modifyHead]
      exact .text hat bytes (hrest rfl state)
    | cdata bytes =>
      obtain rfl := Option.some.inj hl
      simp only [Stream.contents, Source.headD_modifyHead]
      exact .cdata hat bytes (hrest rfl state)
    | _ =>
      obtain rfl := Option.some.inj hl
      simp only [Stream.contents, Source.headD_modifyHead]
      exact .remark _ _ (hrest rfl _)

/-! ## What has an end -/

/-- The end of an element is there, and so are the ends of those in front of it: no `ended` or
`broken` comes first. -/
def Content.isClosed : Content → Bool
  | .closed => true
  | .ended _ => false
  | .broken _ _ => false
  | .text _ _ more => more.isClosed
  | .cdata _ _ more => more.isClosed
  | .remark _ more => more.isClosed
  | .empty _ more => more.isClosed
  | .element _ _ more => more.isClosed

/-- The root is there, with its end: its content `isClosed`. -/
def Content.hasRoot : Content → Bool
  | .text _ _ more => more.hasRoot
  | .cdata _ _ more => more.hasRoot
  | .remark _ more => more.hasRoot
  | .empty _ _ => true
  | .element _ inner _ => inner.isClosed
  | _ => false

/-- The content at the place `k` of `cs` is closed. -/
def ClosedAt (k : Nat) (cs : List Content) : Prop := ∃ c, cs[k]? = some c ∧ c.isClosed = true

theorem ClosedAt.of_modifyHead {k : Nat} {cs : List Content} {f : Content → Content}
    (h : ClosedAt k (cs.modifyHead f)) (hf : ∀ c, (f c).isClosed = c.isClosed) :
    ClosedAt k cs := by
  obtain ⟨c, hc, hclosed⟩ := h
  cases cs with
  | nil => cases hc
  | cons d cs =>
    cases k with
    | zero =>
      obtain rfl := Option.some.inj hc
      exact ⟨d, rfl, by rwa [hf] at hclosed⟩
    | succ k => exact ⟨c, hc, hclosed⟩

theorem ClosedAt.of_nest {k : Nat} {cs : List Content} {e : Element}
    (h : ClosedAt k (Content.nest e cs)) (hlength : 2 ≤ cs.length) : ClosedAt (k + 1) cs := by
  obtain ⟨c, hc, hclosed⟩ := h
  match cs, hlength with
  | inner :: more :: outer, _ =>
    cases k with
    | zero =>
      obtain rfl := Option.some.inj hc
      exact ⟨more, rfl, hclosed⟩
    | succ k => exact ⟨c, hc, hclosed⟩

theorem not_closedAt_replicate {k m : Nat} {c : Content} (hc : c.isClosed = false) :
    ¬ ClosedAt k (List.replicate m c) := by
  rintro ⟨d, hd, hclosed⟩
  obtain rfl := List.eq_of_mem_replicate (List.mem_of_getElem? hd)
  rw [hc] at hclosed
  cases hclosed

/-- **An element that is open has an end** if its content is `ClosedAt` its place. -/
theorem exists_rootEnds_of_closedAt [Decoders] {k : Nat} (bs : Bytes) {o : Nat}
    {state : CharsetState} {opened : List Bytes} (hopened : opened.length = k + 1)
    (h : ClosedAt k ((Stream.scan o bs).contents state opened)) :
    ∃ tail, RootEnds (k + 1) bs tail := by
  fun_induction Stream.scan o bs generalizing state opened k with
  | case1 o bs hscan => exact absurd h (not_closedAt_replicate rfl)
  | case2 o bs fault hscan => exact absurd h (not_closedAt_replicate rfl)
  | case3 o bs bytes hscan =>
    simp only [Stream.contents] at h
    exact absurd (h.of_modifyHead fun _ => rfl) (not_closedAt_replicate rfl)
  | case4 o bs lexeme rest hscan _ _ ih =>
    -- a lexeme that leaves the same elements open
    have hinside : lexeme.openBehind? (k + 1) = some (k + 1) →
        (∃ state', ClosedAt k ((Stream.scan (o + (bs.length - rest.length)) rest).contents state'
          opened)) → ∃ tail, RootEnds (k + 1) bs tail := by
      rintro hl ⟨state', hrest⟩
      obtain ⟨tail, htail⟩ := ih hopened hrest
      exact ⟨tail, .next hscan hl htail⟩
    cases lexeme with
    | startTag tag =>
      simp only [Stream.contents] at h
      have hrest := h.of_nest (by rw [Stream.length_contents, List.length_cons]; omega)
      obtain ⟨tail, htail⟩ := ih (by simp [hopened]) hrest
      exact ⟨tail, .next hscan rfl htail⟩
    | endTag name =>
      obtain ⟨expected, outer, rfl⟩ := List.exists_cons_of_length_eq_add_one hopened
      simp only [Stream.contents] at h
      split at h
      · cases k with
        | zero => exact ⟨rest, .last hscan rfl⟩
        | succ k =>
          obtain ⟨tail, htail⟩ := ih (by simpa using hopened) h
          exact ⟨tail, .next hscan rfl htail⟩
      · exact absurd h (not_closedAt_replicate rfl)
    | _ =>
      simp only [Stream.contents] at h
      exact hinside rfl ⟨_, h.of_modifyHead fun _ => rfl⟩

/-- So has the root. -/
theorem exists_rootEnds_of_hasRoot [Decoders] (bs : Bytes) {o : Nat} {state : CharsetState}
    (h : (Source.top o bs state).hasRoot = true) : ∃ tail, RootEnds 0 bs tail := by
  unfold Source.top at h
  fun_induction Stream.scan o bs generalizing state with
  | case1 o bs hscan => cases h
  | case2 o bs fault hscan => cases h
  | case3 o bs bytes hscan => cases h
  | case4 o bs lexeme rest hscan _ _ ih =>
    have houtside : lexeme.openBehind? 0 = some 0 →
        (∃ state', (Source.top (o + (bs.length - rest.length)) rest state').hasRoot = true) →
        ∃ tail, RootEnds 0 bs tail := by
      rintro hl ⟨state', hrest⟩
      obtain ⟨tail, htail⟩ := ih hrest
      exact ⟨tail, .next hscan hl htail⟩
    cases lexeme with
    | startTag tag =>
      obtain ⟨inner, after, heq⟩ := List.length_eq_two.1
        ((Stream.scan (o + (bs.length - rest.length)) rest).length_contents state [tag.name])
      simp only [Stream.contents, heq] at h
      obtain ⟨tail, htail⟩ := exists_rootEnds_of_closedAt rest (k := 0) rfl
        ⟨inner, by rw [heq]; rfl, h⟩
      exact ⟨tail, .next hscan rfl htail⟩
    | endTag name => cases h
    | emptyTag tag => exact ⟨rest, .last hscan rfl⟩
    | _ =>
      simp only [Stream.contents, Source.headD_modifyHead] at h
      exact houtside rfl ⟨_, h⟩

/-! ## Byte-order marks -/

theorem withoutMark_suffix (input : Bytes) : (withoutMark input).2 <:+ input := by
  fun_cases withoutMark input with
  | case1 q => exact ⟨[0xEF, 0xBB, 0xBF], rfl⟩
  | case2 q => exact ⟨[0xFF, 0xFE], rfl⟩
  | case3 q => exact ⟨[0xFE, 0xFF], rfl⟩
  | _ => exact List.suffix_refl _

/-- What is taken off a text that ends with `>` does not depend on what stands behind it. -/
theorem withoutMark_append (hlast : p.getLast? = some 0x3E) :
    ∃ charset mark q, p = mark ++ q ∧ q.getLast? = some 0x3E ∧
      ∀ more, withoutMark (p ++ more) = (charset, q ++ more) := by
  have hbehind : ∀ mark {q : Bytes} {charset : Charset}, p = mark ++ q → 0x3E ∉ mark →
      (∀ more, withoutMark (p ++ more) = (charset, q ++ more)) →
      ∃ charset mark q, p = mark ++ q ∧ q.getLast? = some 0x3E ∧
        ∀ more, withoutMark (p ++ more) = (charset, q ++ more) := by
    rintro mark q charset rfl hmark hmore
    refine ⟨charset, mark, q, rfl, ?_, hmore⟩
    cases q with
    | nil => exact absurd (List.mem_of_getLast? hlast) (by simpa using hmark)
    | cons b q => rwa [List.getLast?_append_of_ne_nil _ (by simp)] at hlast
  fun_cases withoutMark p with
  | case1 q => exact hbehind [0xEF, 0xBB, 0xBF] rfl (by decide) fun _ => rfl
  | case2 q => exact hbehind [0xFF, 0xFE] rfl (by decide) fun _ => rfl
  | case3 q => exact hbehind [0xFE, 0xFF] rfl (by decide) fun _ => rfl
  | case4 q => exact hbehind [] rfl (by decide) fun _ => rfl
  | case5 q => exact hbehind [] rfl (by decide) fun _ => rfl
  | case6 _ h1 h2 h3 h4 h5 =>
    refine ⟨.utf8, [], p, rfl, hlast, fun more => ?_⟩
    -- shorter texts end with `>` where a mark goes on
    rcases p with _ | ⟨a, _ | ⟨b, _ | ⟨c, _ | ⟨d, q⟩⟩⟩⟩
    · cases hlast
    · cases hlast
      rfl
    · cases hlast
      rw [withoutMark.eq_6] <;> rintro q ⟨⟩
    · cases hlast
      rw [withoutMark.eq_6] <;> rintro q ⟨⟩
      · exact h2 _ rfl
      · exact h3 _ rfl
    · rw [withoutMark.eq_6] <;> rintro q ⟨⟩
      · exact h1 _ rfl
      · exact h2 _ rfl
      · exact h3 _ rfl
      · exact h4 _ rfl
      · exact h5 _ rfl

end Markup

namespace Position

/-- Positions in front of an offset do not depend on what `more` stands behind it. -/
theorem ofMarkup_append {p : Bytes} {o : Nat} (h : o < p.length) (more : Bytes) :
    ofMarkup (p ++ more) o = ofMarkup p o := by
  have hoffset : ∀ k ≤ p.length, ofOffset (p ++ more) k = ofOffset p k := fun k hk => by
    rw [ofOffset, ofOffset, List.take_append_of_le_length hk]
  rw [ofMarkup, ofMarkup, List.getElem?_append_left h, List.getElem?_append_left (by omega),
    hoffset _ (by omega), hoffset _ (by omega)]

end Position

namespace Overlay

open Markup (Content Element RootEnds Scope Source)

/-! ## Equal documents -/

/-- A list is given by what its members are up to some marks, and by these marks in a row. -/
theorem eq_of_marks {α β γ : Type} {f : α → β} {g : α → List γ}
    (hmember : ∀ a a' r r', f a = f a' → g a ++ r = g a' ++ r' → a = a' ∧ r = r')
    {l l' : List α} {r r' : List γ} (hf : l.map f = l'.map f)
    (hg : l.flatMap g ++ r = l'.flatMap g ++ r') : l = l' ∧ r = r' := by
  induction l generalizing l' with
  | nil =>
    obtain rfl := List.map_eq_nil_iff.1 hf.symm
    exact ⟨rfl, hg⟩
  | cons a l ih =>
    obtain ⟨a', l', rfl, ha, hl⟩ := List.map_eq_cons_iff.1 hf.symm
    rw [List.flatMap_cons, List.flatMap_cons, List.append_assoc, List.append_assoc] at hg
    obtain ⟨rfl, hrest⟩ := hmember _ _ _ _ ha.symm hg
    obtain ⟨rfl, hr⟩ := ih hl.symm hrest
    exact ⟨rfl, hr⟩

/-- A `Declaration` is given by what it is without positions and by the positions of its items. -/
theorem Declaration.eq_of_positions {d d' : Declaration} {r r' : List (Option Position)}
    (h : d.unplaced = d'.unplaced)
    (hr : d.items.map Item.position ++ r = d'.items.map Item.position ++ r') :
    d = d' ∧ r = r' := by
  rcases d with ⟨name, extensions, colors, position⟩ | ⟨⟨⟩⟩ | ⟨⟨⟩⟩
  · rcases d' with ⟨name', extensions', colors', position'⟩ | _ | _
    · simp only [unplaced, Declaration.colorSet.injEq, SetDeclaration.mk.injEq, and_true] at h
      obtain ⟨rfl, rfl, hcolors⟩ := h
      simp only [items, List.map_cons, List.map_map, List.cons_append, List.cons.injEq] at hr
      obtain ⟨hposition, hr⟩ := hr
      have hcolor : ∀ (c c' : ColorDeclaration) (s s' : List (Option Position)),
          { c with position := none } = { c' with position := none } →
          [c.position] ++ s = [c'.position] ++ s' → c = c' ∧ s = s' := by
        rintro ⟨⟩ ⟨⟩ s s' hc hs
        simp_all
      rw [List.map_eq_flatMap, List.map_eq_flatMap] at hr
      obtain ⟨rfl, rfl⟩ := eq_of_marks hcolor hcolors hr
      exact ⟨by rw [show position = position' from hposition], rfl⟩
    · cases h
    · cases h
  · rcases d' with _ | ⟨⟨⟩⟩ | _
    · cases h
    · simp_all [unplaced, items, Item.position]
    · cases h
  · rcases d' with _ | _ | ⟨⟨⟩⟩
    · cases h
    · cases h
    · simp_all [unplaced, items, Item.position]

theorem Document.Alike.eq {d d' : Document} (h : Document.Alike Eq d d') : d = d' := by
  obtain ⟨hunplaced, hitems⟩ := h
  have hpositions : d.items.map Item.position = d'.items.map Item.position :=
    map_eq_of_forall₂ (hitems.imp fun i i' ⟨q, q', hq, hq', heq⟩ => by rw [hq, hq', heq])
  obtain ⟨name, ds⟩ := d
  obtain ⟨name', ds'⟩ := d'
  obtain ⟨rfl, hds⟩ := (Document.mk.injEq ..).mp hunplaced
  simp only [Document.items, List.map_flatMap] at hpositions
  have hrows := congrArg (· ++ []) hpositions
  obtain ⟨rfl, -⟩ := eq_of_marks (fun _ _ _ _ => Declaration.eq_of_positions) hds hrows
  rfl

/-- Results that compare as equal ones are equal. -/
theorem Matches.eq {x x' : Reader.Result Document}
    (h : Matches Eq (Document.Alike Eq) x x') : x = x' := by
  cases h with
  | ok h => rw [h.eq]
  | error hp cause => rw [hp]

/-! ## Reading stops -/

namespace Reader

variable (r : Reader)

/-- Nothing behind the root is looked at. -/
theorem document_upToRoot [Markup.Decoders] (c : Content) :
    r.document c.upToRoot = r.document c := by
  induction c with
  | text offset bytes more ih => simp only [Content.upToRoot, document, ih]
  | cdata offset bytes more ih => exact ih
  | remark lexeme more ih => exact ih
  | _ => rfl

/-- An element whose `children` are read has an end. -/
theorem isClosed_of_children {α : Type} {parent : String}
    {child : Scope → Element → Option Content → Result α} {scope : Scope} {c : Content}
    {as : List α} (h : r.children parent child scope c = .ok as) : c.isClosed = true := by
  induction c generalizing scope as with
  | closed => rfl
  | ended => cases h
  | broken => cases h
  | text offset bytes more ih =>
    simp only [children] at h
    split at h
    · cases h
    · exact ih h
  | cdata offset bytes more ih =>
    simp only [children] at h
    split at h
    · cases h
    · exact ih h
  | remark lexeme more ih => exact ih h
  | empty e more ih =>
    simp only [children, bind_eq_ok] at h
    obtain ⟨inside, -, h⟩ := h
    split at h
    · simp only [bind_eq_ok] at h
      obtain ⟨-, -, rest, hrest, -⟩ := h
      exact ih hrest
    · exact ih h
  | element e inner more _ ih =>
    simp only [children, bind_eq_ok] at h
    obtain ⟨inside, -, h⟩ := h
    split at h
    · simp only [bind_eq_ok] at h
      obtain ⟨-, -, rest, hrest, -⟩ := h
      exact ih hrest
    · simp only [bind_eq_ok] at h
      obtain ⟨-, -, hrest⟩ := h
      exact ih hrest

/-- A text that is read has a root with an end. -/
theorem hasRoot_of_document [Markup.Decoders] {c : Content} {d : Document}
    (h : r.document c = .ok d) : c.hasRoot = true := by
  induction c with
  | closed => cases h
  | ended => cases h
  | broken => cases h
  | text offset bytes more ih =>
    simp only [document] at h
    split at h
    · exact ih h
    · cases h
  | cdata offset bytes more ih => exact ih h
  | remark lexeme more ih => exact ih h
  | empty e more ih => rfl
  | element e inner more _ _ =>
    simp only [document, root, bind_eq_ok] at h
    obtain ⟨scope, -, h⟩ := h
    split at h
    · simp only [bind_eq_ok] at h
      obtain ⟨-, -, -, -, groups, hgroups, -⟩ := h
      exact r.isClosed_of_children hgroups
    · cases h

end Reader

/-- What stands behind the root makes no difference. -/
theorem read_behind_end [Markup.Decoders] {p tail : Bytes} (hlast : p.getLast? = some 0x3E)
    (h : RootEnds 0 (Markup.withoutMark (p ++ tail)).2 tail) (more : Bytes) (strict : Bool) :
    read (p ++ more) strict = read (p ++ tail) strict := by
  obtain ⟨charset, mark, q, rfl, hq, hmark⟩ := Markup.withoutMark_append hlast
  rw [hmark] at h
  have htrack : Reader.Track Eq (Markup.SameBelow q.length) ⟨mark ++ q ++ tail, strict⟩
      ⟨mark ++ q ++ more, strict⟩ := by
    refine ⟨rfl, ?_⟩
    rintro o _ ⟨rfl, ho⟩
    have hp : o < (mark ++ q).length := by
      rw [List.length_append]
      omega
    exact (Position.ofMarkup_append hp tail).trans (Position.ofMarkup_append hp more).symm
  have hstart : Markup.SameBelow q.length 0 0 :=
    ⟨rfl, List.length_pos_of_mem (List.mem_of_getLast? hq)⟩
  have halike := h.top_alike hq more (Nat.le_of_eq (Nat.zero_add q.length)) ⟨charset, false⟩
  have hread : ∀ rest, read (mark ++ q ++ rest) strict =
      (Reader.mk (mark ++ q ++ rest) strict).document
        (Source.top 0 (q ++ rest) ⟨charset, false⟩).upToRoot := fun rest => by
    rw [Reader.document_upToRoot, read, Content.ofBytes, hmark, Source.top]
  rw [hread, hread]
  exact (htrack.document_matches hstart halike).eq.symm

/-- **A text that is read has an end of its root, and is read the same with anything else behind
it.** Only an end tag that is cut off by the end of the text may go on. -/
theorem read_epilog [Markup.Decoders] {input : Bytes} {strict : Bool} {d : Document}
    (h : read input strict = .ok d) :
    ∃ p tail, input = p ++ tail ∧ RootEnds 0 (Markup.withoutMark input).2 tail ∧
      (p.getLast? ≠ some 0x3E ∧ tail = [] ∨ ∀ more, read (p ++ more) strict = .ok d) := by
  obtain ⟨tail, hends⟩ := Markup.exists_rootEnds_of_hasRoot (Markup.withoutMark input).2
    (Reader.hasRoot_of_document _ h)
  obtain ⟨mark, hmark⟩ := Markup.withoutMark_suffix input
  obtain ⟨q, hq, hend⟩ := hends.split
  have hinput : input = (mark ++ q) ++ tail := by rw [List.append_assoc, ← hq, hmark]
  refine ⟨mark ++ q, tail, hinput, hends, ?_⟩
  by_cases hlast : (mark ++ q).getLast? = some 0x3E
  · refine .inr fun more => ?_
    rw [hinput] at h hends
    rw [read_behind_end hlast hends, h]
  · refine .inl ⟨hlast, hend.resolve_left fun hq => hlast ?_⟩
    rw [List.getLast?_append, hq]
    rfl

/-! ## What is read all the same -/

/-- An overlay of one tag, and `epilog` behind it. -/
def lone (epilog : String) : Source where
  root := plainRoot
  epilog := Text.Utf8.encode epilog

theorem lone_read (epilog : String) :
    read (lone epilog).bytes true = .ok ⟨"D", []⟩ := by
  have hname : plainRoot.value? .utf8 "name" = some "D" := by decide +kernel
  have hlocal : plainRoot.tag.localName = Cause.rootName := by decide +kernel
  have hregular : (lone epilog).Regular := ⟨_, plainRoot_regular, fun c hc => by cases hc⟩
  have hoverlay : (lone epilog).IsOverlay true := by
    refine ⟨hlocal, fun c hc => absurd hc List.not_mem_nil, fun _ => ?_, fun _ => ?_, fun _ => rfl⟩
    · exact fun h => absurd (hname.symm.trans h) (by simp)
    · show plainRoot.Knows Reader.rootKeys
      decide
  have hdocument : (lone epilog).document = ⟨"D", []⟩ :=
    congrArg (Document.mk · []) (congrArg (·.getD "") hname)
  rw [read_bytes, ← hdocument]
  exact (root_source_ok_iff _ hregular true _).2 ⟨hoverlay, rfl⟩

theorem lone_ends (epilog : String) :
    RootEnds 0 (Markup.withoutMark (lone epilog).bytes).2 (Text.Utf8.encode epilog) := by
  rw [Source.withoutMark_bytes]
  exact .last (plainRoot.scan_empty _) rfl

/-- The text of `lone` may have something else behind it. -/
theorem read_epilog_lone : ∃ p tail, (lone "</a>").bytes = p ++ tail ∧
    RootEnds 0 (Markup.withoutMark (lone "</a>").bytes).2 tail ∧
      (p.getLast? ≠ some 0x3E ∧ tail = [] ∨ ∀ more, read (p ++ more) true = .ok ⟨"D", []⟩) :=
  read_epilog (lone_read "</a>")

/-- Behind the root of `lone` there may be elements, end tags without a start tag, tags without an
end, and text. -/
theorem read_behind_root : ["<a/>", "</a>", "<a", "a"].Forall fun epilog =>
    read (lone epilog).bytes true = .ok ⟨"D", []⟩ ∧
      RootEnds 0 (Markup.withoutMark (lone epilog).bytes).2 (Text.Utf8.encode epilog) ∧
        ¬ (Markup.Stream.scan 0 (Text.Utf8.encode epilog)).IsEpilog := by
  have helement : Markup.Lexeme.scan (Text.Utf8.encode "<a/>") =
      .found (.emptyTag (.ofContent [0x61])) [] := rfl
  have hend : Markup.Lexeme.scan (Text.Utf8.encode "</a>") = .found (.endTag [0x61]) [] := rfl
  have hcut : Markup.Lexeme.scan (Text.Utf8.encode "<a") = .broken (.unclosed .tag) := rfl
  have htext : Markup.Lexeme.scan (Text.Utf8.encode "a") = .found (.text [0x61]) [] := rfl
  exact ⟨⟨lone_read _, lone_ends _, Markup.Stream.not_isEpilog_of_found helement rfl 0⟩,
    ⟨lone_read _, lone_ends _, Markup.Stream.not_isEpilog_of_found hend rfl 0⟩,
    ⟨lone_read _, lone_ends _, Markup.Stream.not_isEpilog_of_broken hcut 0⟩,
    ⟨lone_read _, lone_ends _, Markup.Stream.not_isEpilog_of_found htext rfl 0⟩⟩

end Overlay

end Livery
