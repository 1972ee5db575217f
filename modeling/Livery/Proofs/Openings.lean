import Livery.Markup.Content
import Mathlib.Data.List.Basic

/-!
# Where elements begin

The tags of a text are met one behind the other, and the tree of contents that is built from them
keeps their order: its elements, taken in document order, begin at offsets that increase, and at the
offset of each of them stands the tag that it was made from.

* `Lexeme.scan_found`: all the ways in which a lexeme is found.
* `Lexeme.scan_suffix`: what is left behind a lexeme is the rest of the text.
* `Stream.scan_placed`: every lexeme is found at its offset, further on than those before it.
* `Stream.contents_openings`: the tree of contents has its elements in the order of their tags.
* `Content.ofBytes_openings`: both for a whole text that has no byte-order mark.
-/

namespace Livery.Markup

variable {bs rest : Bytes} {l : Lexeme}

/-! ## How a lexeme is found -/

/-- Behind `<!`, `</` or `<?`, behind another `<`, or as a run of text. -/
inductive Lexeme.Found : Bytes → Lexeme → Bytes → Prop
  | bang {bs rest : Bytes} {l : Lexeme} (h : scanBang bs = .found l rest) :
    Found (0x3C :: bs) l rest
  | endTag (bs : Bytes) :
    Found (0x3C :: 0x2F :: bs) (.endTag (beforeClose bs)) (afterClose bs)
  | instruction {bs rest : Bytes} {l : Lexeme} (h : scanInstruction bs = .found l rest) :
    Found (0x3C :: 0x3F :: bs) l rest
  | tag {bs rest : Bytes} {l : Lexeme} (h : scanTag bs = .found l rest) : Found (0x3C :: bs) l rest
  | text {b : UInt8} (bs : Bytes) (hb : b ≠ 0x3C) :
    Found (b :: bs) (.text ((b :: bs).takeWhile (· != 0x3C))) ((b :: bs).dropWhile (· != 0x3C))

theorem Lexeme.scan_found (h : Lexeme.scan bs = .found l rest) : Found bs l rest := by
  unfold Lexeme.scan at h
  split at h
  · cases h
  · next b bs =>
    split at h
    · next hb =>
      subst hb
      split at h
      · cases h
      · next c cs =>
        split at h
        · exact .bang h
        · split at h
          · next hc =>
            subst hc
            obtain ⟨rfl, rfl⟩ := Scan.found.inj h
            exact .endTag cs
          · split at h
            · next hc =>
              subst hc
              exact .instruction h
            · exact .tag h
    · next hb =>
      obtain ⟨rfl, rfl⟩ := Scan.found.inj h
      exact .text bs hb

/-- Behind `<!` there is a CDATA section, a comment or a document type. -/
theorem scanBang_kind (h : scanBang bs = .found l rest) :
    ∃ body, l = .cdata body ∨ l = .comment body ∨ l = .doctype body := by
  unfold scanBang at h
  grind

/-- Behind `<?` there is an instruction, or a declaration with its name. -/
theorem scanInstruction_kind (h : scanInstruction bs = .found l rest) :
    (∃ body, l = .instruction body) ∨ ∃ tag, l = .declaration tag ∧ declarationName <+: bs := by
  unfold scanInstruction at h
  dsimp only at h
  split at h
  · split at h
    · next hname =>
      obtain ⟨rfl, -⟩ := Scan.found.inj h
      refine .inr ⟨_, rfl, ?_⟩
      rw [← hname.1]
      exact (List.take_prefix _ _).trans ((List.dropLast_prefix _).trans (List.takeWhile_prefix _))
    · obtain ⟨rfl, -⟩ := Scan.found.inj h
      exact .inl ⟨_, rfl⟩
  · cases h

/-- A tag is made of what stands before the first `>` outside quotes. -/
theorem scanTag_kind (h : scanTag bs = .found l rest) :
    ∃ content, closeTag none bs = some (content, rest) ∧
      (l = .emptyTag (.ofContent content.dropLast) ∨ l = .startTag (.ofContent content)) := by
  unfold scanTag at h
  grind

/-! ## What is left behind a lexeme -/

theorem closeWhen_suffix {ends : Bytes → Bool} {reversed inside : Bytes}
    (h : closeWhen ends reversed bs = some (inside, rest)) : rest <:+ bs := by
  induction bs generalizing reversed with
  | nil => simp [closeWhen] at h
  | cons b bs ih =>
    unfold closeWhen at h
    split at h
    · simp only [Option.some.injEq, Prod.mk.injEq] at h
      rw [← h.2]
      exact List.suffix_cons b bs
    · exact (ih h).trans (List.suffix_cons b bs)

theorem closeTag_suffix {quote : Option UInt8} {content : Bytes}
    (h : closeTag quote bs = some (content, rest)) : rest <:+ bs := by
  induction bs generalizing quote content with
  | nil => simp [closeTag] at h
  | cons b bs ih =>
    -- whatever the quote, either the tag is closed here or further on
    have hmore : ∀ {q : Option UInt8},
        (closeTag q bs).map (fun r => (b :: r.1, r.2)) = some (content, rest) →
          rest <:+ b :: bs := by
      intro q hq
      obtain ⟨⟨c, r⟩, hr, heq⟩ := Option.map_eq_some_iff.1 hq
      obtain ⟨-, rfl⟩ := Prod.mk.inj heq
      exact (ih hr).trans (List.suffix_cons b bs)
    unfold closeTag at h
    cases quote with
    | none =>
      simp only at h
      split at h
      · simp only [Option.some.injEq, Prod.mk.injEq] at h
        rw [← h.2]
        exact List.suffix_cons b bs
      · exact hmore h
    | some q => exact hmore h

theorem afterClose_suffix (bs : Bytes) : afterClose bs <:+ bs :=
  (List.tail_suffix _).trans (List.dropWhile_suffix _)

theorem scanBang_suffix (h : scanBang bs = .found l rest) : rest <:+ bs := by
  unfold scanBang at h
  grind [→ closeWhen_suffix]

theorem scanInstruction_suffix (h : scanInstruction bs = .found l rest) : rest <:+ bs := by
  unfold scanInstruction at h
  grind [afterClose_suffix]

theorem scanTag_suffix (h : scanTag bs = .found l rest) : rest <:+ bs := by
  obtain ⟨content, hclose, -⟩ := scanTag_kind h
  exact closeTag_suffix hclose

/-- **What is left behind a lexeme is the rest of the text.** -/
theorem Lexeme.scan_suffix (h : Lexeme.scan bs = .found l rest) : rest <:+ bs := by
  cases scan_found h with
  | bang h => exact (scanBang_suffix h).trans (List.suffix_cons _ _)
  | endTag bs => exact (afterClose_suffix bs).trans ⟨[0x3C, 0x2F], rfl⟩
  | @instruction bs _ _ h => exact (scanInstruction_suffix h).trans ⟨[0x3C, 0x3F], rfl⟩
  | tag h => exact (scanTag_suffix h).trans (List.suffix_cons _ _)
  | text bs hb => exact List.dropWhile_suffix _

/-! ## Lexemes and their offsets -/

/-- The `Tag` of a lexeme that opens an element. -/
def Lexeme.opening? : Lexeme → Option Tag
  | .startTag tag => some tag
  | .emptyTag tag => some tag
  | _ => none

/-- An element is opened by what begins with `<`. -/
theorem Lexeme.scan_opening {tag : Tag} (h : Lexeme.scan bs = .found l rest)
    (ht : l.opening? = some tag) : bs.head? = some 0x3C := by
  cases scan_found h with
  | text bs hb => cases ht
  | _ => rfl

/-- The lexemes of a `Stream` with their offsets. -/
def Stream.lexemes : Stream → List (Nat × Lexeme)
  | .finished _ => []
  | .broken _ _ => []
  | .next offset lexeme rest => (offset, lexeme) :: rest.lexemes

/-- One step of scanning. -/
theorem Stream.scan_step (offset : Nat) (bs : Bytes) :
    Stream.scan offset bs = match Lexeme.scan bs with
      | .finished => .finished offset
      | .broken fault => .broken offset fault
      | .found lexeme rest =>
        match lexeme, rest with
        | .text bytes, [] => .next offset lexeme (.finished (offset + bytes.length - 1))
        | _, rest =>
          .next offset lexeme (Stream.scan (offset + (bs.length - rest.length)) rest) := by
  rw [Stream.scan]
  split
  · next heq => rw [heq]
  · next heq => rw [heq]
  · next l rest heq =>
    simp only [heq]
    cases l with
    | text bytes => cases rest <;> rfl
    | _ => rfl

theorem Stream.lexemes_nil (offset : Nat) : (Stream.scan offset []).lexemes = [] := by
  rw [Stream.scan]
  rfl

/-- The `lexemes` of a text are the first one, and then those of the rest. -/
theorem Stream.lexemes_scan (offset : Nat) (bs : Bytes) :
    (Stream.scan offset bs).lexemes = match Lexeme.scan bs with
      | .found l rest =>
        (offset, l) :: (Stream.scan (offset + (bs.length - rest.length)) rest).lexemes
      | _ => [] := by
  rw [Stream.scan_step]
  cases Lexeme.scan bs with
  | finished => rfl
  | broken fault => rfl
  | found l rest =>
    dsimp only
    split
    · -- the end of a text behind a run of text is reported elsewhere, but it is the end
      rw [Stream.lexemes_nil]
      rfl
    · rfl

/-- These lexemes stand in a text at these offsets, one behind the other, the first one at `offset`
or later. -/
structure Placed (input : Bytes) (offset : Nat) (lexemes : List (Nat × Lexeme)) : Prop where
  found : ∀ p ∈ lexemes, offset ≤ p.1 ∧ ∃ rest, Lexeme.scan (input.drop p.1) = .found p.2 rest
  ordered : lexemes.Pairwise fun p q => p.1 < q.1

/-- **Every lexeme is found at its offset** in `input`, further on than those before it. -/
theorem Stream.scan_placed (input : Bytes) (offset : Nat) :
    Placed input offset (Stream.scan offset (input.drop offset)).lexemes := by
  -- by induction on what is left of the text
  induction hn : (input.drop offset).length using Nat.strongRecOn generalizing offset with
  | ind n ih =>
    subst hn
    rw [Stream.lexemes_scan]
    cases hscan : Lexeme.scan (input.drop offset) with
    | finished => exact ⟨by simp, .nil⟩
    | broken => exact ⟨by simp, .nil⟩
    | found l rest =>
      have hlt := Lexeme.scan_length_lt hscan
      have hrest : rest = input.drop (offset + ((input.drop offset).length - rest.length)) := by
        rw [← List.drop_drop]
        exact (List.suffix_iff_eq_drop.1 (Lexeme.scan_suffix hscan))
      have hmore := ih rest.length hlt
        (offset + ((input.drop offset).length - rest.length)) (by rw [← hrest])
      rw [← hrest] at hmore
      refine ⟨?_, List.pairwise_cons.2 ⟨fun p hp => ?_, hmore.ordered⟩⟩
      · rw [List.forall_mem_cons]
        refine ⟨⟨Nat.le_refl _, rest, hscan⟩, fun p hp => ?_⟩
        have := hmore.found p hp
        exact ⟨by omega, this.2⟩
      · have := (hmore.found p hp).1
        dsimp only
        omega

/-! ## Elements in document order -/

/-- The elements of a `Content` in the order of their tags, at whatever depth. -/
def Content.openings : Content → List Element
  | .closed => []
  | .ended _ => []
  | .broken _ _ => []
  | .text _ _ more => more.openings
  | .cdata _ _ more => more.openings
  | .remark _ more => more.openings
  | .empty e more => e :: more.openings
  | .element e inner more => e :: (inner.openings ++ more.openings)

/-- The offset and the tag of the element `e`. -/
def Element.opening (e : Element) : Nat × Tag := (e.offset, e.tag)

/-- The offsets and tags that open elements in `stream`. -/
def Stream.openings (stream : Stream) : List (Nat × Tag) :=
  stream.lexemes.filterMap fun p => p.2.opening?.map (p.1, ·)

theorem Stream.openings_next (offset : Nat) (lexeme : Lexeme) (rest : Stream) :
    (Stream.next offset lexeme rest).openings =
      match lexeme.opening? with
      | some tag => (offset, tag) :: rest.openings
      | none => rest.openings := by
  rw [openings, lexemes, List.filterMap_cons]
  cases lexeme.opening? <;> rfl

/-- The elements of some `contents`, one behind the other. -/
def Content.allOpenings (contents : List Content) : List (Nat × Tag) :=
  (contents.flatMap Content.openings).map Element.opening

theorem Content.allOpenings_replicate {content : Content} (h : content.openings = []) (n : Nat) :
    Content.allOpenings (List.replicate n content) = [] := by
  simp [allOpenings, h]

/-- A construct in front of the innermost content that is no element adds none. -/
theorem Content.allOpenings_modifyHead {f : Content → Content} {contents : List Content}
    {openings : List (Nat × Tag)} (h : allOpenings contents <+: openings)
    (hf : ∀ more : Content, (f more).openings = more.openings) :
    allOpenings (contents.modifyHead f) <+: openings := by
  cases contents with
  | nil => exact h
  | cons c cs => simpa [allOpenings, hf] using h

/-- **The tree of contents has its elements in the order of their tags**, up to where `stream`
breaks off. -/
theorem Stream.contents_openings [Decoders] (stream : Stream) (state : CharsetState)
    (opened : List Bytes) :
    Content.allOpenings (stream.contents state opened) <+: stream.openings := by
  induction stream generalizing state opened with
  | finished => rw [contents, Content.allOpenings_replicate rfl]; exact List.nil_prefix
  | broken => rw [contents, Content.allOpenings_replicate rfl]; exact List.nil_prefix
  | next offset lexeme rest ih =>
    rw [openings_next]
    cases lexeme with
    | startTag tag =>
      have hlength := rest.length_contents state (tag.name :: opened)
      have hrest := ih state (tag.name :: opened)
      simp only [contents]
      cases hc : rest.contents state (tag.name :: opened) with
      | nil => simp [hc] at hlength
      | cons inner outer =>
        cases outer with
        | nil => simp [hc] at hlength
        | cons more outer =>
          rw [hc] at hrest
          have hnest :
              Content.allOpenings (.element ⟨offset, state.charset, tag⟩ inner more :: outer) =
                (offset, tag) :: Content.allOpenings (inner :: more :: outer) := by
            simp [Content.allOpenings, Content.openings, Element.opening]
          rw [Content.nest, hnest]
          exact List.cons_prefix_cons.2 ⟨rfl, hrest⟩
    | emptyTag tag =>
      have hlength := rest.length_contents state opened
      have hrest := ih state opened
      simp only [contents]
      cases hc : rest.contents state opened with
      | nil => simp [hc] at hlength
      | cons more outer =>
        rw [hc] at hrest
        have hempty : Content.allOpenings (.empty ⟨offset, state.charset, tag⟩ more :: outer) =
            (offset, tag) :: Content.allOpenings (more :: outer) := by
          simp [Content.allOpenings, Content.openings, Element.opening]
        rw [List.modifyHead_cons, hempty]
        exact List.cons_prefix_cons.2 ⟨rfl, hrest⟩
    | endTag name =>
      simp only [contents]
      cases opened with
      | nil => exact List.nil_prefix
      | cons expected outer =>
        dsimp only
        split
        · exact ih state outer
        · rw [Content.allOpenings_replicate rfl]
          exact List.nil_prefix
    | declaration inside =>
      simp only [contents]
      exact Content.allOpenings_modifyHead (ih _ opened) fun _ => rfl
    | _ =>
      simp only [contents]
      exact Content.allOpenings_modifyHead (ih state opened) fun _ => rfl

/-! ## Whole texts -/

/-- The byte-order marks: those of UTF-8, and of UTF-16 in both byte orders. -/
def byteOrderMarks : List Bytes := [[0xEF, 0xBB, 0xBF], [0xFE, 0xFF], [0xFF, 0xFE]]

/-- A text that begins with no byte-order mark is scanned from its first byte. -/
theorem withoutMark_unmarked {input : Bytes} (h : ∀ mark ∈ byteOrderMarks, ¬ mark <+: input) :
    (withoutMark input).2 = input := by
  unfold withoutMark
  split
  · exact absurd ⟨_, rfl⟩ (h [0xEF, 0xBB, 0xBF] (by simp [byteOrderMarks]))
  · exact absurd ⟨_, rfl⟩ (h [0xFF, 0xFE] (by simp [byteOrderMarks]))
  · exact absurd ⟨_, rfl⟩ (h [0xFE, 0xFF] (by simp [byteOrderMarks]))
  · rfl
  · rfl
  · rfl

/-- The tag of the element `e` stands at its offset in `input`. -/
def Element.OpensAt (e : Element) (input : Bytes) : Prop :=
  ∃ l rest, Lexeme.scan (input.drop e.offset) = .found l rest ∧ l.opening? = some e.tag

theorem Element.OpensAt.byte {e : Element} {input : Bytes} (h : e.OpensAt input) :
    input[e.offset]? = some 0x3C := by
  obtain ⟨l, rest, hscan, ht⟩ := h
  rw [← List.head?_drop]
  exact Lexeme.scan_opening hscan ht

/-- **The elements of a text without a byte-order mark begin where they are said to**, in document
order. -/
theorem Content.ofBytes_openings [Decoders] {input : Bytes}
    (h : ∀ mark ∈ byteOrderMarks, ¬ mark <+: input) :
    (∀ e ∈ (Content.ofBytes input).openings, e.OpensAt input) ∧
      (Content.ofBytes input).openings.Pairwise fun e e' => e.offset < e'.offset := by
  set stream := Stream.scan 0 input with hstream
  set contents := stream.contents ⟨(withoutMark input).1, false⟩ [] with hcontents
  have hof : Content.ofBytes input = contents.headD (.ended 0) := by
    rw [Content.ofBytes, hcontents, hstream]
    dsimp only
    rw [withoutMark_unmarked h]
  have hplaced : Placed input 0 stream.lexemes := Stream.scan_placed input 0
  -- the whole text is the first content, so its elements are the first ones of the stream
  have hprefix : (Content.ofBytes input).openings.map Element.opening <+: stream.openings := by
    refine List.IsPrefix.trans ?_ (stream.contents_openings ⟨(withoutMark input).1, false⟩ [])
    rw [hof]
    cases hc : contents with
    | nil => exact List.nil_prefix
    | cons c cs =>
      rw [← hcontents, hc, Content.allOpenings, List.flatMap_cons, List.map_append]
      exact List.prefix_append _ _
  constructor
  · intro e he
    have hmem : e.opening ∈ stream.openings :=
      hprefix.subset (List.mem_map_of_mem (f := Element.opening) he)
    rw [Stream.openings, List.mem_filterMap] at hmem
    obtain ⟨⟨offset, l⟩, hp, heq⟩ := hmem
    obtain ⟨tag, ht, htag⟩ := Option.map_eq_some_iff.1 heq
    obtain ⟨rfl, rfl⟩ := Prod.mk.inj htag
    obtain ⟨-, rest, hscan⟩ := hplaced.found _ hp
    exact ⟨l, rest, hscan, ht⟩
  · have hordered : stream.openings.Pairwise fun p q => p.1 < q.1 := by
      refine List.Pairwise.filterMap _ (fun p q hpq p' hp' q' hq' => ?_) hplaced.ordered
      obtain ⟨_, -, rfl⟩ := Option.map_eq_some_iff.1 hp'
      obtain ⟨_, -, rfl⟩ := Option.map_eq_some_iff.1 hq'
      exact hpq
    have hmap := hordered.sublist hprefix.sublist
    rw [List.pairwise_map] at hmap
    exact hmap

end Livery.Markup
