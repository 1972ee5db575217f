import Livery.Proofs.Openings
import Mathlib.Data.List.Forall2
import Mathlib.Data.Option.Basic

/-!
# The same markup at other offsets

A text of markup may stand further back in a larger one, and its attribute values may be in another
charset that has the same texts for them. Then it has the same lexemes and the same contents, only
that they begin elsewhere. Which offset of the one text goes with which of the other is a relation
`R`, and what is read in both charsets is a set `S` of byte strings.

* `Stream.scan_alike`: the same lexemes at corresponding offsets.
* `Stream.contents_alike`: the same contents at corresponding offsets.
-/

namespace Livery.Markup

variable {R : Nat → Nat → Prop} {S : Bytes → Prop}

/-! ## Streams -/

/-- The same lexemes in the same order, at offsets that correspond by `R`. -/
inductive Stream.Alike (R : Nat → Nat → Prop) : Stream → Stream → Prop
  | finished {o o' : Nat} (ho : R o o') : Alike R (.finished o) (.finished o')
  | broken {o o' : Nat} (ho : R o o') (fault : Fault) : Alike R (.broken o fault) (.broken o' fault)
  | next {o o' : Nat} (ho : R o o') (lexeme : Lexeme) {rest rest' : Stream} :
    Alike R rest rest' → Alike R (.next o lexeme rest) (.next o' lexeme rest')

/-- A run of text has at least one byte, and it stands at the beginning. -/
theorem Lexeme.scan_text {bs bytes rest : Bytes} (h : Lexeme.scan bs = .found (.text bytes) rest) :
    bytes ≠ [] ∧ bytes <+: bs := by
  cases scan_found h with
  | bang h =>
    obtain ⟨_, heq | heq | heq⟩ := scanBang_kind h
    all_goals cases heq
  | instruction h =>
    obtain ⟨_, heq⟩ | ⟨_, heq, -⟩ := scanInstruction_kind h
    all_goals cases heq
  | tag h =>
    obtain ⟨_, -, heq | heq⟩ := scanTag_kind h
    all_goals cases heq
  | text bs hb =>
    refine ⟨?_, List.takeWhile_prefix _⟩
    rw [List.takeWhile_cons_of_pos (by simpa using hb)]
    exact List.cons_ne_nil _ _

/-- **The same bytes are the same lexemes at corresponding offsets.** -/
theorem Stream.scan_alike {bs : Bytes} {o o' : Nat} (h : ∀ k ≤ bs.length, R (o + k) (o' + k)) :
    Stream.Alike R (Stream.scan o bs) (Stream.scan o' bs) := by
  -- by induction on what is left of the text
  induction hn : bs.length using Nat.strongRecOn generalizing o o' bs with
  | ind n ih =>
    subst hn
    have hstart : R o o' := h 0 (Nat.zero_le _)
    rw [Stream.scan_step o, Stream.scan_step o']
    cases hscan : Lexeme.scan bs with
    | finished => exact .finished hstart
    | broken fault => exact .broken hstart fault
    | found l rest =>
      have hlt := Lexeme.scan_length_lt hscan
      have hmore : Stream.Alike R (Stream.scan (o + (bs.length - rest.length)) rest)
          (Stream.scan (o' + (bs.length - rest.length)) rest) := by
        refine ih rest.length hlt (fun k hk => ?_) rfl
        rw [Nat.add_assoc, Nat.add_assoc]
        exact h _ (by omega)
      dsimp only
      split
      · -- the text ends with this run of text, and its end is reported at the last byte
        next bytes =>
        obtain ⟨hne, hprefix⟩ := Lexeme.scan_text hscan
        have hpos := List.length_pos_of_ne_nil hne
        have hle := hprefix.length_le
        refine .next hstart _ (.finished ?_)
        rw [Nat.add_sub_assoc hpos, Nat.add_sub_assoc hpos]
        exact h _ (by omega)
      · exact .next hstart l hmore

/-! ## Charsets -/

variable [Decoders]

/-- The charsets `c` and `c'` have the same texts for the byte strings of `S`. -/
def Charset.Agree (S : Bytes → Prop) (c c' : Charset) : Prop :=
  ∀ bs, S bs → c.decode? bs = c'.decode? bs

theorem Charset.Agree.shownName {c c' : Charset} (h : c.Agree S c') {name : Bytes} (hn : S name) :
    shownName c name = shownName c' name := by
  rw [Markup.shownName, h name hn, Markup.shownName]

/-- The byte strings of a `Lexeme` that are read in the charset of the text. -/
inductive Lexeme.Decoded : Lexeme → Bytes → Prop
  | startName (tag : Tag) : Decoded (.startTag tag) tag.name
  | startValue {tag : Tag} {a : Attribute} (ha : a ∈ tag.attributes.attributes) :
    Decoded (.startTag tag) a.value
  | emptyValue {tag : Tag} {a : Attribute} (ha : a ∈ tag.attributes.attributes) :
    Decoded (.emptyTag tag) a.value
  | endName (name : Bytes) : Decoded (.endTag name) name
  | trimmedName (name : Bytes) : Decoded (.endTag name) (endName name)

/-- All that is read of a lexeme in the charset of the text is in `S`. -/
def Lexeme.Over (S : Bytes → Prop) (l : Lexeme) : Prop := ∀ bs, l.Decoded bs → S bs

/-- The states `s` and `s'` of the charset stay in agreement over the lexemes that follow in
`stream`. -/
structure CharsetState.Agree (S : Bytes → Prop) (stream : Stream) (s s' : CharsetState) : Prop where
  charset : s.charset.Agree S s'.charset
  declared : s.declared = s'.declared ∨ ∀ p ∈ stream.lexemes, ∀ tag, p.2 ≠ .declaration tag
  decoded : ∀ p ∈ stream.lexemes, p.2.Over S

namespace CharsetState.Agree

variable {s s' : CharsetState} {o : Nat} {l : Lexeme} {rest : Stream}

theorem refl (stream : Stream) (s : CharsetState) : Agree (fun _ => True) stream s s :=
  ⟨fun _ _ => rfl, .inl rfl, fun _ _ _ _ => trivial⟩

theorem tail (h : Agree S (.next o l rest) s s') : Agree S rest s s' where
  charset := h.charset
  declared := h.declared.imp_right fun hno p hp => hno p (List.mem_cons_of_mem _ hp)
  decoded p hp := h.decoded p (List.mem_cons_of_mem _ hp)

theorem head (h : Agree S (.next o l rest) s s') : l.Over S := h.decoded (o, l) List.mem_cons_self

/-- The declaration `tag` names a charset for both, or for neither. -/
theorem afterDeclaration {tag : Tag} (h : Agree S (.next o (.declaration tag) rest) s s') :
    Agree S rest (s.afterDeclaration tag) (s'.afterDeclaration tag) := by
  have hflags : s.declared = s'.declared :=
    h.declared.resolve_right fun hno => hno (o, .declaration tag) List.mem_cons_self tag rfl
  have htail := h.tail
  unfold CharsetState.afterDeclaration
  rw [hflags]
  split
  · exact htail
  · cases Charset.ofDeclaration? tag with
    | none => exact htail
    | some charset => exact ⟨fun _ _ => rfl, .inl rfl, htail.decoded⟩

end CharsetState.Agree

/-! ## Contents -/

/-- The same tag at offsets that correspond by `R`, with values that stand for the same texts. -/
structure Element.Alike (R : Nat → Nat → Prop) (e e' : Element) : Prop where
  offset : R e.offset e'.offset
  tag : e.tag = e'.tag
  values : ∀ a ∈ e.tag.attributes.attributes,
    e.charset.decode? a.value = e'.charset.decode? a.value

/-- The same pieces in the same order, at offsets that correspond by `R`. -/
inductive Content.Alike (R : Nat → Nat → Prop) : Content → Content → Prop
  | closed : Alike R .closed .closed
  | ended {o o' : Nat} (ho : R o o') : Alike R (.ended o) (.ended o')
  | broken {o o' : Nat} (ho : R o o') (fault : Fault) : Alike R (.broken o fault) (.broken o' fault)
  | text {o o' : Nat} (ho : R o o') (bytes : Bytes) {c c' : Content} :
    Alike R c c' → Alike R (.text o bytes c) (.text o' bytes c')
  | cdata {o o' : Nat} (ho : R o o') (bytes : Bytes) {c c' : Content} :
    Alike R c c' → Alike R (.cdata o bytes c) (.cdata o' bytes c')
  | remark (l l' : Lexeme) {c c' : Content} :
    Alike R c c' → Alike R (.remark l c) (.remark l' c')
  | empty {e e' : Element} (he : e.Alike R e') {c c' : Content} :
    Alike R c c' → Alike R (.empty e c) (.empty e' c')
  | element {e e' : Element} (he : e.Alike R e') {i i' c c' : Content} :
    Alike R i i' → Alike R c c' → Alike R (.element e i c) (.element e' i' c')

theorem Content.Alike.replicate {c c' : Content} (h : c.Alike R c') (n : Nat) :
    List.Forall₂ (Content.Alike R) (List.replicate n c) (List.replicate n c') := by
  induction n with
  | zero => exact .nil
  | succ n ih => exact .cons h ih

/-- A construct, `f` or `f'`, in front of the innermost contents. -/
theorem Content.Alike.modifyHead {cs cs' : List Content} {f f' : Content → Content}
    (h : List.Forall₂ (Content.Alike R) cs cs')
    (hf : ∀ c c' : Content, c.Alike R c' → (f c).Alike R (f' c')) :
    List.Forall₂ (Content.Alike R) (cs.modifyHead f) (cs'.modifyHead f') := by
  cases h with
  | nil => exact .nil
  | cons hfirst hmore => exact .cons (hf _ _ hfirst) hmore

theorem Content.Alike.nest {cs cs' : List Content} {e e' : Element} (he : e.Alike R e')
    (h : List.Forall₂ (Content.Alike R) cs cs') :
    List.Forall₂ (Content.Alike R) (Content.nest e cs) (Content.nest e' cs') := by
  cases h with
  | nil => exact .nil
  | cons hinner hmore =>
    cases hmore with
    | nil => exact .cons hinner .nil
    | cons hnext houter => exact .cons (.element he hinner hnext) houter

/-- **The same lexemes have the same contents at corresponding offsets**, if the charsets agree on
what is read in them. -/
theorem Stream.contents_alike {stream stream' : Stream} (h : stream.Alike R stream')
    {s s' : CharsetState} (hs : s.Agree S stream s') {opened : List Bytes}
    (hopened : ∀ name ∈ opened, S name) :
    List.Forall₂ (Content.Alike R) (stream.contents s opened) (stream'.contents s' opened) := by
  induction h generalizing s s' opened with
  | finished ho => exact Content.Alike.replicate (.ended ho) _
  | broken ho fault => exact Content.Alike.replicate (.broken ho fault) _
  | next ho lexeme _ ih =>
    cases lexeme with
    | text bytes =>
      exact Content.Alike.modifyHead (ih hs.tail hopened) fun _ _ hc => .text ho bytes hc
    | cdata bytes =>
      exact Content.Alike.modifyHead (ih hs.tail hopened) fun _ _ hc => .cdata ho bytes hc
    | declaration inside =>
      exact Content.Alike.modifyHead (ih hs.afterDeclaration hopened) fun _ _ hc => .remark _ _ hc
    | emptyTag tag =>
      have he : Element.Alike R ⟨_, s.charset, tag⟩ ⟨_, s'.charset, tag⟩ :=
        ⟨ho, rfl, fun a ha => hs.charset _ (hs.head _ (.emptyValue ha))⟩
      exact Content.Alike.modifyHead (ih hs.tail hopened) fun _ _ hc => .empty he hc
    | startTag tag =>
      have he : Element.Alike R ⟨_, s.charset, tag⟩ ⟨_, s'.charset, tag⟩ :=
        ⟨ho, rfl, fun a ha => hs.charset _ (hs.head _ (.startValue ha))⟩
      refine Content.Alike.nest he (ih hs.tail ?_)
      exact List.forall_mem_cons.2 ⟨hs.head _ (.startName tag), hopened⟩
    | endTag name =>
      have hname := hs.charset.shownName (hs.head _ (.endName name))
      have htrimmed := hs.charset.shownName (hs.head _ (.trimmedName name))
      simp only [contents]
      cases opened with
      | nil =>
        rw [hname]
        exact .cons (.broken ho _) .nil
      | cons expected outer =>
        rw [List.forall_mem_cons] at hopened
        dsimp only
        split
        · exact .cons .closed (ih hs.tail hopened.2)
        · rw [htrimmed, hs.charset.shownName hopened.1]
          exact Content.Alike.replicate (.broken ho _) _
    | comment body =>
      exact Content.Alike.modifyHead (ih hs.tail hopened) fun _ _ hc => .remark _ _ hc
    | doctype body =>
      exact Content.Alike.modifyHead (ih hs.tail hopened) fun _ _ hc => .remark _ _ hc
    | instruction body =>
      exact Content.Alike.modifyHead (ih hs.tail hopened) fun _ _ hc => .remark _ _ hc

/-- The contents of two texts as a whole. -/
theorem Stream.top_alike {stream stream' : Stream} (h : stream.Alike R stream')
    {s s' : CharsetState} (hs : s.Agree S stream s') {o o' : Nat} (ho : R o o') :
    Content.Alike R ((stream.contents s []).headD (.ended o))
      ((stream'.contents s' []).headD (.ended o')) := by
  have hcontents := Stream.contents_alike h hs (List.forall_mem_nil S)
  generalize stream.contents s [] = cs at hcontents ⊢
  generalize stream'.contents s' [] = cs' at hcontents ⊢
  cases hcontents with
  | nil => exact .ended ho
  | cons hfirst _ => exact hfirst

end Livery.Markup
