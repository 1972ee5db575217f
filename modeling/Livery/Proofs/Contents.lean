import Livery.Overlay.Reading
import Livery.Proofs.Openings
import Livery.Proofs.Scanning
import Mathlib.Data.List.Basic

/-!
# The content of a source

* `Source.Forest.contents`: the content of an element is read as it is written.
* `Source.ofBytes`: a whole text is its root element, with its content, behind remarks and blanks.
* `Overlay.read_bytes`: to read an overlay is to read its root element.
* `Overlay.read_broken`, `Overlay.read_text_before_root`, `Overlay.read_wrong_root`: what is
  reported of a text that is no overlay from its beginning.
-/

namespace Livery.Markup

namespace Source

/-! ## Contents as they are written -/

/-- The run of text `t` that begins at `offset`, in front of `more`. There is none where there are
no bytes. -/
def Text.content (offset : Nat) (t : Text) (more : Content) : Content :=
  if t.bytes = [] then more else .text offset t.bytes more

/-- The `Content` of an element, given the charset of its attributes and the offset behind its start
tag. -/
def Forest.content (charset : Charset) : Nat → Forest → Content
  | o, .done t => t.content o .closed
  | o, .remark t r more =>
    let o' := o + t.bytes.length
    t.content o (.remark r.lexeme (more.content charset (o' + r.lexeme.written.length)))
  | o, .cdata t s more =>
    let o' := o + t.bytes.length
    t.content o (.cdata o' s.bytes
      (more.content charset (o' + (Lexeme.cdata s.bytes).written.length)))
  | o, .empty t tag more =>
    let o' := o + t.bytes.length
    t.content o (.empty ⟨o', charset, tag.tag⟩
      (more.content charset (o' + (Lexeme.emptyTag tag.tag).written.length)))
  | o, .element t tag inner blanks more =>
    let o' := o + t.bytes.length
    let start := o' + (Lexeme.startTag tag.tag).written.length
    t.content o (.element ⟨o', charset, tag.tag⟩ (inner.content charset start)
      (more.content charset
        (start + inner.written.length + (tag.endTag blanks).written.length)))

/-- The `Element` of the root. -/
def element (s : Source) : Element := ⟨s.offset, s.charset, s.root.tag⟩

/-- The `Content` of the root, if it has two tags. -/
def inner (s : Source) : Option Content :=
  s.content.map fun c =>
    c.1.content s.charset (s.offset + (Lexeme.startTag s.root.tag).written.length)

/-! ## Streams -/

theorem scan_next {bs rest : Bytes} {l : Lexeme} (h : Lexeme.scan bs = .found l rest)
    (hrest : (∃ b, l = .text b) → rest ≠ []) (offset : Nat) :
    Stream.scan offset bs =
      .next offset l (Stream.scan (offset + (bs.length - rest.length)) rest) := by
  rw [Stream.scan_step, h]
  dsimp only
  split
  · next bytes => exact absurd rfl (hrest ⟨bytes, rfl⟩)
  · rfl

/-- Markup that is scanned as it is written comes first, and then what follows it. -/
theorem scan_written {l : Lexeme} (h : ∀ rest, Lexeme.scan (l.written ++ rest) = .found l rest)
    (hl : ∀ b, l ≠ .text b) (offset : Nat) (rest : Bytes) :
    Stream.scan offset (l.written ++ rest) =
      .next offset l (Stream.scan (offset + l.written.length) rest) := by
  rw [scan_next (h rest) (fun ⟨b, hb⟩ => absurd hb (hl b)), List.length_append, Nat.add_sub_cancel]

/-- The text `t` comes before the markup that follows it. -/
theorem contents_text [Decoders] (t : Text) {rest : Bytes} (hrest : rest.head? = some 0x3C)
    (offset : Nat) (state : CharsetState) (opened : List Bytes) :
    (Stream.scan offset (t.bytes ++ rest)).contents state opened =
      ((Stream.scan (offset + t.bytes.length) rest).contents state opened).modifyHead
        (t.content offset) := by
  -- a run without bytes is not scanned as text at all
  rcases hb : t.bytes with _ | ⟨b, bs⟩
  · have hid : t.content offset = id := by funext more; simp [Text.content, hb]
    rw [hid, List.modifyHead_id]
    rfl
  · have hplain : ∀ c ∈ b :: bs, (c != 0x3C) = true := fun c hc =>
      bne_iff_ne.2 fun heq => t.plain (hb ▸ heq ▸ hc)
    have hstop : ∀ c, rest.head? = some c → (c != 0x3C) = false := by
      intro c hc
      simp [Option.some.inj (hrest.symm.trans hc).symm]
    have hscan : Lexeme.scan (b :: bs ++ rest) = .found (.text (b :: bs)) rest := by
      have hne : b ≠ 0x3C := bne_iff_ne.1 (hplain b (by simp))
      simp only [List.cons_append, Lexeme.scan, if_neg hne]
      rw [← List.cons_append, takeWhile_upTo hplain hstop, dropWhile_upTo hplain hstop]
    rw [scan_next hscan (fun _ h => by simp [h] at hrest), List.length_append,
      Nat.add_sub_cancel]
    have hcontent : t.content offset = .text offset (b :: bs) := by
      funext more; simp [Text.content, hb]
    rw [hcontent]
    rfl

/-- A lexeme with nothing in front of it begins with `<`. -/
theorem head?_written {l : Lexeme} (hl : ∀ b, l ≠ .text b) (rest : Bytes) :
    (l.written ++ rest).head? = some 0x3C := by
  cases l with
  | text b => exact absurd rfl (hl b)
  | _ => rfl

theorem Remark.ne_text (r : Remark) (b : Bytes) : r.lexeme ≠ .text b := by
  cases r <;> simp [lexeme]

theorem contents_remark [Decoders] (r : Remark) (offset : Nat) (rest : Bytes) (state : CharsetState)
    (opened : List Bytes) :
    (Stream.scan offset (r.lexeme.written ++ rest)).contents state opened =
      ((Stream.scan (offset + r.lexeme.written.length) rest).contents state opened).modifyHead
        (.remark r.lexeme) := by
  rw [scan_written r.scan r.ne_text]
  cases r <;> rfl

/-- **The content of an element is read as it is written** in a `Forest`, and what is behind its end
tag belongs to the elements around it. -/
theorem Forest.contents [Decoders] (f : Forest) (tag : Tag) (blanks : Blanks) (offset : Nat)
    (rest : Bytes) (state : CharsetState) (opened : List Bytes) :
    (Stream.scan offset (f.written ++ ((tag.endTag blanks).written ++ rest))).contents state
        (tag.name.bytes :: opened) =
      f.content state.charset offset ::
        (Stream.scan (offset + f.written.length + (tag.endTag blanks).written.length)
          rest).contents state opened := by
  induction f generalizing tag blanks offset rest opened with
  | done t =>
    have hend := scan_written (tag.scan_end blanks) (by simp [Tag.endTag])
      (offset + t.bytes.length) rest
    rw [written, contents_text t (head?_written (by simp [Tag.endTag]) rest), hend]
    simp only [Tag.endTag, Stream.contents, tag.endName_eq, if_pos, List.modifyHead_cons, content]
  | remark t r more ih =>
    rw [written, List.append_assoc, List.append_assoc,
      contents_text t (head?_written r.ne_text _), contents_remark, ih]
    simp only [List.modifyHead_cons, content, List.length_append, Nat.add_assoc]
  | cdata t s more ih =>
    rw [written, List.append_assoc, List.append_assoc,
      contents_text t (head?_written (by simp) _), scan_written (scan_cdata s.closes) (by simp)]
    simp only [Stream.contents]
    rw [ih]
    simp only [List.modifyHead_cons, content, List.length_append, Nat.add_assoc]
  | empty t tag' more ih =>
    rw [written, List.append_assoc, List.append_assoc,
      contents_text t (head?_written (by simp) _), scan_written tag'.scan_empty (by simp)]
    simp only [Stream.contents]
    rw [ih]
    simp only [List.modifyHead_cons, content, List.length_append, Nat.add_assoc]
  | element t tag' inner blanks' more ih_inner ih_more =>
    rw [written, List.append_assoc, List.append_assoc, List.append_assoc, List.append_assoc,
      contents_text t (head?_written (by simp) _), scan_written tag'.scan_start (by simp)]
    simp only [Stream.contents]
    -- the inner content ends at its own end tag, and the rest is the content of the outer element
    rw [show tag'.tag.name = tag'.name.bytes from rfl, ih_inner, ih_more]
    simp only [Content.nest, List.modifyHead_cons, content, List.length_append,
      Nat.add_assoc]

/-! ## The whole text -/

/-- The second of two contents is `c` with something that may precede the first element. -/
inductive Preceded (c : Content) : Content → Prop
  | refl : Preceded c c
  | text {offset : Nat} {bytes : Bytes} {d : Content} (h : bytes.all isSpace = true) :
    Preceded c d → Preceded c (.text offset bytes d)
  | remark (l : Lexeme) {d : Content} : Preceded c d → Preceded c (.remark l d)

theorem Blanks.plain (b : Blanks) : 0x3C ∉ b.bytes := fun h =>
  absurd (List.all_eq_true.1 b.blank _ h) (by decide)

/-- The blanks `b` as a run of text. -/
def Blanks.text (b : Blanks) : Text := ⟨b.bytes, b.plain⟩

theorem Preceded.trans {c d e : Content} (h : Preceded c d) (h' : Preceded d e) :
    Preceded c e := by
  induction h' with
  | refl => exact h
  | text hb _ ih => exact .text hb ih
  | remark l _ ih => exact .remark l ih

theorem Preceded.blanks {c d : Content} (h : Preceded c d) (b : Blanks) (offset : Nat) :
    Preceded c (b.text.content offset d) := by
  unfold Text.content
  split
  · exact h
  · exact .text b.blank h

/-- The `Content` of the text `bs` as a whole, which begins at `offset`. -/
abbrev top [Decoders] (offset : Nat) (bs : Bytes) (state : CharsetState) : Content :=
  ((Stream.scan offset bs).contents state []).headD (.ended 0)

theorem headD_modifyHead [Decoders] {f : Content → Content} {stream : Stream}
    {state : CharsetState} :
    ((stream.contents state []).modifyHead f).headD (.ended 0) =
      f ((stream.contents state []).headD (.ended 0)) := by
  have h := stream.length_contents state []
  match hc : stream.contents state [] with
  | [_] => rfl
  | [] => simp [hc] at h
  | _ :: _ :: _ => simp [hc] at h

theorem top_blanks [Decoders] (b : Blanks) {rest : Bytes} (hrest : rest.head? = some 0x3C)
    (offset : Nat) (state : CharsetState) :
    top offset (b.bytes ++ rest) state =
      b.text.content offset (top (offset + b.bytes.length) rest state) := by
  rw [top, show b.bytes = b.text.bytes from rfl, contents_text b.text hrest, headD_modifyHead]

/-- What precedes the root element is the blanks and remarks of `prolog`. -/
theorem preceded_prolog [Decoders] (prolog : Prolog) (offset : Nat) (rest : Bytes)
    (state : CharsetState) :
    Preceded (top (offset + prolog.written.length) rest (prolog.charset state))
      (top offset (prolog.written ++ rest) state) := by
  induction prolog generalizing offset state with
  | nil => exact .refl
  | cons p prolog ih =>
    obtain ⟨blanks, p⟩ := p
    have hne : ∀ b, p.lexeme ≠ .text b := by
      intro b
      cases p with
      | remark r => exact r.ne_text b
      | _ => simp [Prelude.lexeme]
    rw [Prolog.written, List.append_assoc, List.append_assoc,
      top_blanks blanks (head?_written hne _), List.length_append, List.length_append,
      ← Nat.add_assoc, ← Nat.add_assoc]
    refine Preceded.blanks ?_ blanks offset
    have hnext := scan_written p.scan hne (offset + blanks.bytes.length)
      (Prolog.written prolog ++ rest)
    simp only [top, hnext]
    cases p with
    | remark r =>
      rw [← hnext, Prelude.lexeme, contents_remark, headD_modifyHead]
      exact .remark _ (ih _ state)
    | declaration inside spaced closes =>
      -- what follows is read in the charset that the declaration names
      simp only [Prelude.lexeme, Stream.contents]
      rw [headD_modifyHead]
      exact .remark _ (ih _ _)
    | doctype d =>
      simp only [Prelude.lexeme, Stream.contents]
      rw [headD_modifyHead]
      exact .remark _ (ih _ state)

/-- The root element with its content, and whatever `more` follows it. -/
theorem top_body [Decoders] (s : Source) (offset : Nat) (state : CharsetState) :
    ∃ more, top offset s.body state = match s.content with
      | none => .empty ⟨offset, state.charset, s.root.tag⟩ more
      | some (f, _) =>
        .element ⟨offset, state.charset, s.root.tag⟩
          (f.content state.charset (offset + (Lexeme.startTag s.root.tag).written.length))
          more := by
  unfold body
  cases s.content with
  | none =>
    rw [top, scan_written s.root.scan_empty (by simp)]
    exact ⟨_, headD_modifyHead⟩
  | some c =>
    obtain ⟨f, blanks⟩ := c
    rw [top, scan_written s.root.scan_start (by simp)]
    simp only [Stream.contents]
    rw [show s.root.tag.name = s.root.name.bytes from rfl, f.contents]
    generalize hrest : (Stream.scan _ s.epilog).contents state [] = l
    have hlen := congrArg List.length hrest
    rw [Stream.length_contents] at hlen
    cases l with
    | nil => cases hlen
    | cons more _ => exact ⟨more, rfl⟩

/-! ## Byte-order marks -/

/-- A `<` and a byte that is not `NUL`. -/
def Opens (bs : Bytes) : Prop := ∃ c rest, bs = 0x3C :: c :: rest ∧ c ≠ 0x00

theorem Opens.append {bs : Bytes} (h : Opens bs) (more : Bytes) : Opens (bs ++ more) := by
  obtain ⟨c, rest, rfl, hc⟩ := h
  exact ⟨c, rest ++ more, rfl, hc⟩

theorem Prelude.opens (p : Prelude) : Opens p.lexeme.written := by
  rcases p with (⟨body, _⟩ | ⟨body, _, _, _⟩) | ⟨rest, _, _⟩ | d
  all_goals exact ⟨_, _, rfl, by decide⟩

theorem Tag.opens (t : Tag) (bs : Bytes) : Opens (0x3C :: t.tag.name ++ bs) := by
  obtain ⟨c, cs, hc⟩ := List.exists_cons_of_ne_nil t.name.nonempty
  refine ⟨c, cs ++ bs, by simp [tag, hc], ?_⟩
  rintro rfl
  exact absurd (t.name.isNameByte_of_mem (hc ▸ List.mem_cons_self)) (by decide)

theorem body_opens (s : Source) : Opens s.body := by
  unfold body
  split
  · exact (((s.root.opens s.root.tag.rest).append [0x2F, 0x3E]).append s.epilog)
  · exact ((s.root.opens s.root.tag.rest).append [0x3E]).append _

/-- Markup that begins with blanks or a `<` has no byte-order mark, and is not in UTF-16. -/
theorem withoutMark_blanks (b : Blanks) {rest : Bytes} (h : Opens rest) :
    withoutMark (b.bytes ++ rest) = (.utf8, b.bytes ++ rest) := by
  obtain ⟨c, rest, rfl, hc⟩ := h
  have hhead : ∀ d ds, b.bytes ++ 0x3C :: c :: rest = d :: ds → isSpace d = true ∨ d = 0x3C := by
    intro d ds heq
    cases hb : b.bytes with
    | nil => rw [hb] at heq; cases heq; exact .inr rfl
    | cons x xs =>
      rw [hb] at heq
      cases heq
      exact .inl (List.all_eq_true.1 b.blank _ (by simp [hb]))
  unfold withoutMark
  split
  · next heq => exact absurd (hhead _ _ heq) (by decide)
  · next heq => exact absurd (hhead _ _ heq) (by decide)
  · next heq => exact absurd (hhead _ _ heq) (by decide)
  · next heq => exact absurd (hhead _ _ heq) (by decide)
  · next heq =>
    cases hb : b.bytes with
    | nil => rw [hb] at heq; cases heq; exact absurd rfl hc
    | cons x xs =>
      rw [hb] at heq
      obtain ⟨rfl, -⟩ := List.cons.inj heq
      exact absurd (List.all_eq_true.1 b.blank 0x3C (by simp [hb])) (by decide)
  · rfl

theorem withoutMark_bytes (s : Source) : withoutMark s.bytes = (.utf8, s.markup) := by
  unfold bytes
  split
  · rfl
  · rw [List.nil_append, markup]
    cases s.prolog with
    | nil => exact withoutMark_blanks s.space s.body_opens
    | cons p prolog =>
      rw [Prolog.written, List.append_assoc, List.append_assoc]
      exact withoutMark_blanks p.1 (p.2.opens.append _)

/-- **A whole text is its root element**, behind remarks and blanks and in front of anything. -/
theorem ofBytes [Markup.Decoders] (s : Source) : ∃ more, Preceded
    (match s.inner with
      | none => .empty s.element more
      | some content => .element s.element content more)
    (Content.ofBytes s.bytes) := by
  obtain ⟨more, hmore⟩ := s.top_body s.offset (s.prolog.charset ⟨.utf8, false⟩)
  obtain ⟨c, cs, hbody, -⟩ := s.body_opens
  refine ⟨more, ?_⟩
  have hpre := preceded_prolog s.prolog 0 (s.space.bytes ++ s.body) ⟨.utf8, false⟩
  rw [Nat.zero_add, top_blanks s.space (by simp [hbody])] at hpre
  have hroot := (Preceded.refl.blanks s.space s.prolog.written.length).trans hpre
  change Preceded (top s.offset s.body _) _ at hroot
  rw [hmore] at hroot
  simp only [Content.ofBytes, withoutMark_bytes]
  unfold inner
  cases hc : s.content with
  | none => rw [hc] at hroot; exact hroot
  | some c => rw [hc] at hroot; exact hroot

end Source

end Livery.Markup

namespace Livery.Overlay

open Markup (Content Source)

theorem Reader.document_preceded [Markup.Decoders] (r : Reader) {c d : Content}
    (h : Source.Preceded c d) : r.document d = r.document c := by
  induction h with
  | refl => rfl
  | @text _ bytes _ hb _ ih =>
    have hblank : isBlank bytes = true := List.all_eq_true.2 fun b hmem => by
      simp [Markup.isBlankByte, List.all_eq_true.1 hb b hmem]
    rw [document, if_pos hblank, ih]
  | remark l _ ih => rw [document, ih]

theorem Reader.enter_ok (r : Reader) {scope inside : Markup.Scope} {e : Markup.Element}
    (h : scope.enter e.tag = .ok inside) : r.enter scope e = .ok inside := by
  simp only [enter, h, lift]

theorem Reader.enter_then (r : Reader) {α : Type} {scope inside : Markup.Scope}
    {e : Markup.Element} (h : scope.enter e.tag = .ok inside)
    (k : Markup.Scope → Reader.Result α) : (r.enter scope e >>= k) = k inside := by
  rw [r.enter_ok h]
  rfl

theorem Reader.enter_refused (r : Reader) {α : Type} {scope : Markup.Scope} {e : Markup.Element}
    {fault : Markup.Fault} (h : scope.enter e.tag = .error fault)
    (k : Markup.Scope → Reader.Result α) :
    (r.enter scope e >>= k) = r.refuse e.offset (.markup fault) := by
  unfold enter
  rw [h]
  rfl

/-- The text `t` is passed over, unless the schema forbids it. -/
theorem Reader.children_text (r : Reader) {α : Type} {parent : String}
    {child : Markup.Scope → Markup.Element → Option Content → Reader.Result α}
    {scope : Markup.Scope} (t : Source.Text) (offset : Nat) (more : Content) :
    r.children parent child scope (t.content offset more) =
      if r.strict = true ∧ t.bytes.all Markup.isBlankByte = false then
        r.refuse offset (.textInside parent)
      else r.children parent child scope more := by
  unfold Source.Text.content
  split
  · next h => simp [h]
  · rw [children]
    simp only [isBlank, Bool.and_eq_true, Bool.not_eq_true']

/-- **To `read` an overlay is to read its root element.** -/
theorem read_bytes [Markup.Decoders] (s : Source) (strict : Bool) :
    read s.bytes strict = (Reader.mk s.bytes strict).root s.element s.inner := by
  obtain ⟨more, h⟩ := s.ofBytes
  rw [read, Reader.document_preceded _ h]
  cases s.inner <;> rfl

/-! ## What cannot be read -/

section Unread

variable {bs rest : Bytes} {charset : Markup.Charset}

/-- Reading begins behind the byte-order mark and the prolog. -/
theorem read_behind [Markup.Decoders] (prolog : Source.Prolog)
    (hmark : Markup.withoutMark bs = (charset, prolog.written ++ rest)) (strict : Bool) :
    read bs strict = (Reader.mk bs strict).document
      (Source.top prolog.written.length rest (prolog.charset ⟨charset, false⟩)) := by
  have hpre := Source.preceded_prolog prolog 0 rest ⟨charset, false⟩
  rw [Nat.zero_add] at hpre
  simp only [read, Content.ofBytes, hmark]
  exact Reader.document_preceded _ hpre

theorem scan_broken {fault : Markup.Fault} (h : Markup.Lexeme.scan rest = .broken fault)
    (offset : Nat) : Markup.Stream.scan offset rest = .broken offset fault := by
  rw [Markup.Stream.scan_step, h]

/-- Broken markup before the root is reported. -/
theorem read_broken [Markup.Decoders] (prolog : Source.Prolog)
    (hmark : Markup.withoutMark bs = (charset, prolog.written ++ rest)) {fault : Markup.Fault}
    (h : Markup.Lexeme.scan rest = .broken fault) (strict : Bool) :
    read bs strict =
      (Reader.mk bs strict).refuse prolog.written.length (.markup fault) := by
  rw [read_behind prolog hmark, Source.top, scan_broken h]
  rfl

/-- So is text that is not blank. -/
theorem read_text_before_root [Markup.Decoders] (prolog : Source.Prolog) (t : Source.Text)
    (hmark : Markup.withoutMark bs = (charset, prolog.written ++ (t.bytes ++ rest)))
    (hrest : rest.head? = some 0x3C) (ht : Reader.isBlank t.bytes = false) (strict : Bool) :
    read bs strict =
      (Reader.mk bs strict).refuse prolog.written.length .textBeforeRoot := by
  have hne : t.bytes ≠ [] := by
    intro h
    rw [h] at ht
    exact absurd ht (by decide)
  rw [read_behind prolog hmark, Source.top, Source.contents_text t hrest,
    Source.headD_modifyHead, Source.Text.content, if_neg hne, Reader.document,
    if_neg (by simp [ht])]

/-- And so is a root that is not in the theme namespace. -/
theorem read_wrong_root [Markup.Decoders] (prolog : Source.Prolog) {tag : Markup.Tag} {more : Bytes}
    {inside : Markup.Scope}
    (hmark : Markup.withoutMark bs = (charset, prolog.written ++ rest))
    (h : Markup.Lexeme.scan rest = .found (.startTag tag) more)
    (henter : Markup.Scope.initial.enter tag = .ok inside)
    (hforeign : inside.namespace? tag.name ≠ some (Text.Utf8.encode themeNamespace))
    (strict : Bool) :
    read bs strict =
      (Reader.mk bs strict).refuse prolog.written.length (.wrongRoot tag.localName) := by
  have hthemed : ∀ o charset, Reader.isThemed inside ⟨o, charset, tag⟩ = false := fun _ _ => by
    simpa [Reader.isThemed] using hforeign
  rw [read_behind prolog hmark, Source.top, Source.scan_next h (by simp)]
  simp only [Markup.Stream.contents]
  generalize hl : (Markup.Stream.scan _ more).contents _ _ = l
  have hlength := congrArg List.length hl
  rw [Markup.Stream.length_contents] at hlength
  obtain ⟨inner, after, rfl⟩ := List.length_eq_two.1 hlength.symm
  simp only [Markup.Content.nest, List.headD_cons, Reader.document, Reader.root]
  rw [Reader.enter_then _ henter, hthemed]
  rfl

theorem Reader.root_broken [Markup.Decoders] (r : Reader) (e : Markup.Element) (offset : Nat)
    (fault : Markup.Fault) : ∃ f, r.root e (some (.broken offset fault)) = .error f := by
  unfold root
  cases r.enter .initial e with
  | error f => exact ⟨f, rfl⟩
  | ok scope =>
    simp only [bind, Except.bind]
    split
    · cases r.values e rootKeys with
      | error f => exact ⟨f, rfl⟩
      | ok vs =>
        simp only
        cases r.requiredName e vs with
        | error f => exact ⟨f, rfl⟩
        | ok name => exact ⟨_, rfl⟩
    · exact ⟨_, rfl⟩

/-- Broken markup behind the start tag of the root makes the text unreadable. -/
theorem read_root_broken [Markup.Decoders] (t : Source.Tag) {fault : Markup.Fault}
    (h : Markup.Lexeme.scan rest = .broken fault) (strict : Bool) :
    ∃ f, read ((Markup.Lexeme.startTag t.tag).written ++ rest) strict = .error f := by
  have hmark : Markup.withoutMark ((Markup.Lexeme.startTag t.tag).written ++ rest) =
      (.utf8, (Markup.Lexeme.startTag t.tag).written ++ rest) :=
    Source.withoutMark_blanks ⟨[], rfl⟩ (((t.opens t.tag.rest).append [0x3E]).append rest)
  rw [@read_behind _ ((Markup.Lexeme.startTag t.tag).written ++ rest) _ _ [] hmark, Source.top,
    Source.scan_written t.scan_start (by simp)]
  simp only [scan_broken h, Markup.Stream.contents]
  exact Reader.root_broken _ _ _ _

/-- An instruction that holds `>` does so. -/
theorem read_instruction_broken [Markup.Decoders] (t : Source.Tag) {body : Bytes}
    (closes : 0x3E ∉ body) (h : body.getLast? ≠ some 0x3F) (rest : Bytes) (strict : Bool) :
    ∃ f, read ((Markup.Lexeme.startTag t.tag).written ++
      0x3C :: 0x3F :: (body ++ 0x3E :: rest)) strict = .error f :=
  read_root_broken t (Source.scan_instruction_broken closes h rest) strict

end Unread

end Livery.Overlay
