import Livery.Libraries
import Livery.Proofs.Decoded
import Livery.Proofs.Relocation

/-!
# The XML declaration at the head of a text

A text may begin with an XML declaration, and what this says about the charset is what attribute
values are read in, also where the text is given as characters. Apart from that the declaration
changes nothing but columns on the first line.

* `Heading.ofBytes`: the content of a text with such a heading.
* `Position.ofOffset_behind`: positions behind two headings.
* `read_heading`: two declarations make no difference if their charsets agree on the text.
* `readText_encoding_differs`: otherwise they do, whatever the characters of the text are.
-/

namespace Livery

namespace Markup

/-! ## Headings -/

/-- An XML declaration on one line, by what stands in it behind `xml`. -/
structure Heading where
  rest : Bytes
  spaced : rest.head?.any isSpace = true
  closes : 0x3E ∉ rest
  oneLine : 0x0A ∉ rest

namespace Heading

def tag (d : Heading) : Tag := ⟨declarationName, d.rest⟩

def written (d : Heading) : Bytes := (Lexeme.declaration d.tag).written

/-- What the declaration `d` says about the charset of the text. -/
def state (d : Heading) : CharsetState := CharsetState.afterDeclaration ⟨.utf8, false⟩ d.tag

theorem not_mem_written (d : Heading) : 0x0A ∉ d.written := by
  have hrest := d.oneLine
  simp [written, tag, Lexeme.written, declarationName, hrest]

theorem getLast?_written (d : Heading) : d.written.getLast? = some 0x3E := by
  rw [written, Lexeme.written, List.getLast?_append]
  rfl

theorem scan (d : Heading) (tail : Bytes) :
    Lexeme.scan (d.written ++ tail) = .found (.declaration d.tag) tail :=
  (Source.Prelude.declaration d.rest d.spaced d.closes).scan tail

/-- **What stands behind a declaration** is read in the charset that it names. -/
theorem ofBytes [Decoders] (d : Heading) (tail : Bytes) :
    Content.ofBytes (d.written ++ tail) =
      .remark (.declaration d.tag) (Source.top d.written.length tail d.state) := by
  have hopens := (Source.Prelude.declaration d.rest d.spaced d.closes).opens
  have hmark : withoutMark (d.written ++ tail) = (.utf8, d.written ++ tail) :=
    Source.withoutMark_blanks ⟨[], Source.no_blanks⟩ (hopens.append tail)
  have hstream : Stream.scan 0 (d.written ++ tail) =
      .next 0 (.declaration d.tag) (Stream.scan (0 + d.written.length) tail) :=
    Source.scan_written d.scan (fun _ h => by cases h) 0 tail
  rw [Nat.zero_add] at hstream
  simp only [Content.ofBytes, hmark, hstream]
  exact Source.headD_modifyHead

/-- The charsets of the declarations `d` and `d'` have the same texts for all that stands in `tail`.
If one of them leaves the charset open, there must be none further on that could settle it. -/
structure Agree [Decoders] (d d' : Heading) (tail : Bytes) : Prop where
  charset : d.state.charset.Agree (· <:+: tail) d'.state.charset
  once : d.state.declared = d'.state.declared ∨ ¬ declarationOpener <:+: tail

/-- They agree on the lexemes behind them. -/
theorem Agree.stream [Decoders] {d d' : Heading} {tail : Bytes} (h : d.Agree d' tail) :
    d.state.Agree (· <:+: tail) (Stream.scan d.written.length tail) d'.state := by
  have hplaced := Stream.scan_placed (d.written ++ tail) d.written.length
  rw [List.drop_left] at hplaced
  have hfound : ∀ p ∈ (Stream.scan d.written.length tail).lexemes,
      ∃ part rest, part <:+ tail ∧ Lexeme.scan part = .found p.2 rest := by
    intro p hp
    obtain ⟨hle, rest, hscan⟩ := hplaced.found p hp
    refine ⟨_, rest, ?_, hscan⟩
    obtain ⟨k, hk⟩ := Nat.exists_eq_add_of_le hle
    rw [hk, ← List.drop_drop, List.drop_left]
    exact List.drop_suffix k tail
  refine ⟨h.charset, h.once.imp_right ?_, ?_⟩
  · intro hno p hp tag hdeclaration
    apply hno
    obtain ⟨part, rest, hpart, hscan⟩ := hfound p hp
    rw [hdeclaration] at hscan
    exact (Lexeme.scan_declaration hscan).isInfix.trans hpart.isInfix
  · intro p hp value hvalue
    obtain ⟨part, rest, hpart, hscan⟩ := hfound p hp
    exact (Lexeme.scan_decoded hscan hvalue).trans hpart.isInfix

end Heading

end Markup

/-! ## Positions behind a heading -/

namespace Position

/-- The positions `p` and `p'` are the same, or two on the first line. -/
structure SameLine (p p' : Position) : Prop where
  line : p.line = p'.line
  column : p.line ≠ 1 → p.column = p'.column

theorem SameLine.refl (p : Position) : SameLine p p := ⟨rfl, fun _ => rfl⟩

/-- The first line may begin with anything. -/
theorem ofOffset_behind {pre pre' : Bytes} (h : 0x0A ∉ pre) (h' : 0x0A ∉ pre') (tail : Bytes)
    (k : Nat) : SameLine (ofOffset (pre ++ tail) (pre.length + k))
      (ofOffset (pre' ++ tail) (pre'.length + k)) := by
  have hwalk : ∀ l : Bytes, 0x0A ∉ l → ofOffset (l ++ tail) (l.length + k) =
      (tail.take k).foldl advance ⟨1, 1 + l.length⟩ := by
    intro l hl
    rw [ofOffset, List.take_length_add_append, List.foldl_append, foldl_advance_plain _ hl]
  rw [hwalk pre h, hwalk pre' h', foldl_advance_columns, foldl_advance_columns]
  split
  · exact .refl _
  · exact ⟨rfl, fun hne => absurd rfl hne⟩

/-- The markup at an offset behind what ends with `>` begins there, too. -/
theorem ofMarkup_behind (tail : Bytes) (k : Nat) : ∃ j, ∀ pre : Bytes,
    pre.getLast? = some 0x3E → ofMarkup (pre ++ tail) (pre.length + k) =
      ofOffset (pre ++ tail) (pre.length + j) := by
  cases k with
  | zero =>
    refine ⟨0, fun pre hlast => if_neg ?_⟩
    rintro ⟨hne, -, hopener⟩
    have hlt : pre.length - 1 < pre.length := by omega
    rw [Nat.add_zero, List.getElem?_append_left hlt, ← List.getLast?_eq_getElem?, hlast] at hopener
    cases hopener
  | succ k =>
    refine ⟨if tail[k + 1]? ≠ some 0x3C ∧ tail[k]? = some 0x3C then k else k + 1, fun pre _ => ?_⟩
    have hhere : (pre ++ tail)[pre.length + (k + 1)]? = tail[k + 1]? := by
      rw [List.getElem?_append_right (by omega), Nat.add_sub_cancel_left]
    have hbefore : (pre ++ tail)[pre.length + (k + 1) - 1]? = tail[k]? := by
      rw [List.getElem?_append_right (by omega)]
      congr 1
      omega
    rw [ofMarkup, hhere, hbefore]
    by_cases hsnap : tail[k + 1]? ≠ some 0x3C ∧ tail[k]? = some 0x3C
    · rw [if_pos ⟨by omega, hsnap⟩, if_pos hsnap]
      congr 1
    · rw [if_neg fun h => hsnap h.2, if_neg hsnap]

end Position

namespace Overlay

open Markup (Content Heading Source)

/-- **Two declarations make no difference** but to columns on the first line, if they `Agree` on
what stands behind them. Take two XML declarations on one line, and the same text behind each of
them, read strictly or leniently. Either both are the same document, or both fail for the same
cause; and the positions are the same ones, unless they are on the first line, where they stay. -/
theorem read_heading [Markup.Decoders] {d d' : Heading} {tail : Bytes} (h : d.Agree d' tail)
    (strict : Bool) :
    Matches Position.SameLine (Document.Alike Position.SameLine) (read (d.written ++ tail) strict)
      (read (d'.written ++ tail) strict) := by
  -- the beginning of the text, or as far behind the one declaration as behind the other
  set R : Nat → Nat → Prop := fun o o' => (o = 0 ∧ o' = 0) ∨
    ∃ k, o = d.written.length + k ∧ o' = d'.written.length + k with hR
  have hstart : R 0 0 := .inl ⟨rfl, rfl⟩
  have htrack : Reader.Track Position.SameLine R ⟨d.written ++ tail, strict⟩
      ⟨d'.written ++ tail, strict⟩ := by
    refine ⟨rfl, ?_⟩
    rintro _ _ (⟨rfl, rfl⟩ | ⟨k, rfl, rfl⟩)
    · exact .refl _
    · obtain ⟨j, hj⟩ := Position.ofMarkup_behind tail k
      rw [Reader.position, Reader.position, hj _ d.getLast?_written, hj _ d'.getLast?_written]
      exact Position.ofOffset_behind d.not_mem_written d'.not_mem_written tail j
  refine htrack.document_matches hstart ?_
  rw [d.ofBytes, d'.ofBytes]
  refine .remark _ _ (Markup.Stream.top_alike ?_ h.stream hstart)
  exact Markup.Stream.scan_alike fun k _ => .inr ⟨k, rfl, rfl⟩

/-! ## ASCII and beyond -/

/-- A declaration that names the encoding `windows-1252`. -/
def windowsHeading : Heading where
  rest := Text.Utf8.encode " version=\"1.0\" encoding=\"windows-1252\""
  spaced := by decide
  closes := by decide
  oneLine := by decide

/-- A declaration that names none. -/
def bareHeading : Heading where
  rest := Text.Utf8.encode " version=\"1.0\""
  spaced := by decide
  closes := by decide
  oneLine := by decide

theorem windowsHeading_state : windowsHeading.state = ⟨.codePage .windows1252, true⟩ := by
  decide +kernel

theorem bareHeading_state : bareHeading.state = ⟨.utf8, false⟩ := by decide +kernel

/-- The overlay `dawn` is ASCII, and has no further declaration. -/
theorem read_heading_dawn : windowsHeading.Agree bareHeading dawn.bytes ∧
    Matches Position.SameLine (Document.Alike Position.SameLine)
      (read (windowsHeading.written ++ dawn.bytes) true)
      (read (bareHeading.written ++ dawn.bytes) true) := by
  have hagree : windowsHeading.Agree bareHeading dawn.bytes := by
    refine ⟨?_, .inr (by decide +kernel)⟩
    rw [windowsHeading_state, bareHeading_state]
    exact Markup.Charset.agree_ascii rfl rfl (by decide +kernel)
  exact ⟨hagree, read_heading hagree true⟩

theorem no_quote : 0x22 ∉ Text.Utf8.encode "é" := by decide

theorem no_quote_namespace : 0x22 ∉ Text.Utf8.encode themeNamespace := by decide

/-- A root with a name beyond ASCII, as bytes of UTF-8. -/
def accentedRoot : Source.Tag :=
  .simple "ThemeSyntaxDefinition"
    [.simple "name" "é" isName_name.nonempty isName_name.named no_quote,
      .simple "xmlns" themeNamespace isName_xmlns.nonempty isName_xmlns.named no_quote_namespace]
    isName_root.nonempty isName_root.named

/-- An overlay of `accentedRoot` with nothing but a name, behind the declaration `d`. -/
def accented (d : Heading) : Source where
  prolog := [(⟨[], Source.no_blanks⟩, .declaration d.rest d.spaced d.closes)]
  root := accentedRoot

/-- The name of `accented` is what its bytes are in the charset of the declaration. -/
theorem accented_name [Markup.Decoders] {d : Heading} {name : String}
    (h : accentedRoot.value? d.state.charset "name" = some name) :
    (read (accented d).bytes true).map Document.name = .ok name := by
  have henter : Markup.Scope.initial.enter accentedRoot.tag =
      .ok ⟨([], Text.Utf8.encode themeNamespace) :: Markup.Scope.initial.bindings⟩ := by
    rw [Source.Tag.enter_tag]
    rfl
  have hdistinct : (accentedRoot.assignments.map (·.key.bytes)).Nodup := by decide
  have hlocal : accentedRoot.tag.localName = Cause.rootName := by decide +kernel
  have hknown : accentedRoot.Knows Reader.rootKeys := by decide
  have hregular : (accented d).Regular := by
    refine ⟨_, ⟨henter, rfl, hdistinct, ?_⟩, fun c hc => by cases hc⟩
    intro a ha hplain
    simp only [accented, accentedRoot, Source.Tag.simple, List.mem_cons, List.not_mem_nil,
      or_false] at ha
    rcases ha with rfl | rfl
    · exact ⟨name, h⟩
    · exact absurd hplain (by decide)
  have hoverlay : (accented d).IsOverlay true := by
    refine ⟨hlocal, fun c hc => absurd hc List.not_mem_nil, fun _ hno => ?_, fun _ => hknown,
      fun _ => rfl⟩
    exact absurd (h.symm.trans hno) (by simp)
  have hread : read (accented d).bytes true = .ok (accented d).document := by
    rw [read_bytes]
    exact (root_source_ok_iff _ hregular true _).2 ⟨hoverlay, rfl⟩
  rw [hread]
  exact congrArg Except.ok (congrArg (·.getD "") h)

/-- The overlay `accented` as characters, given what stands in the declaration. -/
def accentedText (inside : String) : String :=
  "<?xml" ++ inside ++ "?>" ++ ("<ThemeSyntaxDefinition name=\"é\" xmlns=\"" ++
    themeNamespace ++ "\"/>")

theorem encode_accentedText {d : Heading} {inside : String}
    (h : d.rest = Text.Utf8.encode inside) :
    Text.Utf8.encode (accentedText inside) = (accented d).bytes := by
  have hopen : Text.Utf8.encode "<?xml" = [0x3C, 0x3F] ++ Markup.declarationName := by decide
  have hclose : Text.Utf8.encode "?>" = [0x3F, 0x3E] := by decide
  have hroot : Text.Utf8.encode "<ThemeSyntaxDefinition name=\"é\" xmlns=\"" ++
      Text.Utf8.encode themeNamespace ++ Text.Utf8.encode "\"/>" =
        (Markup.Lexeme.emptyTag accentedRoot.tag).written := by decide +kernel
  have hbytes : (accented d).bytes =
      d.written ++ (Markup.Lexeme.emptyTag accentedRoot.tag).written := by
    simp [Source.bytes, Source.markup, Source.body, Source.Prolog.written, accented,
      Heading.written, Heading.tag, Source.Prelude.lexeme]
  have happend : ∀ a b c d e f : String, Text.Utf8.encode (a ++ b ++ c ++ (d ++ e ++ f)) =
      Text.Utf8.encode a ++ Text.Utf8.encode b ++ Text.Utf8.encode c ++
        (Text.Utf8.encode d ++ Text.Utf8.encode e ++ Text.Utf8.encode f) := by
    intro a b c d e f
    simp only [Text.Utf8.encode_append]
  rw [hbytes, accentedText, happend, hroot, hopen, hclose, ← h]
  rfl

/-- The characters of a text are read as the bytes that they would be in the encoding that the
declaration names. -/
theorem readText_encoding_differs :
    (readText (accentedText " version=\"1.0\"") true).map Document.name = .ok "é" ∧
    (readText (accentedText " version=\"1.0\" encoding=\"windows-1252\"") true).map Document.name =
      .ok "Ã©" := by
  have hbare := encode_accentedText (d := bareHeading) rfl
  have hwindows := encode_accentedText (d := windowsHeading) rfl
  rw [readText, hbare, readText, hwindows]
  refine ⟨accented_name ?_, accented_name ?_⟩
  · rw [bareHeading_state]
    decide +kernel
  · rw [windowsHeading_state]
    decide +kernel

end Overlay

end Livery
