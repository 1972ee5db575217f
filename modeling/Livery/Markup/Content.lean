import Livery.Markup.Charset
import Livery.Markup.Lexeme

/-!
# Content

The content of an element is what stands between its tags, as a tree that ends with the end tag, or
with the place where the text breaks off. The tree is built before anyone knows which document it
belongs to, so a reader of documents comes upon a fault only when it gets there.

- `Stream.contents` finds the content of every element that is open at a place of the text;
- `Content.ofBytes` is the content of a whole text.
-/

namespace Livery.Markup

/-- An element's opening tag: the `offset` where it begins and the `charset` its attribute values
are in. -/
structure Element where
  offset : Nat
  charset : Charset
  tag : Tag
  deriving DecidableEq, Repr

/-- What follows a place inside an element, up to the `closed` or `ended` that no more follows. -/
inductive Content where
  /-- The end tag of the element. -/
  | closed
  /-- The end of the text. -/
  | ended (offset : Nat)
  | broken (offset : Nat) (fault : Fault)
  | text (offset : Nat) (bytes : Bytes) (more : Content)
  | cdata (offset : Nat) (bytes : Bytes) (more : Content)
  /-- Any other lexeme: a comment, an instruction, a declaration or a document type. -/
  | remark (lexeme : Lexeme) (more : Content)
  /-- An element written as one tag. -/
  | empty (element : Element) (more : Content)
  /-- An element with a start tag and its content. -/
  | element (element : Element) (inner : Content) (more : Content)
  deriving DecidableEq, Repr

/-- The name in an end tag without blanks at its end, unless it is blank altogether. -/
def endName (name : Bytes) : Bytes :=
  if name.all isBlankByte then name else (name.reverse.dropWhile isBlankByte).reverse

/-- The name `name` inside a message; one that is not in the `charset` shows as nothing. -/
def shownName [Decoders] (charset : Charset) (name : Bytes) : String :=
  (charset.decode? name).getD ""

/-- Puts `element` in front of what follows it, given its content, what follows it and so on. -/
def Content.nest (element : Element) : List Content → List Content
  | inner :: more :: outer => .element element inner more :: outer
  | l => l

/-- The contents of the elements that are open where the lexemes begin, the innermost first, and of
the text as a whole last. `opened` holds the names of those elements. -/
def Stream.contents [Decoders] (state : CharsetState) (opened : List Bytes) : Stream → List Content
  | .finished offset => List.replicate (opened.length + 1) (.ended offset)
  | .broken offset fault => List.replicate (opened.length + 1) (.broken offset fault)
  | .next offset lexeme rest =>
    match lexeme with
    | .text bytes => (rest.contents state opened).modifyHead (.text offset bytes)
    | .cdata bytes => (rest.contents state opened).modifyHead (.cdata offset bytes)
    | .declaration inside =>
      (rest.contents (state.afterDeclaration inside) opened).modifyHead (.remark lexeme)
    | .emptyTag tag =>
      (rest.contents state opened).modifyHead (.empty ⟨offset, state.charset, tag⟩)
    | .startTag tag =>
      Content.nest ⟨offset, state.charset, tag⟩ (rest.contents state (tag.name :: opened))
    | .endTag name =>
      match opened with
      | [] => [.broken offset (.mismatchedEnd "" (shownName state.charset name))]
      | expected :: outer =>
        if endName name = expected then .closed :: rest.contents state outer
        else
          List.replicate (opened.length + 1)
            (.broken offset (.mismatchedEnd (shownName state.charset expected)
              (shownName state.charset (endName name))))
    | lexeme => (rest.contents state opened).modifyHead (.remark lexeme)

/-- There is a `Content` for every open element and one for the whole text. -/
theorem Stream.length_contents [Decoders] (stream : Stream) (state : CharsetState)
    (opened : List Bytes) : (stream.contents state opened).length = opened.length + 1 := by
  induction stream generalizing state opened with
  | finished => simp [contents]
  | broken => simp [contents]
  | next offset lexeme rest ih =>
    cases lexeme with
    | startTag tag =>
      have h := ih state (tag.name :: opened)
      simp only [contents]
      match hc : rest.contents state (tag.name :: opened) with
      | inner :: after :: outer => simpa [hc, Content.nest] using h
      | [_] => simp [hc] at h
      | [] => simp [hc] at h
    | endTag name =>
      simp only [contents]
      cases opened with
      | nil => simp
      | cons expected outer => simp only; split <;> simp [ih]
    | _ => simp [contents, ih]

/-- The `Content` of the whole text `input`, a byte-order mark left out. -/
def Content.ofBytes [Decoders] (input : Bytes) : Content :=
  let (charset, markup) := withoutMark input
  ((Stream.scan 0 markup).contents ⟨charset, false⟩ []).headD (.ended 0)

end Livery.Markup
