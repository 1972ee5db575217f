import Livery.Markup.Content

/-!
# Sources

Well-formed markup as it is written: a tree of tags, comments, instructions, CDATA sections and runs
of text, with all the blanks and quotes that a writer may choose. A piece carries the proof that it
ends where it says.

* `Source.Forest`: what stands between a start tag and its end tag.
* `Source`: a whole text with what precedes and follows its root element; `Source.bytes` writes it.

An instruction with `>` inside is well formed and is not a `Source.Remark`: the reader takes the
first `>` for its end. Likewise a document type ends where `<` and `>` first balance.
-/

namespace Livery.Markup

namespace Source

/-- Blanks inside and between tags, each an `isSpace` byte. -/
structure Blanks where
  bytes : Bytes
  blank : bytes.all isSpace = true := by decide

theorem no_blanks : ([] : Bytes).all isSpace = true := rfl

theorem one_blank : ([0x20] : Bytes).all isSpace = true := rfl

/-- A byte of a name: no blank, and none of `NUL ! " & ' / < = > ?`. -/
def isNameByte (b : UInt8) : Bool :=
  !isBlankByte b &&
    !([0x00, 0x21, 0x22, 0x26, 0x27, 0x2F, 0x3C, 0x3D, 0x3E, 0x3F] : Bytes).contains b

/-- The name of an element or an attribute, of bytes for which `isNameByte` holds. -/
structure Name where
  bytes : Bytes
  nonempty : bytes ≠ [] := by decide
  named : bytes.all isNameByte = true := by decide

/-- The text `text` is the name of an element or an attribute. -/
structure IsName (text : String) : Prop where
  nonempty : Text.Utf8.encode text ≠ []
  named : (Text.Utf8.encode text).all isNameByte = true

/-- A run of text, which may be empty. It has no `<`. -/
structure Text where
  bytes : Bytes
  plain : 0x3C ∉ bytes := by decide

theorem no_text : (0x3C : UInt8) ∉ ([] : Bytes) := List.not_mem_nil

/-! ## Tags -/

/-- An attribute with the blanks before it and around `=`. -/
structure Assignment where
  space : Blanks
  key : Name
  left : Blanks := ⟨[], no_blanks⟩
  right : Blanks := ⟨[], no_blanks⟩
  quote : UInt8 := 0x22
  value : Bytes
  spaced : space.bytes ≠ [] := by decide
  quotes : quote = 0x22 ∨ quote = 0x27 := by decide
  closes : quote ∉ value := by decide

namespace Assignment

theorem one_blank_ne_nil : ([0x20] : Bytes) ≠ [] := List.cons_ne_nil _ _

theorem double_quote : (0x22 : UInt8) = 0x22 ∨ (0x22 : UInt8) = 0x27 := .inl rfl

def written (a : Assignment) : Bytes :=
  a.space.bytes ++ (a.key.bytes ++ (a.left.bytes ++ 0x3D :: (a.right.bytes ++
    a.quote :: (a.value ++ [a.quote]))))

/-- The `Attribute` that is read. -/
def entry (a : Assignment) : Attribute := ⟨a.key.bytes, a.value⟩

/-- The attribute `key` behind one space, its `value` in double quotes. -/
def simple (key value : String) (nonempty : Text.Utf8.encode key ≠ [] := by decide)
    (named : (Text.Utf8.encode key).all isNameByte = true := by decide)
    (closes : 0x22 ∉ Text.Utf8.encode value := by decide) : Assignment where
  space := ⟨[0x20], one_blank⟩
  key := ⟨Text.Utf8.encode key, nonempty, named⟩
  value := Text.Utf8.encode value
  spaced := one_blank_ne_nil
  quotes := double_quote
  closes := closes

end Assignment

/-- A start tag or an empty-element tag. -/
structure Tag where
  name : Name
  assignments : List Assignment := []
  space : Blanks := ⟨[], no_blanks⟩

/-- The `Markup.Tag` that is read. -/
def Tag.tag (t : Tag) : Markup.Tag :=
  ⟨t.name.bytes, t.assignments.flatMap Assignment.written ++ t.space.bytes⟩

/-- A tag called `name` without blanks at its end. -/
def Tag.simple (name : String) (assignments : List Assignment)
    (nonempty : Text.Utf8.encode name ≠ [] := by decide)
    (named : (Text.Utf8.encode name).all isNameByte = true := by decide) : Tag :=
  { name := ⟨Text.Utf8.encode name, nonempty, named⟩, assignments }

/-! ## Between tags -/

/-- An instruction with this `body` would be an XML declaration. -/
def declares (body : Bytes) : Bool :=
  body.take 3 == declarationName && (body.drop 3).head?.any isSpace

/-- A comment or an instruction. -/
inductive Remark where
  | comment (body : Bytes) (closes : ¬ [0x2D, 0x2D, 0x3E] <:+: body)
  | instruction (body : Bytes) (named : body ≠ []) (closes : 0x3E ∉ body)
    (other : declares body = false)

def Remark.lexeme : Remark → Lexeme
  | .comment body _ => .comment body
  | .instruction body _ _ _ => .instruction body

/-- A CDATA section. -/
structure Section where
  bytes : Bytes
  closes : ¬ [0x5D, 0x5D, 0x3E] <:+: bytes

/-- What stands between a start tag and its end tag: pieces of markup, each with the `Text` before
it, and the text before the end tag. -/
inductive Forest where
  | done (text : Text)
  | remark (text : Text) (r : Remark) (more : Forest)
  | cdata (text : Text) (s : Section) (more : Forest)
  | empty (text : Text) (t : Tag) (more : Forest)
  | element (text : Text) (t : Tag) (inner : Forest) (blanks : Blanks) (more : Forest)

/-- The end tag of an element of the tag `t`, which may have `blanks` behind its name. -/
def Tag.endTag (t : Tag) (blanks : Blanks) : Lexeme := .endTag (t.name.bytes ++ blanks.bytes)

def Forest.written : Forest → Bytes
  | .done text => text.bytes
  | .remark text r more => text.bytes ++ (r.lexeme.written ++ more.written)
  | .cdata text s more => text.bytes ++ ((Lexeme.cdata s.bytes).written ++ more.written)
  | .empty text t more => text.bytes ++ ((Lexeme.emptyTag t.tag).written ++ more.written)
  | .element text t inner blanks more =>
    text.bytes ++ ((Lexeme.startTag t.tag).written ++
      (inner.written ++ ((t.endTag blanks).written ++ more.written)))

/-! ## Before the root -/

/-- The body of a document type is more than blanks and ends where `<` and `>` first balance. -/
structure Doctype where
  body : Bytes
  named : body.all isSpace = false
  balanced : body.count 0x3C = body.count 0x3E
  closes : ∀ k, body[k]? = some 0x3E → (body.take k).count 0x3C ≠ (body.take k).count 0x3E

theorem Doctype.closes_of_lt {body : Bytes} (h : ∀ k < body.length, body[k]? = some 0x3E →
    (body.take k).count 0x3C ≠ (body.take k).count 0x3E) :
    ∀ k, body[k]? = some 0x3E → (body.take k).count 0x3C ≠ (body.take k).count 0x3E :=
  fun k hk => h k (List.getElem?_eq_some_iff.1 hk).1 hk

/-- What may stand before the root besides `Blanks`. -/
inductive Prelude where
  | remark (r : Remark)
  | declaration (rest : Bytes) (spaced : rest.head?.any isSpace = true) (closes : 0x3E ∉ rest)
  | doctype (d : Doctype)

def Prelude.lexeme : Prelude → Lexeme
  | .remark r => r.lexeme
  | .declaration rest _ _ => .declaration ⟨declarationName, rest⟩
  | .doctype d => .doctype d.body

/-- The markup before the root, each `Prelude` with the blanks before it. -/
abbrev Prolog := List (Blanks × Prelude)

def Prolog.written : Prolog → Bytes
  | [] => []
  | (blanks, p) :: prolog => blanks.bytes ++ (p.lexeme.written ++ written prolog)

/-- What the declarations of a prolog say about the charset, beginning with `state`. -/
def Prolog.charset (state : CharsetState) : Prolog → CharsetState
  | [] => state
  | (_, .declaration rest _ _) :: prolog =>
    charset (state.afterDeclaration ⟨declarationName, rest⟩) prolog
  | _ :: prolog => charset state prolog

end Source

/-- A text of one element, the `root`. Behind it anything may follow. -/
structure Source where
  /-- The text begins with the byte-order mark of UTF-8. -/
  mark : Bool := false
  prolog : Source.Prolog := []
  space : Source.Blanks := ⟨[], Source.no_blanks⟩
  root : Source.Tag
  /-- The content of the `root` and the blanks in its end tag, unless it is one tag. -/
  content : Option (Source.Forest × Source.Blanks) := none
  epilog : Bytes := []

namespace Source

/-- The `root` element and what follows it. -/
def body (s : Source) : Bytes :=
  match s.content with
  | none => (Lexeme.emptyTag s.root.tag).written ++ s.epilog
  | some (inner, blanks) =>
    (Lexeme.startTag s.root.tag).written ++
      (inner.written ++ ((s.root.endTag blanks).written ++ s.epilog))

/-- The text of `s` without its byte-order mark. -/
def markup (s : Source) : Bytes := s.prolog.written ++ (s.space.bytes ++ s.body)

def bytes (s : Source) : Bytes := (if s.mark then [0xEF, 0xBB, 0xBF] else []) ++ s.markup

/-- The offset of the `root`. -/
def offset (s : Source) : Nat := s.prolog.written.length + s.space.bytes.length

/-- The charset of the attribute values, which the `prolog` may declare. -/
def charset (s : Source) : Charset := (s.prolog.charset ⟨.utf8, false⟩).charset

end Source

end Livery.Markup
