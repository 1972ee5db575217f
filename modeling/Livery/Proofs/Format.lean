import Livery.Overlay.Reading
import Livery.Proofs.Source

/-!
# The format of overlays

What an overlay has to look like, and the document it stands for, in terms of its source: elements
with their attributes and children, whatever remarks stand between them.

* `Source.Regular`: all elements are in the theme namespace and all attributes can be read.
* `Source.IsOverlay`: the elements are those of the format, strictly or leniently.
* `Source.document`: the document that is declared.
-/

namespace Livery

namespace Markup.Source

/-! ## Elements -/

/-- An element: the `offset` of its tag, the `tag`, and what stands behind it with the offset of
that, if it has two tags. -/
structure Node where
  offset : Nat
  tag : Tag
  inner : Option (Nat × Forest)

/-- The elements of a `Forest` that begins at an offset, without those inside other elements. -/
def Forest.nodes : Nat → Forest → List Node
  | _, .done _ => []
  | o, .remark t r more => more.nodes (o + t.bytes.length + r.lexeme.written.length)
  | o, .cdata t s more =>
    more.nodes (o + t.bytes.length + (Lexeme.cdata s.bytes).written.length)
  | o, .empty t tag more =>
    ⟨o + t.bytes.length, tag, none⟩ ::
      more.nodes (o + t.bytes.length + (Lexeme.emptyTag tag.tag).written.length)
  | o, .element t tag inner blanks more =>
    let start := o + t.bytes.length + (Lexeme.startTag tag.tag).written.length
    ⟨o + t.bytes.length, tag, some (start, inner)⟩ ::
      more.nodes (start + inner.written.length + (tag.endTag blanks).written.length)

/-- No text but blanks, and no CDATA section, outside the elements of a `Forest`. -/
def Forest.isTextFree : Forest → Bool
  | .done t => t.bytes.all isBlankByte
  | .remark t _ more => t.bytes.all isBlankByte && more.isTextFree
  | .cdata _ _ _ => false
  | .empty t _ more => t.bytes.all isBlankByte && more.isTextFree
  | .element t _ _ _ more => t.bytes.all isBlankByte && more.isTextFree

namespace Node

def children (n : Node) : List Node :=
  match n.inner with
  | none => []
  | some (offset, f) => f.nodes offset

def isTextFree (n : Node) : Bool := n.inner.all (·.2.isTextFree)

def localName (n : Node) : String := n.tag.tag.localName

end Node

/-- The root element of `s`. -/
def node (s : Source) : Node :=
  ⟨s.offset, s.root, s.content.map fun c =>
    (s.offset + (Lexeme.startTag s.root.tag).written.length, c.1)⟩

/-! ## Attributes -/

variable [Markup.Decoders]

namespace Assignment

/-- The attribute `a` has no prefix and is no namespace declaration. -/
def isPlain (a : Assignment) : Bool := a.key.bytes != xmlnsPrefix && !a.key.bytes.contains 0x3A

def keyText (a : Assignment) : String := Text.Utf8.decodeLossy a.key.bytes

/-- The value of `a` as text, if it decodes in `charset` and its references are sound. -/
def value? (charset : Charset) (a : Assignment) : Option String :=
  (charset.decode? a.value).bind fun text => (unescape text).toOption

end Assignment

/-- The value of the plain attribute `key`. -/
def Tag.value? (charset : Charset) (t : Tag) (key : String) : Option String :=
  (t.assignments.find? fun a => a.isPlain && a.keyText == key).bind (·.value? charset)

/-- All plain attributes of `t` are among `keys`. -/
def Tag.Knows (t : Tag) (keys : List String) : Prop :=
  ∀ a ∈ t.assignments, a.isPlain = true → a.keyText ∈ keys

instance (t : Tag) (keys : List String) : Decidable (t.Knows keys) :=
  inferInstanceAs (Decidable (∀ a ∈ t.assignments, a.isPlain = true → a.keyText ∈ keys))

/-! ## Regular sources -/

/-- A tag whose declarations lead from `scope` to `inside` is in the theme namespace there. No key
comes twice, and the plain attributes have values. -/
structure Tag.Regular (charset : Charset) (scope inside : Scope) (t : Tag) : Prop where
  enter : scope.enter t.tag = .ok inside
  themed : inside.namespace? t.name.bytes = some (Text.Utf8.encode Overlay.themeNamespace)
  distinct : (t.assignments.map (·.key.bytes)).Nodup
  legible : ∀ a ∈ t.assignments, a.isPlain = true → ∃ v, a.value? charset = some v

/-- All tags of a `Forest` are `Tag.Regular`. -/
def Forest.Regular (charset : Charset) : Scope → Forest → Prop
  | _, .done _ => True
  | scope, .remark _ _ more => more.Regular charset scope
  | scope, .cdata _ _ more => more.Regular charset scope
  | scope, .empty _ t more =>
    (∃ inside, t.Regular charset scope inside) ∧ more.Regular charset scope
  | scope, .element _ t inner _ more =>
    (∃ inside, t.Regular charset scope inside ∧ inner.Regular charset inside) ∧
      more.Regular charset scope

/-- All tags of the source `s` are `Tag.Regular`. -/
def Regular (s : Source) : Prop :=
  ∃ inside, s.root.Regular s.charset .initial inside ∧
    ∀ c, s.content = some c → c.1.Regular s.charset inside

end Markup.Source

namespace Overlay

open Markup (Charset Source)
open Markup.Source (IsName Node)

theorem isName_name : IsName "name" := ⟨by decide, by decide⟩

theorem isName_xmlns : IsName "xmlns" := ⟨by decide, by decide⟩

theorem isName_root : IsName "ThemeSyntaxDefinition" := ⟨by decide, by decide⟩

/-! ## What is allowed -/

/-- A value that is absent, blank or accepted by `parse`. -/
def IsOptional {α ε : Type} (parse : String → Except ε α) (value : Option String) : Prop :=
  ∀ v, value = some v → Text.isAllBlank v = false → ∃ a, parse v = .ok a

variable [Markup.Decoders] (charset : Charset) (strict : Bool) (n : Node)

/-- A colour. -/
structure IsColor : Prop where
  name : ∃ name, n.tag.value? charset "name" = some name ∧ name ≠ "" ∧ name.contains '/' = false
  foreground : IsOptional Brush.parse (n.tag.value? charset "foreground")
  background : IsOptional Brush.parse (n.tag.value? charset "background")
  underline : IsOptional Underline.parse (n.tag.value? charset "underline")
  fontWeight : IsOptional FontWeight.parse (n.tag.value? charset "fontWeight")
  fontStyle : IsOptional FontStyle.parse (n.tag.value? charset "fontStyle")
  childless : n.children = []
  known : strict = true → n.tag.Knows Reader.colorKeys
  textFree : strict = true → n.isTextFree = true

/-- A colour set. -/
structure IsColorSet : Prop where
  colors : ∀ c ∈ n.children, c.localName = "Color" ∧ IsColor charset strict c
  named : strict = true → n.tag.value? charset "name" ≠ none
  known : strict = true → n.tag.Knows Reader.setKeys
  textFree : strict = true → n.isTextFree = true

/-- A property. -/
structure IsProperty : Prop where
  childless : n.children = []
  named : strict = true → n.tag.value? charset "name" ≠ none
  known : strict = true → n.tag.Knows Reader.propertyKeys
  textFree : strict = true → n.isTextFree = true

/-- A global style, which may have any name unless the schema is enforced. -/
structure IsStyle : Prop where
  foreground : IsOptional Brush.parse (n.tag.value? charset "foreground")
  background : IsOptional Brush.parse (n.tag.value? charset "background")
  border : IsOptional Brush.parse (n.tag.value? charset "border")
  childless : n.children = []
  supported : strict = true → StyleKind.ofName? n.localName ≠ none
  known : strict = true → n.tag.Knows Reader.styleKeys
  textFree : strict = true → n.isTextFree = true

/-- A group of global styles. -/
structure IsStyles : Prop where
  styles : ∀ c ∈ n.children, IsStyle charset strict c
  known : strict = true → n.tag.Knows []
  textFree : strict = true → n.isTextFree = true

/-- A child of the root. -/
inductive IsChild : Prop
  | colorSet (name : n.localName = Cause.setName) (h : IsColorSet charset strict n)
  | property (name : n.localName = "Property") (h : IsProperty charset strict n)
  | styles (name : n.localName = "GlobalStyles") (h : IsStyles charset strict n)

/-- An overlay, given by its root. -/
structure IsRoot : Prop where
  name : n.localName = Cause.rootName
  children : ∀ c ∈ n.children, IsChild charset strict c
  named : strict = true → n.tag.value? charset "name" ≠ none
  known : strict = true → n.tag.Knows Reader.rootKeys
  textFree : strict = true → n.isTextFree = true

/-! ## What is declared -/

/-- The value that stands for an absent, blank or accepted one: what `parse` gives, if anything. -/
def optionalValue {α ε : Type} (parse : String → Except ε α) (value : Option String) : Option α :=
  value.bind fun v => if Text.isAllBlank v = true then none else (parse v).toOption

variable (input : Bytes)

/-- The position of the element `n` in the text `input`. -/
def position : Option Position := some (.ofMarkup input n.offset)

def colorOf : ColorDeclaration where
  name := (n.tag.value? charset "name").getD ""
  foreground := optionalValue Brush.parse (n.tag.value? charset "foreground")
  background := optionalValue Brush.parse (n.tag.value? charset "background")
  underline := optionalValue Underline.parse (n.tag.value? charset "underline")
  fontWeight := optionalValue FontWeight.parse (n.tag.value? charset "fontWeight")
  fontStyle := optionalValue FontStyle.parse (n.tag.value? charset "fontStyle")
  exampleText := n.tag.value? charset "exampleText"
  position := position n input

def colorSetOf : SetDeclaration where
  name := (n.tag.value? charset "name").getD ""
  extensions := ((n.tag.value? charset "extensions").map Extension.split).getD []
  colors := n.children.map (colorOf charset · input)
  position := position n input

def propertyOf : PropertyDeclaration where
  name := (n.tag.value? charset "name").getD ""
  value := (n.tag.value? charset "value").getD ""
  position := position n input

def styleOf : StyleDeclaration where
  typeName := n.localName
  foreground := optionalValue Brush.parse (n.tag.value? charset "foreground")
  background := optionalValue Brush.parse (n.tag.value? charset "background")
  border := optionalValue Brush.parse (n.tag.value? charset "border")
  position := position n input

/-- The declarations of the child `n` of the root: a group of styles declares each of them. -/
def declarationsOf : List Declaration :=
  if n.localName = Cause.setName then [.colorSet (colorSetOf charset n input)]
  else if n.localName = "Property" then [.property (propertyOf charset n input)]
  else n.children.map fun c => .globalStyle (styleOf charset c input)

def documentOf : Document where
  name := (n.tag.value? charset "name").getD ""
  declarations := n.children.flatMap (declarationsOf charset · input)

end Overlay

namespace Markup.Source

/-- The source `s` is that of an overlay, for its root `IsRoot`. -/
def IsOverlay [Decoders] (s : Source) (strict : Bool) : Prop :=
  Overlay.IsRoot s.charset strict s.node

/-- The document that the source `s` declares. -/
def document [Decoders] (s : Source) : Overlay.Document :=
  Overlay.documentOf s.charset s.node s.bytes

end Markup.Source

end Livery
