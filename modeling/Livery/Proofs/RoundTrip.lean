import Livery.Libraries
import Livery.Proofs.Acceptance
import Livery.Proofs.Layout
import Livery.Proofs.Literals

/-!
# Written overlays read back

* `Document.source`: the source of a written document.
* `Document.read_write`: a document is read back from its text, up to positions, whether or not the
  schema is enforced.

Only what the format restricts is assumed (`Document.IsTellable`): an empty colour name would be
refused, and an extension with `;` inside would come back as two.
-/

namespace Livery

/-- Lists that agree under the maps `f` and `g` agree under `p` and `q`, if elements do. -/
theorem map_eq_of_map_eq {α β γ δ : Type} {f : α → γ} {g : β → γ} {p : α → δ} {q : β → δ}
    {as : List α} {bs : List β} (h : as.map f = bs.map g)
    (hpq : ∀ b ∈ bs, ∀ a, f a = g b → p a = q b) : as.map p = bs.map q := by
  induction bs generalizing as with
  | nil => rw [List.map_eq_nil_iff.1 h]; rfl
  | cons b bs ih =>
    obtain ⟨a, as, rfl, hab, h⟩ := List.map_eq_cons_iff.1 h
    rw [List.forall_mem_cons] at hpq
    rw [List.map_cons, List.map_cons, hpq.1 a hab, ih h hpq.2]

theorem exists_of_map_eq {α β γ : Type} {f : α → γ} {g : β → γ} {as : List α} {bs : List β}
    (h : as.map f = bs.map g) {a : α} (ha : a ∈ as) : ∃ b ∈ bs, f a = g b := by
  have hmem : f a ∈ bs.map g := h ▸ List.mem_map_of_mem ha
  obtain ⟨b, hb, heq⟩ := List.mem_map.1 hmem
  exact ⟨b, hb, heq.symm⟩

namespace Overlay

open Markup.Source (Branch Field Forest Node Word fieldsText no_blanks tagOf word)

/-! ## The source of a document -/

@[simp] theorem fieldOf_some (key value : String) : fieldOf key id (some value) = field key value :=
  rfl

@[simp] theorem fieldOf_map {α : Type} (key : String) (text : α → String) (value : Option α) :
    fieldOf key id (value.map text) = fieldOf key text value := by
  cases value <;> rfl

def ColorDeclaration.fields (d : ColorDeclaration) : List Field :=
  [(word "name" isName_name.nonempty isName_name.named, some d.name),
   (word "foreground", d.foreground.map Brush.text),
   (word "background", d.background.map Brush.text),
   (word "fontWeight", d.fontWeight.map FontWeight.name),
   (word "fontStyle", d.fontStyle.map FontStyle.name),
   (word "underline", d.underline.map Underline.text), (word "exampleText", d.exampleText)]

/-- The extensions of `d` as a field, which an empty list leaves unset. -/
def SetDeclaration.listed (d : SetDeclaration) : Option (List String) :=
  if d.extensions = [] then none else d.extensions

def SetDeclaration.fields (d : SetDeclaration) : List Field :=
  [(word "name" isName_name.nonempty isName_name.named, some d.name),
   (word "extensions", d.listed.map Extension.join)]

def StyleDeclaration.fields (d : StyleDeclaration) : List Field :=
  [(word "foreground", d.foreground.map Brush.text),
   (word "background", d.background.map Brush.text), (word "border", d.border.map Brush.text)]

def PropertyDeclaration.fields (d : PropertyDeclaration) : List Field :=
  [(word "name" isName_name.nonempty isName_name.named, some d.name), (word "value", some d.value)]

def Document.fields (d : Document) : List Field :=
  [(word "name" isName_name.nonempty isName_name.named, some d.name)]

/-- The type name of `kind` as the name of an element. -/
def styleWord (kind : StyleKind) : Word where
  text := kind.name
  nonempty := by cases kind <;> decide
  named := by cases kind <;> decide
  plain := by cases kind <;> decide

/-- The name of the element of the style `d`, which is its type name if that is supported. -/
def StyleDeclaration.element (d : StyleDeclaration) : Word :=
  styleWord ((StyleKind.ofName? d.typeName).getD .defaultStyle)

def ColorDeclaration.branch (d : ColorDeclaration) : Branch := ⟨tagOf (word "Color") d.fields, none⟩

def SetDeclaration.branch (d : SetDeclaration) : Branch :=
  ⟨tagOf (word "SyntaxDefinition") d.fields,
    some (.ofBranches (d.colors.map ColorDeclaration.branch))⟩

def StyleDeclaration.inner (d : StyleDeclaration) : Branch := ⟨tagOf d.element d.fields, none⟩

def StyleDeclaration.branch (d : StyleDeclaration) : Branch :=
  ⟨tagOf (word "GlobalStyles") [], some (.ofBranches [d.inner])⟩

def PropertyDeclaration.branch (d : PropertyDeclaration) : Branch :=
  ⟨tagOf (word "Property") d.fields, none⟩

def Declaration.branch : Declaration → Branch
  | .colorSet d => d.branch
  | .globalStyle d => d.branch
  | .property d => d.branch

/-- The `Source` of a written document. -/
def Document.source (d : Document) : Markup.Source where
  root := tagOf (word "ThemeSyntaxDefinition" isName_root.nonempty isName_root.named)
    ((word "xmlns" isName_xmlns.nonempty isName_xmlns.named, some themeNamespace) :: d.fields)
  content := some (.ofBranches (d.declarations.map Declaration.branch), ⟨[], no_blanks⟩)

/-! ## What can be told in the text -/

/-- Colour names are not empty and have no slash, extensions are entries of a list as
`Extension.IsEntry` says, and every style has a kind. All other texts are arbitrary. -/
structure Document.IsTellable (d : Document) : Prop where
  colors : ∀ s ∈ d.colorSets, ∀ c ∈ s.colors, c.name ≠ "" ∧ c.name.contains '/' = false
  extensions : ∀ s ∈ d.colorSets, ∀ e ∈ s.extensions, Extension.IsEntry e
  styles : ∀ s ∈ d.globalStyles, StyleKind.ofName? s.typeName ≠ none

/-- What `Document.IsTellable` says, for one declaration. -/
def Declaration.IsTellable : Declaration → Prop
  | .colorSet s => (∀ c ∈ s.colors, c.name ≠ "" ∧ c.name.contains '/' = false) ∧
      ∀ e ∈ s.extensions, Extension.IsEntry e
  | .globalStyle s => StyleKind.ofName? s.typeName ≠ none
  | .property _ => True

theorem Document.IsTellable.declaration {d : Document} (h : d.IsTellable) :
    ∀ e ∈ d.declarations, e.IsTellable := by
  intro e he
  cases e with
  | colorSet s =>
    have hs : s ∈ d.colorSets := List.mem_filterMap.2 ⟨_, he, rfl⟩
    exact ⟨h.colors s hs, h.extensions s hs⟩
  | globalStyle s => exact h.styles s (List.mem_filterMap.2 ⟨_, he, rfl⟩)
  | property p => trivial

theorem StyleDeclaration.text_element {d : StyleDeclaration}
    (h : StyleKind.ofName? d.typeName ≠ none) : d.element.text = d.typeName := by
  obtain ⟨kind, hkind⟩ := Option.ne_none_iff_exists'.1 h
  have hname : kind.name = d.typeName := by
    simpa using List.find?_some hkind
  rw [element, hkind]
  exact hname

/-! ## The text is that of the source -/

theorem ColorDeclaration.encode_write (d : ColorDeclaration) :
    Text.Utf8.encode d.write = d.branch.written := by
  have htext : d.write = emptyElement (word "Color").text (fieldsText d.fields) := by
    simp [write, fieldsText, fields, word, String.append_assoc]
  rw [htext, Markup.Source.encode_emptyElement]
  rfl

theorem PropertyDeclaration.encode_write (d : PropertyDeclaration) :
    Text.Utf8.encode d.write = d.branch.written := by
  have htext : d.write = emptyElement (word "Property").text (fieldsText d.fields) := by
    simp [write, fieldsText, fields, word]
  rw [htext, Markup.Source.encode_emptyElement]
  rfl

/-- Elements in a row are written one after the other. -/
theorem encode_join_map {α : Type} {write : α → String} {branch : α → Branch} {as : List α}
    (h : ∀ a ∈ as, Text.Utf8.encode (write a) = (branch a).written) :
    Text.Utf8.encode (String.join (as.map write)) =
      (Forest.ofBranches (as.map branch)).written := by
  rw [Text.Utf8.encode_join, Forest.written_ofBranches, List.flatMap_map, List.flatMap_map,
    List.flatMap_def, List.flatMap_def, List.map_congr_left h]

theorem SetDeclaration.encode_write (d : SetDeclaration) :
    Text.Utf8.encode d.write = d.branch.written := by
  have htext : d.write = elementAround (word "SyntaxDefinition").text (fieldsText d.fields)
      (String.join (d.colors.map ColorDeclaration.write)) := by
    simp [write, fieldsText, fields, word, listed]
  rw [htext, Markup.Source.encode_elementAround,
    encode_join_map fun c _ => ColorDeclaration.encode_write c]
  rfl

theorem StyleDeclaration.encode_write {d : StyleDeclaration}
    (h : StyleKind.ofName? d.typeName ≠ none) : Text.Utf8.encode d.write = d.branch.written := by
  have hinner : Text.Utf8.encode (emptyElement d.element.text (fieldsText d.fields)) =
      d.inner.written := Markup.Source.encode_emptyElement _ _
  have htext : d.write = elementAround (word "GlobalStyles").text (fieldsText [])
      (emptyElement d.element.text (fieldsText d.fields)) := by
    simp [write, fieldsText, fields, word, text_element h, String.append_assoc]
  rw [htext, Markup.Source.encode_elementAround, hinner]
  simp [branch, Branch.written, Forest.written_ofBranches]

theorem Declaration.encode_write {d : Declaration} (h : d.IsTellable) :
    Text.Utf8.encode d.write = d.branch.written := by
  cases d with
  | colorSet s => exact s.encode_write
  | globalStyle s => exact StyleDeclaration.encode_write h
  | property p => exact p.encode_write

/-- **The text of a document is that of its source.** -/
theorem Document.encode_write {d : Document} (h : d.IsTellable) :
    Text.Utf8.encode d.write = d.source.bytes := by
  have htext : d.write = elementAround (word "ThemeSyntaxDefinition").text
      (fieldsText ((word "xmlns", some themeNamespace) :: d.fields))
      (String.join (d.declarations.map Declaration.write)) := by
    simp [write, fieldsText, fields, word]
  rw [htext, Markup.Source.encode_elementAround,
    encode_join_map fun e he => Declaration.encode_write (h.declaration e he)]
  simp [Markup.Source.bytes, Markup.Source.markup, Markup.Source.Prolog.written,
    Markup.Source.body, source]

/-! ## The source is regular -/

/-- The `fields` of an element have the keys that it may have, in order. -/
structure HasKeys (fields : List Field) (keys : List String) : Prop where
  eq : fields.map (·.1.text) = keys
  distinct : keys.Nodup
  plain : "xmlns" ∉ keys

namespace HasKeys

variable {fields : List Field} {keys : List String} (h : HasKeys fields keys) (w : Word)
include h

theorem regular [Markup.Decoders] : (tagOf w fields).Regular .utf8 Markup.Source.themeScope
    Markup.Source.themeScope :=
  Markup.Source.regular_tagOf w (h.eq ▸ h.distinct) (h.eq ▸ h.plain)

theorem knows : (tagOf w fields).Knows keys :=
  Markup.Source.knows_tagOf w fun _ htext _ => h.eq ▸ htext

/-- A node with the tag of `fields` has the value of each field. -/
theorem value [Markup.Decoders] {n : Node} (htag : n.tag = tagOf w fields) (key : Word)
    {value : Option String}
    (hmem : (key, value) ∈ fields) : n.tag.value? .utf8 key.text = value := by
  have hkey : key.text ∈ keys := h.eq ▸ List.mem_map.2 ⟨_, hmem, rfl⟩
  rw [htag]
  exact Markup.Source.value?_tagOf w (h.eq ▸ h.distinct) (fun heq => h.plain (heq ▸ hkey)) hmem

theorem leaf [Markup.Decoders] : (Branch.mk (tagOf w fields) none).Themed where
  tag := h.regular w
  inner := by rintro f ⟨⟩

theorem row [Markup.Decoders] {bs : List Branch} (hbs : ∀ b ∈ bs, b.Themed) :
    (Branch.mk (tagOf w fields) (some (.ofBranches bs))).Themed where
  tag := h.regular w
  inner := by
    rintro f ⟨⟩
    exact Forest.regular_ofBranches hbs

end HasKeys

theorem ColorDeclaration.hasKeys (d : ColorDeclaration) : HasKeys d.fields Reader.colorKeys :=
  ⟨rfl, by decide, by decide⟩

theorem SetDeclaration.hasKeys (d : SetDeclaration) : HasKeys d.fields Reader.setKeys :=
  ⟨rfl, by decide, by decide⟩

theorem StyleDeclaration.hasKeys (d : StyleDeclaration) : HasKeys d.fields Reader.styleKeys :=
  ⟨rfl, by decide, by decide⟩

theorem PropertyDeclaration.hasKeys (d : PropertyDeclaration) :
    HasKeys d.fields Reader.propertyKeys :=
  ⟨rfl, by decide, by decide⟩

theorem hasKeys_nil : HasKeys [] [] := ⟨rfl, by decide, by decide⟩

theorem Declaration.themed [Markup.Decoders] (d : Declaration) : d.branch.Themed := by
  cases d with
  | colorSet s =>
    refine s.hasKeys.row _ fun b hb => ?_
    obtain ⟨c, -, rfl⟩ := List.mem_map.1 hb
    exact c.hasKeys.leaf _
  | globalStyle s =>
    refine hasKeys_nil.row _ fun b hb => ?_
    obtain rfl := List.mem_singleton.1 hb
    exact s.hasKeys.leaf _
  | property p => exact p.hasKeys.leaf _

theorem Document.regular [Markup.Decoders] (d : Document) : d.source.Regular := by
  refine ⟨_, Markup.Source.regular_declaring _ rfl (by decide : Reader.rootKeys.Nodup)
    (by decide : "xmlns" ∉ Reader.rootKeys), ?_⟩
  rintro c ⟨⟩
  refine Forest.regular_ofBranches fun b hb => ?_
  obtain ⟨e, -, rfl⟩ := List.mem_map.1 hb
  exact e.themed

/-! ## The source is that of an overlay -/

section Nodes

variable {n : Node} (strict : Bool) (input : Bytes)

/-- The element of the colour `d` is one, and stands for `d`. -/
theorem ColorDeclaration.reads [Markup.Decoders] {d : ColorDeclaration}
    (hbranch : n.branch = d.branch) (h : d.name ≠ "" ∧ d.name.contains '/' = false) :
    IsColor .utf8 strict n ∧
      { colorOf .utf8 n input with position := none } = { d with position := none } := by
  obtain ⟨htag, hleaf, htext⟩ := Node.leaf_of_branch hbranch
  have hvalue := @(d.hasKeys.value _ htag)
  have hname : n.tag.value? .utf8 "name" = some d.name := hvalue (word "name") (by simp [fields])
  have hforeground : n.tag.value? .utf8 "foreground" = d.foreground.map Brush.text :=
    hvalue (word "foreground") (by simp [fields])
  have hbackground : n.tag.value? .utf8 "background" = d.background.map Brush.text :=
    hvalue (word "background") (by simp [fields])
  have hweight : n.tag.value? .utf8 "fontWeight" = d.fontWeight.map FontWeight.name :=
    hvalue (word "fontWeight") (by simp [fields])
  have hstyle : n.tag.value? .utf8 "fontStyle" = d.fontStyle.map FontStyle.name :=
    hvalue (word "fontStyle") (by simp [fields])
  have hunderline : n.tag.value? .utf8 "underline" = d.underline.map Underline.text :=
    hvalue (word "underline") (by simp [fields])
  have hexample : n.tag.value? .utf8 "exampleText" = d.exampleText :=
    hvalue (word "exampleText") (by simp [fields])
  constructor
  · exact
      { name := ⟨d.name, hname, h⟩
        foreground := hforeground ▸ Brush.isLiteral.isOptional _
        background := hbackground ▸ Brush.isLiteral.isOptional _
        underline := hunderline ▸ Underline.isLiteral.isOptional _
        fontWeight := hweight ▸ FontWeight.isLiteral.isOptional _
        fontStyle := hstyle ▸ FontStyle.isLiteral.isOptional _
        childless := hleaf
        known := fun _ => htag ▸ d.hasKeys.knows _
        textFree := fun _ => htext }
  · simp only [colorOf, hname, hforeground, hbackground, hweight, hstyle, hunderline, hexample,
      Option.getD_some, Brush.isLiteral.optionalValue, Underline.isLiteral.optionalValue,
      FontWeight.isLiteral.optionalValue, FontStyle.isLiteral.optionalValue]

/-- The list of extensions is read whether or not it is written. -/
theorem SetDeclaration.split_listed {d : SetDeclaration}
    (h : ∀ e ∈ d.extensions, Extension.IsEntry e) :
    ((d.listed.map Extension.join).map Extension.split).getD [] = d.extensions := by
  by_cases hnil : d.extensions = []
  · simp [listed, hnil]
  · simp [listed, hnil, Extension.split_join h]

/-- The element of the set `d` is one, and stands for `d`. -/
theorem SetDeclaration.reads [Markup.Decoders] {d : SetDeclaration} (hbranch : n.branch = d.branch)
    (h : (Declaration.colorSet d).IsTellable) :
    IsColorSet .utf8 strict n ∧
      (Declaration.colorSet (colorSetOf .utf8 n input)).unplaced =
        (Declaration.colorSet d).unplaced := by
  obtain ⟨htag, hchildren, htext⟩ := Node.row_of_branch hbranch
  have hvalue := @(d.hasKeys.value _ htag)
  have hname : n.tag.value? .utf8 "name" = some d.name := hvalue (word "name") (by simp [fields])
  have hextensions : n.tag.value? .utf8 "extensions" = d.listed.map Extension.join :=
    hvalue (word "extensions") (by simp [fields])
  -- the colours of a set are compared without positions, as the set is
  have hcolors : (n.children.map (colorOf .utf8 · input)).map
      (fun c => { c with position := none }) =
        d.colors.map fun c => { c with position := none } := by
    rw [List.map_map]
    exact map_eq_of_map_eq hchildren fun c hc a ha => (c.reads strict input ha (h.1 c hc)).2
  constructor
  · refine ⟨fun c hc => ?_, fun _ => by simp [hname], fun _ => htag ▸ d.hasKeys.knows _,
      fun _ => htext⟩
    obtain ⟨e, he, heq⟩ := exists_of_map_eq hchildren hc
    refine ⟨?_, (e.reads strict input heq (h.1 e he)).1⟩
    rw [Node.localName, (Node.leaf_of_branch heq).1]
    exact Markup.Source.localName_tagOf _ _
  · simp only [Declaration.unplaced, colorSetOf, hname, hextensions, Option.getD_some, hcolors,
      split_listed h.2]

/-- The element of the property `d` is one, and stands for `d`. -/
theorem PropertyDeclaration.reads [Markup.Decoders] {d : PropertyDeclaration}
    (hbranch : n.branch = d.branch) :
    IsProperty .utf8 strict n ∧
      { propertyOf .utf8 n input with position := none } = { d with position := none } := by
  obtain ⟨htag, hleaf, htext⟩ := Node.leaf_of_branch hbranch
  have hvalue := @(d.hasKeys.value _ htag)
  have hname : n.tag.value? .utf8 "name" = some d.name := hvalue (word "name") (by simp [fields])
  have htext' : n.tag.value? .utf8 "value" = some d.value :=
    hvalue (word "value") (by simp [fields])
  constructor
  · exact ⟨hleaf, fun _ => by simp [hname], fun _ => htag ▸ d.hasKeys.knows _, fun _ => htext⟩
  · simp only [propertyOf, hname, htext', Option.getD_some]

/-- The element of the style `d` is one, and stands for `d`. -/
theorem StyleDeclaration.inner_reads [Markup.Decoders] {d : StyleDeclaration}
    (hbranch : n.branch = d.inner) (h : StyleKind.ofName? d.typeName ≠ none) :
    IsStyle .utf8 strict n ∧
      { styleOf .utf8 n input with position := none } = { d with position := none } := by
  obtain ⟨htag, hleaf, htext⟩ := Node.leaf_of_branch hbranch
  have hlocal : n.localName = d.typeName := by
    rw [Node.localName, htag, Markup.Source.localName_tagOf, text_element h]
  have hvalue := @(d.hasKeys.value _ htag)
  have hforeground : n.tag.value? .utf8 "foreground" = d.foreground.map Brush.text :=
    hvalue (word "foreground") (by simp [fields])
  have hbackground : n.tag.value? .utf8 "background" = d.background.map Brush.text :=
    hvalue (word "background") (by simp [fields])
  have hborder : n.tag.value? .utf8 "border" = d.border.map Brush.text :=
    hvalue (word "border") (by simp [fields])
  constructor
  · exact
      { foreground := hforeground ▸ Brush.isLiteral.isOptional _
        background := hbackground ▸ Brush.isLiteral.isOptional _
        border := hborder ▸ Brush.isLiteral.isOptional _
        childless := hleaf
        supported := fun _ => hlocal ▸ h
        known := fun _ => htag ▸ d.hasKeys.knows _
        textFree := fun _ => htext }
  · simp only [styleOf, hlocal, hforeground, hbackground, hborder, Brush.isLiteral.optionalValue]

/-- The group around the style `d` is one, and declares it. -/
theorem StyleDeclaration.reads [Markup.Decoders] {d : StyleDeclaration}
    (hbranch : n.branch = d.branch) (h : StyleKind.ofName? d.typeName ≠ none) :
    IsStyles .utf8 strict n ∧
      n.children.map (fun c => { styleOf .utf8 c input with position := none }) =
        [{ d with position := none }] := by
  obtain ⟨htag, hchildren, htext⟩ := Node.row_of_branch hbranch
  obtain ⟨c, cs, hcons, hc, hnil⟩ := List.map_eq_cons_iff.1 hchildren
  obtain rfl := List.map_eq_nil_iff.1 hnil
  obtain ⟨hstyle, heq⟩ := StyleDeclaration.inner_reads strict input hc h
  constructor
  · refine ⟨fun e he => ?_, fun _ => htag ▸ hasKeys_nil.knows _, fun _ => htext⟩
    rw [hcons] at he
    obtain rfl := List.mem_singleton.1 he
    exact hstyle
  · rw [hcons, List.map_singleton, heq]

/-- The element of the declaration `d` may stand in an overlay, and declares just `d`. -/
theorem Declaration.reads [Markup.Decoders] {d : Declaration} (hbranch : n.branch = d.branch)
    (h : d.IsTellable) :
    IsChild .utf8 strict n ∧
      (declarationsOf .utf8 n input).map Declaration.unplaced = [d.unplaced] := by
  have hlocal {w : Word} {fields : List Field} (htag : n.tag = tagOf w fields) :
      n.localName = w.text := by
    rw [Node.localName, htag, Markup.Source.localName_tagOf]
  -- the name of the element decides how it is read
  cases d with
  | colorSet s =>
    have hset : n.localName = Cause.setName := hlocal (Node.row_of_branch hbranch).1
    obtain ⟨hs, heq⟩ := SetDeclaration.reads strict input hbranch h
    exact ⟨.colorSet hset hs, by rw [declarationsOf, if_pos hset, List.map_singleton, heq]⟩
  | property p =>
    have hproperty : n.localName = "Property" := hlocal (Node.leaf_of_branch hbranch).1
    have hset : n.localName ≠ Cause.setName := by rw [hproperty]; decide
    obtain ⟨hp, heq⟩ := PropertyDeclaration.reads strict input hbranch
    refine ⟨.property hproperty hp, ?_⟩
    rw [declarationsOf, if_neg hset, if_pos hproperty, List.map_singleton, unplaced, heq]
    rfl
  | globalStyle s =>
    have hstyles : n.localName = "GlobalStyles" := hlocal (Node.row_of_branch hbranch).1
    have hset : n.localName ≠ Cause.setName := by rw [hstyles]; decide
    have hproperty : n.localName ≠ "Property" := by rw [hstyles]; decide
    obtain ⟨hs, heq⟩ := StyleDeclaration.reads strict input hbranch h
    refine ⟨.styles hstyles hs, ?_⟩
    rw [declarationsOf, if_neg hset, if_neg hproperty, List.map_map]
    have hmap := congrArg (List.map Declaration.globalStyle) heq
    rw [List.map_map] at hmap
    exact hmap

end Nodes

namespace Document

variable {d : Document}

theorem row_source (d : Document) : d.source.node.tag = d.source.root ∧
    d.source.node.children.map Node.branch = d.declarations.map Declaration.branch ∧
      d.source.node.isTextFree = true :=
  Node.row_of_branch rfl

theorem name_source [Markup.Decoders] (d : Document) :
    d.source.node.tag.value? .utf8 "name" = some d.name :=
  @Markup.Source.value?_tagOf (word "name") _ _ _ _
    (by decide : ("xmlns" :: Reader.rootKeys).Nodup) (by decide) (by simp [fields])

/-- The `source` of a document is that of an overlay. -/
theorem isOverlay [Markup.Decoders] (h : d.IsTellable) (strict : Bool) :
    d.source.IsOverlay strict := by
  obtain ⟨htag, hchildren, htext⟩ := d.row_source
  refine ⟨?_, fun c hc => ?_, fun _ => ?_, fun _ => ?_, fun _ => htext⟩
  · rw [Node.localName, htag]
    exact Markup.Source.localName_tagOf _ _
  · obtain ⟨e, he, heq⟩ := exists_of_map_eq hchildren hc
    exact (Declaration.reads strict [] heq (h.declaration e he)).1
  · exact fun hnone => absurd (d.name_source.symm.trans hnone) (by simp)
  · exact Markup.Source.knows_tagOf _ fun text htext hne =>
      (List.mem_cons.1 htext).resolve_left hne

/-- The `source` of a document declares what the document does. -/
theorem document_source [Markup.Decoders] (h : d.IsTellable) :
    d.source.document.unplaced = d.unplaced := by
  obtain ⟨-, hchildren, -⟩ := d.row_source
  -- each child of the root declares exactly what was written as it
  have hdeclarations : (d.source.node.children.map fun c =>
      (declarationsOf .utf8 c d.source.bytes).map Declaration.unplaced) =
        d.declarations.map fun e => [e.unplaced] :=
    map_eq_of_map_eq hchildren fun e he c hc =>
      (Declaration.reads true d.source.bytes hc (h.declaration e he)).2
  have hflat : (d.source.node.children.flatMap
      (declarationsOf .utf8 · d.source.bytes)).map Declaration.unplaced =
        d.declarations.map Declaration.unplaced := by
    rw [List.map_flatMap, List.flatMap_def, hdeclarations, ← List.flatMap_def]
    exact List.map_eq_flatMap.symm
  have hname : (d.source.node.tag.value? .utf8 "name").getD "" = d.name := by
    rw [d.name_source, Option.getD_some]
  show Document.mk ((d.source.node.tag.value? .utf8 "name").getD "")
    ((d.source.node.children.flatMap (declarationsOf .utf8 · d.source.bytes)).map
      Declaration.unplaced) = _
  rw [hname, hflat]
  rfl

/-- The text of a document is read as the document of its `source`. -/
theorem readText_write [Markup.Decoders] (h : d.IsTellable) (strict : Bool) :
    readText d.write strict = .ok d.source.document := by
  rw [readText, encode_write h, read_bytes]
  exact (root_source_ok_iff d.source d.regular strict _).2 ⟨isOverlay h strict, rfl⟩

/-- **A written document is read back**, up to positions, whether or not the schema is enforced. -/
theorem read_write [Markup.Decoders] (d : Document) (h : d.IsTellable) (strict : Bool) :
    ∃ e, readText d.write strict = .ok e ∧ e.unplaced = d.unplaced :=
  ⟨d.source.document, readText_write h strict, document_source h⟩

/-- A document with markup in its texts. -/
def dusk : Document where
  name := "Dusk & <Dawn>"
  declarations :=
    [.globalStyle { typeName := "Selection", border := some (.system .highlight) },
     .colorSet
      { name := "C#"
        extensions := [".cs", "Make file"]
        colors := [{ name := "\"String\"", foreground := some (.fixed ⟨0x80, 0xFF, 0, 0⟩),
                     underline := some false, exampleText := some " 'a' > \"b\" " }] },
     .property { name := "", value := "&amp; ☾" }]

theorem dusk_isTellable : dusk.IsTellable where
  colors := by
    intro s hs c hc
    obtain rfl := List.mem_singleton.1 hs
    obtain rfl := List.mem_singleton.1 hc
    exact ⟨by decide, by simp⟩
  extensions := by
    intro s hs e he
    obtain rfl := List.mem_singleton.1 hs
    simp only [List.mem_cons, List.not_mem_nil, or_false] at he
    rcases he with rfl | rfl
    · exact ⟨by decide, by decide, by decide⟩
    · exact ⟨by decide, by decide, by decide⟩
  styles := by
    intro s hs
    obtain rfl := List.mem_singleton.1 hs
    decide

/-- The document `dusk` is read back under the schema. -/
theorem read_write_dusk : dusk.IsTellable ∧
    ∃ e, readText dusk.write true = .ok e ∧ e.unplaced = dusk.unplaced :=
  ⟨dusk_isTellable, read_write dusk dusk_isTellable true⟩

end Document

end Overlay

end Livery
