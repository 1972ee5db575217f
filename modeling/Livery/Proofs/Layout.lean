import Livery.Overlay.Writing
import Livery.Proofs.Attributes
import Livery.Proofs.Format
import Livery.Proofs.ReadBack

/-!
# The sources of written markup

Markup is written with one space before each attribute, in double quotes and escaped, and without
anything between elements. It has a `Source`: tags from names and fields (`tagOf`), and elements in
a row (`Forest.ofBranches`).

* `encode_emptyElement`, `encode_elementAround`: what is written are the bytes of the source.
* `value?_tagOf`, `regular_tagOf`, `nodes_ofBranches`: the source has the values and elements that
  it was made from.
-/

namespace Livery

namespace Text.Utf8

theorem encode_injective {s t : String} (h : encode s = encode t) : s = t := by
  rw [← decodeLossy_encode s, h, decodeLossy_encode]

theorem encode_join (ss : List String) : encode (String.join ss) = ss.flatMap encode := by
  induction ss with
  | nil => rfl
  | cons s ss ih => rw [String.join_cons, encode_append, ih, List.flatMap_cons]

end Text.Utf8

namespace Markup.Source

open Overlay (field fieldOf emptyElement elementAround)

/-! ## Tags -/

/-- A name without a prefix. -/
structure Word where
  text : String
  nonempty : Text.Utf8.encode text ≠ []
  named : (Text.Utf8.encode text).all isNameByte = true
  plain : 0x3A ∉ Text.Utf8.encode text

/-- The name `text` as a `Word`. -/
def word (text : String) (nonempty : Text.Utf8.encode text ≠ [] := by decide)
    (named : (Text.Utf8.encode text).all isNameByte = true := by decide)
    (plain : 0x3A ∉ Text.Utf8.encode text := by decide) : Word :=
  ⟨text, nonempty, named, plain⟩

def Word.name (w : Word) : Name := ⟨Text.Utf8.encode w.text, w.nonempty, w.named⟩

/-- A field with its value, if it is set. -/
abbrev Field := Word × Option String

/-- The attribute of a field that is set, with its value escaped. -/
def assignment (key : Word) (value : String) : Assignment where
  space := ⟨[0x20], one_blank⟩
  key := key.name
  value := Text.Utf8.encode (escape value)
  spaced := Assignment.one_blank_ne_nil
  quotes := Assignment.double_quote
  closes := quote_not_mem_escape value

/-- The attributes of those of `fields` that are set. -/
def assignments (fields : List Field) : List Assignment :=
  fields.flatMap fun f => f.2.toList.map (assignment f.1)

/-- The tag called `w` with the attributes of `fields`. -/
def tagOf (w : Word) (fields : List Field) : Tag :=
  { name := w.name, assignments := assignments fields }

/-- The text of `fields`, as `Document.write` has it in a tag. -/
def fieldsText (fields : List Field) : String :=
  String.join (fields.map fun f => fieldOf f.1.text id f.2)

theorem encode_field (key : Word) (value : String) :
    Text.Utf8.encode (field key.text value) = (assignment key value).written := by
  have hspace : Text.Utf8.encode " " = [0x20] := rfl
  have hopen : Text.Utf8.encode "=\"" = [0x3D, 0x22] := rfl
  have hclose : Text.Utf8.encode "\"" = [0x22] := rfl
  simp [field, Text.Utf8.encode_append, hspace, hopen, hclose, Assignment.written, assignment,
    Word.name]

theorem encode_fieldsText (fields : List Field) :
    Text.Utf8.encode (fieldsText fields) = (assignments fields).flatMap Assignment.written := by
  rw [fieldsText, Text.Utf8.encode_join, assignments, List.flatMap_map, List.flatMap_assoc]
  congr 1
  funext ⟨key, value⟩
  cases value with
  | none => rfl
  | some v => simp [fieldOf, encode_field]

/-- `emptyElement` writes an element without content as its tag. -/
theorem encode_emptyElement (w : Word) (fields : List Field) :
    Text.Utf8.encode (emptyElement w.text (fieldsText fields)) =
      (Lexeme.emptyTag (tagOf w fields).tag).written := by
  have hopen : Text.Utf8.encode "<" = [0x3C] := rfl
  have hclose : Text.Utf8.encode "/>" = [0x2F, 0x3E] := rfl
  simp [emptyElement, Text.Utf8.encode_append, hopen, hclose, encode_fieldsText, Lexeme.written,
    Tag.tag, tagOf, Word.name]

/-- `elementAround` writes an element as its tags around what its `content` is written as. -/
theorem encode_elementAround (w : Word) (fields : List Field) (content : String) :
    Text.Utf8.encode (elementAround w.text (fieldsText fields) content) =
      (Lexeme.startTag (tagOf w fields).tag).written ++ (Text.Utf8.encode content ++
        ((tagOf w fields).endTag ⟨[], no_blanks⟩).written) := by
  have hopen : Text.Utf8.encode "<" = [0x3C] := rfl
  have hclose : Text.Utf8.encode ">" = [0x3E] := rfl
  have hend : Text.Utf8.encode "</" = [0x3C, 0x2F] := rfl
  simp [elementAround, Text.Utf8.encode_append, hopen, hclose, hend, encode_fieldsText,
    Lexeme.written, Tag.tag, Tag.endTag, tagOf, Word.name]

theorem localName_tagOf (w : Word) (fields : List Field) :
    (tagOf w fields).tag.localName = w.text := by
  simp [Markup.Tag.localName, localPart, tagOf, Tag.tag, Word.name, w.plain,
    Text.Utf8.decodeLossy_encode]

/-! ## Fields -/

section Fields

variable {key : Word} {value : Option String} {fields : List Field} {text : String}

theorem keyText_assignment (key : Word) (text : String) :
    (assignment key text).keyText = key.text := by
  rw [Assignment.keyText]
  exact Text.Utf8.decodeLossy_encode key.text

theorem xmlns_iff (key : Word) :
    Text.Utf8.encode key.text = xmlnsPrefix ↔ key.text = "xmlns" := by
  have hxmlns : Text.Utf8.encode "xmlns" = xmlnsPrefix := rfl
  rw [← hxmlns]
  exact ⟨Text.Utf8.encode_injective, fun h => congrArg _ h⟩

theorem isPlain_assignment_iff :
    (assignment key text).isPlain = true ↔ key.text ≠ "xmlns" := by
  simp [Assignment.isPlain, assignment, Word.name, key.plain, xmlns_iff]

/-- The value of an attribute is the text that was escaped. -/
theorem value?_assignment [Decoders] (key : Word) (text : String) :
    (assignment key text).value? .utf8 = some text := by
  simp [Assignment.value?, assignment, Charset.decode?, Text.Utf8.decode?_encode,
    unescape_escape, Except.toOption]

theorem mem_assignments {a : Assignment} : a ∈ assignments fields ↔
    ∃ key text, (key, some text) ∈ fields ∧ a = assignment key text := by
  simp only [assignments, List.mem_flatMap, List.mem_map, Option.mem_toList]
  constructor
  · rintro ⟨⟨key, value⟩, hf, text, rfl, rfl⟩
    exact ⟨key, text, hf, rfl⟩
  · rintro ⟨key, text, hf, rfl⟩
    exact ⟨(key, some text), hf, text, rfl, rfl⟩

/-- What is not among `fields` is not among the `assignments`. -/
theorem find?_of_not_mem (h : text ∉ fields.map (·.1.text)) :
    ((assignments fields).find? fun a => a.isPlain && a.keyText == text) = none := by
  rw [List.find?_eq_none]
  intro a ha hfound
  obtain ⟨key, v, hf, rfl⟩ := mem_assignments.1 ha
  simp only [Bool.and_eq_true, beq_iff_eq, keyText_assignment] at hfound
  exact h (List.mem_map.2 ⟨_, hf, hfound.2⟩)

/-- **The tag of `tagOf` has the value of each field.** -/
theorem value?_tagOf [Decoders] (w : Word) (hkeys : (fields.map (·.1.text)).Nodup)
    (hplain : key.text ≠ "xmlns") (h : (key, value) ∈ fields) :
    (tagOf w fields).value? .utf8 key.text = value := by
  rw [Tag.value?, show (tagOf w fields).assignments = assignments fields from rfl]
  induction fields with
  | nil => exact absurd h List.not_mem_nil
  | cons f fields ih =>
    obtain ⟨hfresh, hkeys⟩ := List.nodup_cons.1 hkeys
    have hcons : assignments (f :: fields) =
        f.2.toList.map (assignment f.1) ++ assignments fields := List.flatMap_cons
    rw [hcons, List.find?_append]
    rcases List.mem_cons.1 h with rfl | h
    · cases value with
      | none => simp [find?_of_not_mem hfresh]
      | some v =>
        have hmatch : ((assignment key v).isPlain && (assignment key v).keyText == key.text) =
            true := by simp [isPlain_assignment_iff.2 hplain, keyText_assignment]
        simp only [Option.toList_some, List.map_cons, List.map_nil, List.find?_cons, hmatch,
          Option.some_or, Option.bind_some]
        exact value?_assignment key v
    · -- the field in front has another key
      have hne : f.1.text ≠ key.text := fun heq => hfresh (List.mem_map.2 ⟨_, h, heq.symm⟩)
      have hhead : ((f.2.toList.map (assignment f.1)).find? fun a =>
          a.isPlain && a.keyText == key.text) = none := by
        rw [List.find?_eq_none]
        intro a ha hfound
        obtain ⟨v, -, rfl⟩ := List.mem_map.1 ha
        simp only [Bool.and_eq_true, beq_iff_eq, keyText_assignment] at hfound
        exact hne hfound.2
      rw [hhead, Option.none_or]
      exact ih hkeys h

theorem knows_tagOf (w : Word) {keys : List String}
    (h : ∀ text ∈ fields.map (·.1.text), text ≠ "xmlns" → text ∈ keys) :
    (tagOf w fields).Knows keys := by
  intro a ha hplain
  obtain ⟨key, v, hf, rfl⟩ := mem_assignments.1 ha
  rw [keyText_assignment]
  exact h _ (List.mem_map.2 ⟨_, hf, rfl⟩) (isPlain_assignment_iff.1 hplain)

theorem keys_sublist (fields : List Field) :
    ((assignments fields).map (·.key.bytes)).Sublist
      ((fields.map (·.1.text)).map Text.Utf8.encode) := by
  induction fields with
  | nil => exact .slnil
  | cons f fields ih =>
    obtain ⟨key, value⟩ := f
    cases value with
    | none => exact ih.cons _
    | some v => exact ih.cons_cons _

theorem distinct_tagOf (w : Word) (hkeys : (fields.map (·.1.text)).Nodup) :
    ((tagOf w fields).assignments.map (·.key.bytes)).Nodup := by
  refine (keys_sublist fields).nodup (List.Pairwise.map Text.Utf8.encode ?_ hkeys)
  exact fun s t hne h => hne (Text.Utf8.encode_injective h)

theorem legible_tagOf [Decoders] (w : Word) (fields : List Field) :
    ∀ a ∈ (tagOf w fields).assignments, a.isPlain = true → ∃ v, a.value? .utf8 = some v := by
  intro a ha _
  obtain ⟨key, v, -, rfl⟩ := mem_assignments.1 ha
  exact ⟨v, value?_assignment key v⟩

end Fields

/-! ## Namespaces -/

/-- An attribute that declares no namespace leaves the scope, for its key is not `xmlns`. -/
theorem declare_assignment (scope : Scope) {key : Word} (h : key.text ≠ "xmlns") (text : String) :
    scope.declare (assignment key text).entry = .ok scope := by
  have hdefault : Text.Utf8.encode key.text ≠ xmlnsPrefix := fun hx => h ((xmlns_iff key).1 hx)
  have hcolon : (Text.Utf8.encode key.text).take 6 ≠ xmlnsPrefix ++ [0x3A] := by
    intro htake
    have hmem : (0x3A : UInt8) ∈ (Text.Utf8.encode key.text).take 6 := by simp [htake]
    exact key.plain (List.mem_of_mem_take hmem)
  have hprefix : declaredPrefix? (assignment key text).entry.key = none := by
    rw [declaredPrefix?, show (assignment key text).entry.key = Text.Utf8.encode key.text from rfl,
      if_neg hdefault, if_neg hcolon]
  rw [Scope.declare, hprefix]

theorem declare_assignments (scope : Scope) {as : List Assignment}
    (h : ∀ a ∈ as, ∃ key text, key.text ≠ "xmlns" ∧ a = assignment key text) :
    (as.map Assignment.entry).foldlM Scope.declare scope = .ok scope := by
  induction as with
  | nil => rfl
  | cons a as ih =>
    rw [List.forall_mem_cons] at h
    obtain ⟨⟨key, text, hkey, rfl⟩, h⟩ := h
    rw [List.map_cons, List.foldlM_cons, declare_assignment scope hkey]
    exact ih h

/-- The scope inside an element that puts its names into the `themeNamespace`. -/
def themeScope : Scope :=
  ⟨([], Text.Utf8.encode Overlay.themeNamespace) :: Scope.initial.bindings⟩

theorem declare_theme {key : Word} (h : key.text = "xmlns") :
    Scope.initial.declare (assignment key Overlay.themeNamespace).entry = .ok themeScope := by
  have hescape : escape Overlay.themeNamespace = Overlay.themeNamespace := by decide
  have hentry : (assignment key Overlay.themeNamespace).entry =
      ⟨xmlnsPrefix, Text.Utf8.encode Overlay.themeNamespace⟩ := by
    show Attribute.mk (Text.Utf8.encode key.text)
      (Text.Utf8.encode (escape Overlay.themeNamespace)) = _
    rw [(xmlns_iff key).2 h, hescape]
  rw [hentry]
  rfl

theorem namespace?_theme (w : Word) :
    themeScope.namespace? w.name.bytes = some (Text.Utf8.encode Overlay.themeNamespace) := by
  have hqualifier : qualifier? w.name.bytes = none := by simp [qualifier?, Word.name, w.plain]
  rw [Scope.namespace?, hqualifier]
  rfl

/-- A tag without declarations keeps the `themeScope`. -/
theorem regular_tagOf [Decoders] (w : Word) {fields : List Field}
    (hkeys : (fields.map (·.1.text)).Nodup) (h : "xmlns" ∉ fields.map (·.1.text)) :
    (tagOf w fields).Regular .utf8 themeScope themeScope where
  enter := by
    rw [Tag.enter_tag]
    refine declare_assignments themeScope fun a ha => ?_
    obtain ⟨key, v, hf, rfl⟩ := mem_assignments.1 ha
    exact ⟨key, v, fun heq => h (List.mem_map.2 ⟨_, hf, heq⟩), rfl⟩
  themed := namespace?_theme w
  distinct := distinct_tagOf w hkeys
  legible := legible_tagOf w fields

/-- A tag that begins with the declaration of the `themeNamespace` leads into it. -/
theorem regular_declaring [Decoders] (w : Word) {key : Word} {fields : List Field}
    (hkey : key.text = "xmlns")
    (hkeys : (fields.map (·.1.text)).Nodup) (h : "xmlns" ∉ fields.map (·.1.text)) :
    (tagOf w ((key, some Overlay.themeNamespace) :: fields)).Regular .utf8 .initial themeScope where
  enter := by
    rw [Tag.enter_tag]
    show (((assignment key Overlay.themeNamespace :: assignments fields).map
      Assignment.entry).foldlM Scope.declare Scope.initial) = _
    rw [List.map_cons, List.foldlM_cons, declare_theme hkey]
    refine declare_assignments themeScope fun a ha => ?_
    obtain ⟨key, v, hf, rfl⟩ := mem_assignments.1 ha
    exact ⟨key, v, fun heq => h (List.mem_map.2 ⟨_, hf, heq⟩), rfl⟩
  themed := namespace?_theme w
  distinct := by
    refine distinct_tagOf w (List.nodup_cons.2 ⟨?_, hkeys⟩)
    show key.text ∉ fields.map (·.1.text)
    rwa [hkey]
  legible := legible_tagOf w _

/-! ## Elements in a row -/

/-- An element: its tag, and what stands behind it if it has two tags. -/
structure Branch where
  tag : Tag
  inner : Option Forest

/-- The `Branch` of the node `n`, wherever it stands. -/
def Node.branch (n : Node) : Branch := ⟨n.tag, n.inner.map (·.2)⟩

/-- A `Text` of no bytes. -/
def noText : Text := ⟨[], no_text⟩

/-- Elements with nothing between them. -/
def Forest.ofBranches : List Branch → Forest
  | [] => .done noText
  | ⟨t, none⟩ :: more => .empty noText t (ofBranches more)
  | ⟨t, some inner⟩ :: more => .element noText t inner ⟨[], no_blanks⟩ (ofBranches more)

def Branch.written (b : Branch) : Bytes :=
  match b.inner with
  | none => (Lexeme.emptyTag b.tag.tag).written
  | some inner => (Lexeme.startTag b.tag.tag).written ++
      (inner.written ++ (b.tag.endTag ⟨[], no_blanks⟩).written)

/-- The tags of the element `b` are in the theme namespace. -/
structure Branch.Themed [Decoders] (b : Branch) : Prop where
  tag : b.tag.Regular .utf8 themeScope themeScope
  inner : ∀ f, b.inner = some f → f.Regular .utf8 themeScope

namespace Forest

theorem written_ofBranches (bs : List Branch) :
    (ofBranches bs).written = bs.flatMap Branch.written := by
  induction bs with
  | nil => rfl
  | cons b bs ih =>
    obtain ⟨t, inner⟩ := b
    cases inner <;> simp [ofBranches, written, noText, Branch.written, ih]

/-- The elements of the forest are those that it was made from. -/
theorem nodes_ofBranches (bs : List Branch) (offset : Nat) :
    ((ofBranches bs).nodes offset).map Node.branch = bs := by
  induction bs generalizing offset with
  | nil => rfl
  | cons b bs ih =>
    obtain ⟨t, inner⟩ := b
    cases inner <;> simp [ofBranches, nodes, Node.branch, ih]

theorem isTextFree_ofBranches (bs : List Branch) : (ofBranches bs).isTextFree = true := by
  induction bs with
  | nil => rfl
  | cons b bs ih =>
    obtain ⟨t, inner⟩ := b
    cases inner <;> simp [ofBranches, isTextFree, noText, ih]

theorem regular_ofBranches [Decoders] {bs : List Branch} (h : ∀ b ∈ bs, b.Themed) :
    (ofBranches bs).Regular .utf8 themeScope := by
  induction bs with
  | nil => trivial
  | cons b bs ih =>
    rw [List.forall_mem_cons] at h
    obtain ⟨t, inner⟩ := b
    cases inner with
    | none => exact ⟨⟨_, h.1.tag⟩, ih h.2⟩
    | some f => exact ⟨⟨_, h.1.tag, h.1.inner f rfl⟩, ih h.2⟩

end Forest

namespace Node

variable {n : Node} {t : Tag} {bs : List Branch}

/-- A node of one tag `t` is a leaf. -/
theorem leaf_of_branch (h : n.branch = ⟨t, none⟩) :
    n.tag = t ∧ n.children = [] ∧ n.isTextFree = true := by
  obtain ⟨offset, tag, inner⟩ := n
  obtain ⟨rfl, hinner⟩ := Branch.mk.inj h
  obtain rfl := Option.map_eq_none_iff.1 hinner
  exact ⟨rfl, rfl, rfl⟩

/-- A node with the elements `bs` in a row has them as its children. -/
theorem row_of_branch (h : n.branch = ⟨t, some (.ofBranches bs)⟩) :
    n.tag = t ∧ n.children.map Node.branch = bs ∧ n.isTextFree = true := by
  obtain ⟨offset, tag, inner⟩ := n
  obtain ⟨rfl, hinner⟩ := Branch.mk.inj h
  obtain ⟨⟨start, f⟩, rfl, rfl⟩ := Option.map_eq_some_iff.1 hinner
  exact ⟨rfl, Forest.nodes_ofBranches bs start, Forest.isTextFree_ofBranches bs⟩

end Node

end Markup.Source

end Livery
