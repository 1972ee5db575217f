import Livery.Libraries
import Livery.Proofs.Attributes
import Livery.Proofs.Contents
import Livery.Proofs.Format

/-!
# Exactly the overlays are read

* `Reader.children_ok_iff`: the children of an element are read if each of them is, and there is no
  text between them that the schema forbids.
* `Reader.root_ok_iff`: the same for the root, and so for everything below it.
* `read_ok_iff`: a regular source is read if and only if it is that of an overlay, and then as the
  document that it declares.

Well-formed texts that are no sources may be refused: `not_read_inside` has three of them.
-/

namespace Livery

theorem bind_eq_ok {ε α β : Type} {x : Except ε α} {f : α → Except ε β} {b : β} :
    (x >>= f) = .ok b ↔ ∃ a, x = .ok a ∧ f a = .ok b := by
  cases x <;> simp [bind, Except.bind]

theorem pure_eq_ok {ε α : Type} {a b : α} : (pure a : Except ε α) = .ok b ↔ b = a := by
  simp [pure, Except.pure, eq_comm]

theorem ok_eq_ok {ε α : Type} {a b : α} : (.ok a : Except ε α) = .ok b ↔ b = a := by
  simp [eq_comm]

/-- An answer that is fixed by the condition `p` can be put into what follows. -/
theorem exists_answer {α : Type} {p : Prop} {q : α → Prop} {v : α} :
    (∃ a, (p ∧ a = v) ∧ q a) ↔ p ∧ q v := by
  constructor
  · rintro ⟨a, ⟨hp, rfl⟩, hq⟩
    exact ⟨hp, hq⟩
  · rintro ⟨hp, hq⟩
    exact ⟨v, ⟨hp, rfl⟩, hq⟩

/-- A condition on the text in front of a child goes together with that on the text behind it. -/
theorem and_text {s b t p q e : Prop} :
    (s → b) ∧ (p ∧ (s → t) ∧ q) ∧ e ↔ ((s → b ∧ t) ∧ p ∧ q) ∧ e := by
  constructor
  · rintro ⟨hb, ⟨hp, ht, hq⟩, he⟩
    exact ⟨⟨fun hs => ⟨hb hs, ht hs⟩, hp, hq⟩, he⟩
  · rintro ⟨⟨hbt, hp, hq⟩, he⟩
    exact ⟨fun hs => (hbt hs).1, ⟨hp, fun hs => (hbt hs).2, hq⟩, he⟩

namespace Overlay

open Markup (Charset Content Element Scope Source)
open Markup.Source (Assignment Forest IsName Node Tag no_blanks no_text)

/-! ## Elements as the reader has them -/

/-- The `Element` of the node `n`. -/
def element (charset : Charset) (n : Node) : Element := ⟨n.offset, charset, n.tag.tag⟩

/-- The `Content` of the node `n`, if it has two tags. -/
def content (charset : Charset) (n : Node) : Option Content :=
  n.inner.map fun c => c.2.content charset c.1

/-- The tag of the node `n` is `Regular`, and so are those behind it, in the scope inside the
node. -/
def Fair [Markup.Decoders] (charset : Charset) (inside : Scope) (n : Node) : Prop :=
  (∃ scope, n.tag.Regular charset scope inside) ∧
    ∀ c, n.inner = some c → c.2.Regular charset inside

namespace Reader

variable (r : Reader) {charset : Charset} {scope inside : Scope} {n : Node}

/-! ## Attributes -/

/-- The values of the attributes that are plain and among `keys`. -/
def valuesIn [Markup.Decoders] (charset : Charset) (keys : List String) : List Assignment → Values
  | [] => []
  | a :: as =>
    if a.isPlain = true ∧ a.keyText ∈ keys then
      (a.keyText, (a.value? charset).getD "") :: valuesIn charset keys as
    else valuesIn charset keys as

theorem lookup_valuesIn [Markup.Decoders] {keys : List String} {as : List Assignment} {key : String}
    (hkey : key ∈ keys)
    (hlegible : ∀ a ∈ as, a.isPlain = true → ∃ v, a.value? charset = some v) :
    (valuesIn charset keys as).lookup key =
      (as.find? fun a => a.isPlain && a.keyText == key).bind (·.value? charset) := by
  induction as with
  | nil => rfl
  | cons a as ih =>
    rw [List.forall_mem_cons] at hlegible
    have ih := ih hlegible.2
    rw [valuesIn, List.find?_cons]
    -- only a plain attribute with this key stops the search
    by_cases hplain : a.isPlain = true
    · obtain ⟨v, hv⟩ := hlegible.1 hplain
      by_cases hk : a.keyText = key
      · rw [if_pos ⟨hplain, hk ▸ hkey⟩, List.lookup_cons]
        simp [hplain, hk, hv]
      · rw [show (a.isPlain && a.keyText == key) = false by simp [hk]]
        split
        · rw [List.lookup_cons, show (key == a.keyText) = false by simp [Ne.symm hk]]
          exact ih
        · exact ih
    · rw [if_neg fun h => hplain h.1, show (a.isPlain && a.keyText == key) = false by simp [hplain]]
      exact ih

theorem value_ok [Markup.Decoders] {a : Assignment} {v : String} (e : Element)
    (h : a.value? e.charset = some v) : r.value e a.value = .ok v := by
  unfold Assignment.value? at h
  obtain ⟨text, htext, hv⟩ := Option.bind_eq_some_iff.1 h
  simp only [value, htext]
  cases hu : Markup.unescape text with
  | error fault => rw [hu] at hv; cases hv
  | ok u =>
    rw [hu] at hv
    obtain rfl := Option.some.inj hv
    rfl

theorem isPlain_iff (a : Assignment) : a.isPlain = true ↔
    ¬ (a.entry.key = Markup.xmlnsPrefix ∨ a.entry.key.contains 0x3A = true) := by
  simp [Assignment.isPlain, Assignment.entry]

/-- `valuesOf` reads attributes unless one is unknown and the schema is enforced. -/
theorem valuesOf_ok_iff [Markup.Decoders] (e : Element) {keys : List String} {as : List Assignment}
    {vs : Values} (hlegible : ∀ a ∈ as, a.isPlain = true → ∃ v, a.value? e.charset = some v) :
    r.valuesOf e keys (as.map Assignment.entry) = .ok vs ↔
      (r.strict = true → ∀ a ∈ as, a.isPlain = true → a.keyText ∈ keys) ∧
        vs = valuesIn e.charset keys as := by
  induction as generalizing vs with
  | nil => simp only [List.map_nil, valuesOf, valuesIn, Except.ok.injEq, List.not_mem_nil,
      false_implies, implies_true, true_and, eq_comm]
  | cons a as ih =>
    rw [List.forall_mem_cons] at hlegible
    have ih := fun vs => @ih vs hlegible.2
    rw [List.map_cons, valuesOf, List.forall_mem_cons]
    by_cases hplain : a.isPlain = true
    · obtain ⟨v, hv⟩ := hlegible.1 hplain
      have hread : r.value e a.entry.value = .ok v := r.value_ok e hv
      rw [if_neg ((isPlain_iff a).1 hplain)]
      change (if a.keyText ∈ keys then _ else _) = _ ↔ _
      by_cases hmem : a.keyText ∈ keys
      · rw [if_pos hmem, valuesIn, if_pos ⟨hplain, hmem⟩]
        simp only [hread, bind_eq_ok, ih, exists_answer, pure_eq_ok, Except.ok.injEq,
          exists_eq_left', hv, Option.getD_some, hmem, implies_true, true_and]
        rfl
      · rw [if_neg hmem, valuesIn, if_neg fun h : _ ∧ _ => hmem h.2]
        -- an unknown attribute is passed over unless the schema is enforced
        by_cases hs : r.strict = true
        · rw [if_pos hs]
          simp [hs, hmem, hplain, refuse]
        · rw [if_neg hs, ih]
          simp [hs]
    · have hskip := Decidable.not_not.1 (mt (isPlain_iff a).2 hplain)
      rw [if_pos hskip, valuesIn, if_neg fun h : _ ∧ _ => hplain h.1, ih]
      simp [hplain]

theorem values_ok_iff [Markup.Decoders] (h : Fair charset inside n) {keys : List String}
    {vs : Values} :
    r.values (element charset n) keys = .ok vs ↔
      (r.strict = true → n.tag.Knows keys) ∧ vs = valuesIn charset keys n.tag.assignments := by
  obtain ⟨⟨scope, ht⟩, -⟩ := h
  have hof := @valuesOf_ok_iff r _ (element charset n) keys n.tag.assignments vs ht.legible
  have hattributes : (element charset n).tag.attributes =
      ⟨n.tag.assignments.map Assignment.entry, none⟩ := n.tag.attributes_tag ht.distinct
  simp only [values, hattributes, bind_eq_ok, pure_eq_ok]
  constructor
  · rintro ⟨vs', h', rfl⟩
    exact hof.1 h'
  · intro h'
    exact ⟨vs, hof.2 h', rfl⟩

theorem lookup_values [Markup.Decoders] (h : Fair charset inside n) (keys : List String)
    (key : String) (hkey : key ∈ keys) :
    (valuesIn charset keys n.tag.assignments).lookup key = n.tag.value? charset key := by
  obtain ⟨⟨scope, ht⟩, -⟩ := h
  exact lookup_valuesIn hkey ht.legible

theorem requiredName_ok_iff (e : Element) {vs : Values} {value : Option String} {name : String}
    (hvs : vs.lookup "name" = value) :
    r.requiredName e vs = .ok name ↔
      (r.strict = true → value ≠ none) ∧ name = value.getD "" := by
  unfold requiredName
  rw [hvs]
  cases value with
  | some v => simpa using eq_comm
  | none =>
    by_cases hs : r.strict = true
    · simp [hs, refuse]
    · rw [if_neg hs, ok_eq_ok]
      simp [hs]

theorem optional_ok_iff {α ε : Type} (e : Element) (parse : String → Except ε α)
    (cause : String → ε → Cause) (value : Option String) {a : Option α} :
    r.optional e parse cause value = .ok a ↔
      IsOptional parse value ∧ a = optionalValue parse value := by
  cases value with
  | none => simpa [optional, IsOptional, optionalValue] using eq_comm
  | some v =>
    unfold optional
    by_cases hb : Text.isAllBlank v = true
    · simpa [hb, IsOptional, optionalValue] using eq_comm
    · cases hp : parse v with
      | ok x =>
        simpa [hb, hp, IsOptional, optionalValue, lift, Except.map, Except.toOption] using eq_comm
      | error err => simp [hb, hp, IsOptional, lift, refuse, Except.map]

theorem colorName_ok_iff (e : Element) (name : String) {a : String} :
    r.colorName e name = .ok a ↔ (name ≠ "" ∧ name.contains '/' = false) ∧ a = name := by
  unfold colorName
  by_cases hn : name = ""
  · simp [hn, refuse]
  · by_cases hs : name.contains '/' = true
    · simp [hn, hs, refuse]
    · simpa [hn, hs] using eq_comm

/-! ## Children -/

theorem isThemed_tag {offset : Nat} {t : Tag} : isThemed inside ⟨offset, charset, t.tag⟩ = true ↔
    inside.namespace? t.name.bytes = some (Text.Utf8.encode themeNamespace) := by
  simp [isThemed, Source.Tag.tag]

variable {α : Type} {parent : String} {child : Scope → Element → Option Content → Result α}

theorem children_text_ok_iff (t : Source.Text) (offset : Nat) (more : Content) {as : List α} :
    r.children parent child scope (t.content offset more) = .ok as ↔
      (r.strict = true → t.bytes.all Markup.isBlankByte = true) ∧
        r.children parent child scope more = .ok as := by
  rw [children_text]
  split
  · next h => simp [h, refuse]
  · next h =>
    simp only [not_and, Bool.not_eq_false] at h
    exact ⟨fun hm => ⟨h, hm⟩, fun hm => hm.2⟩

/-- A child, `x`, and those behind it, `xs`. -/
def childThen (x : Result α) (xs : Result (List α)) : Result (List α) := do
  let a ← x
  let as ← xs
  pure (a :: as)

theorem childThen_ok_iff {x : Result α} {xs : Result (List α)} {p q : Prop} {v : α}
    {vs l : List α} (hx : ∀ a, x = .ok a ↔ p ∧ a = v) (hxs : ∀ as, xs = .ok as ↔ q ∧ as = vs) :
    childThen x xs = .ok l ↔ (p ∧ q) ∧ l = v :: vs := by
  unfold childThen
  simp only [bind_eq_ok, pure_eq_ok, hx, hxs, exists_answer, and_assoc (b := q)]

theorem children_empty {e : Element} (he : scope.enter e.tag = .ok inside)
    (hthemed : isThemed inside e = true) (more : Content) :
    r.children parent child scope (.empty e more) =
      childThen (child inside e none) (r.children parent child scope more) := by
  rw [children, r.enter_ok he]
  exact if_pos hthemed

theorem children_element {e : Element} (he : scope.enter e.tag = .ok inside)
    (hthemed : isThemed inside e = true) (c more : Content) :
    r.children parent child scope (.element e c more) =
      childThen (child inside e (some c)) (r.children parent child scope more) := by
  rw [children, r.enter_ok he]
  exact if_pos hthemed

/-- **The children are read if `child` reads each of them**, and if the schema does not forbid what
stands between them. -/
theorem children_ok_iff [Markup.Decoders] {p : Node → Prop} {g : Node → α} (f : Forest)
    (offset : Nat) (hf : f.Regular charset scope)
    (hchild : ∀ n ∈ f.nodes offset, ∀ inside, Fair charset inside n → ∀ a,
      child inside (element charset n) (content charset n) = .ok a ↔ p n ∧ a = g n)
    {as : List α} :
    r.children parent child scope (f.content charset offset) = .ok as ↔
      ((r.strict = true → f.isTextFree = true) ∧ ∀ n ∈ f.nodes offset, p n) ∧
        as = (f.nodes offset).map g := by
  induction f generalizing offset as with
  | done t =>
    rw [Forest.content, children_text_ok_iff, children, ok_eq_ok]
    simp [Forest.isTextFree, Forest.nodes]
  | remark t l more ih =>
    have ih := @ih _ hf hchild as
    rw [Forest.content, children_text_ok_iff, children, ih]
    simp only [Forest.isTextFree, Forest.nodes, Bool.and_eq_true, imp_and, and_assoc]
  | cdata t s more ih =>
    have ih := @ih _ hf hchild as
    rw [Forest.content, children_text_ok_iff, children]
    -- a section counts as text, blank or not
    by_cases hs : r.strict = true
    · simp [hs, refuse, Forest.isTextFree]
    · rw [if_neg hs, ih]
      simp [hs, Forest.nodes]
  | empty t tag more ih =>
    obtain ⟨⟨inside, ht⟩, hmore⟩ := hf
    rw [Forest.nodes, List.forall_mem_cons] at hchild
    have hhead := hchild.1 inside ⟨⟨scope, ht⟩, by simp⟩
    simp only [element, content, Option.map_none] at hhead
    have hmore := fun as => @ih _ hmore hchild.2 as
    rw [Forest.content, children_text_ok_iff,
      r.children_empty (e := ⟨_, charset, tag.tag⟩) ht.enter (isThemed_tag.2 ht.themed),
      childThen_ok_iff hhead hmore, and_text]
    simp only [Forest.isTextFree, Forest.nodes, Bool.and_eq_true, List.forall_mem_cons,
      List.map_cons]
  | element t tag inner blanks more _ ih =>
    -- `hchild` says all there is to say about the content, so its own hypothesis is not needed
    obtain ⟨⟨inside, ht, hinner⟩, hmore⟩ := hf
    rw [Forest.nodes, List.forall_mem_cons] at hchild
    have hhead := hchild.1 inside ⟨⟨scope, ht⟩, by rintro c ⟨⟩; exact hinner⟩
    simp only [element, content, Option.map_some] at hhead
    have hmore := fun as => @ih _ hmore hchild.2 as
    rw [Forest.content, children_text_ok_iff,
      r.children_element (e := ⟨_, charset, tag.tag⟩) ht.enter (isThemed_tag.2 ht.themed),
      childThen_ok_iff hhead hmore, and_text]
    simp only [Forest.isTextFree, Forest.nodes, Bool.and_eq_true, List.forall_mem_cons,
      List.map_cons]

theorem childrenOf_ok_iff [Markup.Decoders] {p : Node → Prop} {g : Node → α}
    (h : Fair charset inside n) (hchild : ∀ c ∈ n.children, ∀ inside, Fair charset inside c → ∀ a,
      child inside (element charset c) (content charset c) = .ok a ↔ p c ∧ a = g c)
    {as : List α} :
    r.childrenOf parent child inside (content charset n) = .ok as ↔
      ((r.strict = true → n.isTextFree = true) ∧ ∀ c ∈ n.children, p c) ∧
        as = n.children.map g := by
  obtain ⟨-, hinner⟩ := h
  unfold Node.children at hchild ⊢
  unfold Node.isTextFree content
  cases hn : n.inner with
  | none =>
    simp only [Option.map_none, childrenOf, ok_eq_ok]
    simp
  | some c =>
    rw [hn] at hchild
    exact r.children_ok_iff c.2 c.1 (hinner c hn) hchild

/-- An element is a leaf if nothing but remarks, or text that is allowed, stands inside: it has no
`children`. -/
theorem leaf_ok_iff [Markup.Decoders] (name : String) (h : Fair charset inside n) {u : Unit} :
    r.leaf name inside (content charset n) = .ok u ↔
      n.children = [] ∧ (r.strict = true → n.isTextFree = true) := by
  have hof := fun as => @childrenOf_ok_iff r charset inside n Unit name
    (fun _ e _ => r.refuse e.offset (.childInside name)) _ (fun _ => False) (fun _ => ()) h
    (by simp [refuse]) as
  simp only [leaf, bind_eq_ok, hof, exists_answer, pure_eq_ok]
  rw [← List.eq_nil_iff_forall_not_mem]
  simp [and_comm]

/-! ## Declarations -/

theorem localName_element : (element charset n).tag.localName = n.localName := by
  simp only [element, Node.localName]

/-- A name that is there, not empty and without a slash. -/
theorem named_iff {value : Option String} :
    (value.getD "" ≠ "" ∧ (value.getD "").contains '/' = false) ↔
      ∃ name, value = some name ∧ name ≠ "" ∧ name.contains '/' = false := by
  cases value <;> simp

theorem color_ok_iff [Markup.Decoders] (h : Fair charset inside n) {d : ColorDeclaration} :
    r.color inside (element charset n) (content charset n) = .ok d ↔
      IsColor charset r.strict n ∧ d = colorOf charset n r.input := by
  have hlookup := lookup_values h colorKeys
  simp only [color, colorOfValues, bind_eq_ok, r.values_ok_iff h, exists_answer, r.leaf_ok_iff _ h,
    brush, colorName_ok_iff, optional_ok_iff, pure_eq_ok, hlookup "name" (by decide),
    hlookup "foreground" (by decide), hlookup "background" (by decide),
    hlookup "underline" (by decide), hlookup "fontWeight" (by decide),
    hlookup "fontStyle" (by decide), hlookup "exampleText" (by decide), named_iff]
  constructor
  · rintro ⟨hk, a, ⟨hn, hf, hb, hu, hw, hs, rfl⟩, -, ⟨hc, ht⟩, rfl⟩
    exact ⟨⟨hn, hf, hb, hu, hw, hs, hc, hk, ht⟩, rfl⟩
  · rintro ⟨⟨hn, hf, hb, hu, hw, hs, hc, hk, ht⟩, rfl⟩
    exact ⟨hk, _, ⟨hn, hf, hb, hu, hw, hs, rfl⟩, (), ⟨hc, ht⟩, rfl⟩

theorem colorSet_ok_iff [Markup.Decoders] (h : Fair charset inside n) {d : SetDeclaration} :
    r.colorSet inside (element charset n) (content charset n) = .ok d ↔
      IsColorSet charset r.strict n ∧ d = colorSetOf charset n r.input := by
  have hname := lookup_values h setKeys "name" (by decide)
  have hextensions := lookup_values h setKeys "extensions" (by decide)
  have hchild : ∀ c ∈ n.children, ∀ inside, Fair charset inside c → ∀ a,
      r.setChild inside (element charset c) (content charset c) = .ok a ↔
        (c.localName = "Color" ∧ IsColor charset r.strict c) ∧ a = colorOf charset c r.input := by
    intro c _ inside hc a
    simp only [setChild, localName_element]
    split
    · next hcolor =>
      rw [r.color_ok_iff hc]
      simp [hcolor]
    · next hcolor => split <;> simp [refuse, hcolor]
  simp only [colorSet, bind_eq_ok, r.values_ok_iff h, exists_answer,
    r.requiredName_ok_iff _ hname, r.childrenOf_ok_iff h hchild, hextensions, pure_eq_ok]
  constructor
  · rintro ⟨hk, hn, ⟨ht, hc⟩, rfl⟩
    exact ⟨⟨hc, hn, hk, ht⟩, rfl⟩
  · rintro ⟨⟨hc, hn, hk, ht⟩, rfl⟩
    exact ⟨hk, hn, ⟨ht, hc⟩, rfl⟩

theorem property_ok_iff [Markup.Decoders] (h : Fair charset inside n) {d : PropertyDeclaration} :
    r.property inside (element charset n) (content charset n) = .ok d ↔
      IsProperty charset r.strict n ∧ d = propertyOf charset n r.input := by
  have hname := lookup_values h propertyKeys "name" (by decide)
  have hvalue := lookup_values h propertyKeys "value" (by decide)
  simp only [property, bind_eq_ok, r.values_ok_iff h, exists_answer,
    r.requiredName_ok_iff _ hname, r.leaf_ok_iff _ h, hvalue, pure_eq_ok]
  constructor
  · rintro ⟨hk, hn, -, ⟨hc, ht⟩, rfl⟩
    exact ⟨⟨hc, hn, hk, ht⟩, rfl⟩
  · rintro ⟨⟨hc, hn, hk, ht⟩, rfl⟩
    exact ⟨hk, hn, (), ⟨hc, ht⟩, rfl⟩

theorem globalStyle_ok_iff [Markup.Decoders] (h : Fair charset inside n) {d : StyleDeclaration} :
    r.globalStyle inside (element charset n) (content charset n) = .ok d ↔
      IsStyle charset r.strict n ∧ d = styleOf charset n r.input := by
  have hlookup := lookup_values h styleKeys
  simp only [globalStyle, localName_element]
  split
  · -- an unknown style under the schema
    next hunknown =>
    simp only [Bool.and_eq_true, Option.isNone_iff_eq_none] at hunknown
    simp only [refuse, reduceCtorEq, false_iff, not_and]
    intro hs
    exact absurd hunknown.2 (hs.supported hunknown.1)
  · next hknown =>
    have hsupported : r.strict = true → StyleKind.ofName? n.localName ≠ none := by
      simpa using hknown
    simp only [bind_eq_ok, r.values_ok_iff h, exists_answer, brush, optional_ok_iff,
      r.leaf_ok_iff _ h, hlookup "foreground" (by decide), hlookup "background" (by decide),
      hlookup "border" (by decide), pure_eq_ok]
    constructor
    · rintro ⟨hk, hf, hb, hr, -, ⟨hc, ht⟩, rfl⟩
      exact ⟨⟨hf, hb, hr, hc, hsupported, hk, ht⟩, rfl⟩
    · rintro ⟨⟨hf, hb, hr, hc, -, hk, ht⟩, rfl⟩
      exact ⟨hk, hf, hb, hr, (), ⟨hc, ht⟩, rfl⟩

theorem globalStyles_ok_iff [Markup.Decoders] (h : Fair charset inside n)
    {ds : List StyleDeclaration} :
    r.globalStyles inside (element charset n) (content charset n) = .ok ds ↔
      IsStyles charset r.strict n ∧ ds = n.children.map (styleOf charset · r.input) := by
  have hchild : ∀ c ∈ n.children, ∀ inside, Fair charset inside c → ∀ a,
      r.globalStyle inside (element charset c) (content charset c) = .ok a ↔
        IsStyle charset r.strict c ∧ a = styleOf charset c r.input :=
    fun c _ inside hc a => r.globalStyle_ok_iff hc
  simp only [globalStyles, bind_eq_ok, r.values_ok_iff h, exists_answer,
    r.childrenOf_ok_iff h hchild]
  constructor
  · rintro ⟨hk, ⟨ht, hc⟩, hd⟩
    exact ⟨⟨hc, hk, ht⟩, hd⟩
  · rintro ⟨⟨hc, hk, ht⟩, hd⟩
    exact ⟨hk, ⟨ht, hc⟩, hd⟩

theorem rootChild_ok_iff [Markup.Decoders] (h : Fair charset inside n) {ds : List Declaration} :
    r.rootChild inside (element charset n) (content charset n) = .ok ds ↔
      IsChild charset r.strict n ∧ ds = declarationsOf charset n r.input := by
  simp only [rootChild, localName_element]
  split
  · next hset =>
    simp only [bind_eq_ok, r.colorSet_ok_iff h, exists_answer, pure_eq_ok, declarationsOf,
      if_pos hset]
    refine and_congr_left' ⟨.colorSet hset, ?_⟩
    rintro (⟨-, hc⟩ | ⟨hn, -⟩ | ⟨hn, -⟩)
    · exact hc
    · rw [hn] at hset; exact absurd hset (by decide)
    · rw [hn] at hset; exact absurd hset (by decide)
  next hset =>
  split
  · next hproperty =>
    simp only [bind_eq_ok, r.property_ok_iff h, exists_answer, pure_eq_ok, declarationsOf,
      if_neg hset, if_pos hproperty]
    refine and_congr_left' ⟨.property hproperty, ?_⟩
    rintro (⟨hn, -⟩ | ⟨-, hp⟩ | ⟨hn, -⟩)
    · exact absurd hn hset
    · exact hp
    · rw [hn] at hproperty; exact absurd hproperty (by decide)
  next hproperty =>
  split
  · next hstyles =>
    simp only [bind_eq_ok, r.globalStyles_ok_iff h, exists_answer, pure_eq_ok, declarationsOf,
      if_neg hset, if_neg hproperty, List.map_map, Function.comp_def]
    refine and_congr_left' ⟨.styles hstyles, ?_⟩
    rintro (⟨hn, -⟩ | ⟨hn, -⟩ | ⟨-, hs⟩)
    · exact absurd hn hset
    · exact absurd hn hproperty
    · exact hs
  next hstyles =>
  -- under any other name the node is no child of a root, however it is refused
  have hno : ¬ IsChild charset r.strict n := by
    rintro (⟨hn, -⟩ | ⟨hn, -⟩ | ⟨hn, -⟩)
    · exact hset hn
    · exact hproperty hn
    · exact hstyles hn
  split <;> simp [refuse, hno]

/-- **The root is read exactly if `IsRoot` says** that it is that of an overlay. -/
theorem root_ok_iff [Markup.Decoders] (h : Fair charset inside n)
    (ht : n.tag.Regular charset .initial inside) {d : Document} :
    r.root (element charset n) (content charset n) = .ok d ↔
      IsRoot charset r.strict n ∧ d = documentOf charset n r.input := by
  have hname := lookup_values h rootKeys "name" (by decide)
  have hchild : ∀ c ∈ n.children, ∀ inside, Fair charset inside c → ∀ a,
      r.rootChild inside (element charset c) (content charset c) = .ok a ↔
        IsChild charset r.strict c ∧ a = declarationsOf charset c r.input :=
    fun c _ inside hc a => r.rootChild_ok_iff hc
  have henter : r.enter .initial (element charset n) = .ok inside := r.enter_ok ht.enter
  have hthemed : isThemed inside (element charset n) = true := isThemed_tag.2 ht.themed
  simp only [root, henter, bind_eq_ok, Except.ok.injEq, exists_eq_left', hthemed, Bool.true_and,
    localName_element, beq_iff_eq]
  split
  · next hroot =>
    simp only [bind_eq_ok, r.values_ok_iff h, exists_answer, r.requiredName_ok_iff _ hname,
      r.childrenOf_ok_iff h hchild, pure_eq_ok]
    constructor
    · rintro ⟨hk, hn, ⟨ht, hc⟩, rfl⟩
      exact ⟨⟨hroot, hc, hn, hk, ht⟩, rfl⟩
    · rintro ⟨⟨-, hc, hn, hk, ht⟩, rfl⟩
      exact ⟨hk, hn, ⟨ht, hc⟩, rfl⟩
  · next hroot =>
    simp only [refuse, reduceCtorEq, false_iff, not_and]
    intro hr
    exact absurd hr.name hroot

end Reader

/-- The root of the source `s` is read exactly if `s` is an overlay. -/
theorem root_source_ok_iff [Markup.Decoders] (s : Source) (hs : s.Regular) (strict : Bool)
    (d : Document) :
    (Reader.mk s.bytes strict).root s.element s.inner = .ok d ↔
      s.IsOverlay strict ∧ d = s.document := by
  obtain ⟨inside, ht, hinner⟩ := hs
  have hfair : Fair s.charset inside s.node := by
    refine ⟨⟨_, ht⟩, fun c hc => ?_⟩
    obtain ⟨c', hc', rfl⟩ := Option.map_eq_some_iff.1 hc
    exact hinner c' hc'
  have hcontent : s.inner = content s.charset s.node := by
    simp only [Source.inner, content, Source.node, Option.map_map, Function.comp_def]
  rw [hcontent]
  exact Reader.root_ok_iff ⟨s.bytes, strict⟩ hfair ht

/-- **Exactly the overlays are read.** A source whose elements are all in the theme namespace, with
attributes that do not come twice and can be read, all of which `Regular` says, is read if and only
if it is that of an overlay, and then as the document that it declares; strictly and leniently. -/
theorem read_ok_iff [Markup.Decoders] (s : Source) (hs : s.Regular) (strict : Bool) (d : Document) :
    read s.bytes strict = .ok d ↔ s.IsOverlay strict ∧ d = s.document := by
  rw [read_bytes]
  exact root_source_ok_iff s hs strict d

theorem isName_binding : IsName "xmlns:t" := ⟨by decide, by decide⟩

/-- The tag of a property with the prefix `t`. -/
def prefixedProperty : Tag :=
  .simple "t:Property" [.simple "name" "a" isName_name.nonempty isName_name.named]

def dawnContent : Forest := .empty ⟨[], no_text⟩ prefixedProperty (.done ⟨[0x0A], by decide⟩)

/-- An overlay with a prefix for its namespace. -/
def dawn : Source where
  root := .simple "t:ThemeSyntaxDefinition"
    [.simple "name" "Dawn" isName_name.nonempty isName_name.named,
      .simple "xmlns:t" themeNamespace isName_binding.nonempty isName_binding.named]
  content := some (dawnContent, ⟨[], no_blanks⟩)

theorem dawn_regular : dawn.Regular := by
  have henter : Scope.initial.enter dawn.root.tag =
      .ok ⟨([0x74], Text.Utf8.encode themeNamespace) :: Scope.initial.bindings⟩ := by
    rw [Tag.enter_tag]
    rfl
  have hproperty : ∀ scope : Scope, scope.enter prefixedProperty.tag = .ok scope := fun scope => by
    rw [Tag.enter_tag]
    rfl
  refine ⟨_, ⟨henter, rfl, by decide, ?_⟩, ?_⟩
  · intro a ha hplain
    simp only [dawn, Tag.simple, List.mem_cons, List.not_mem_nil, or_false] at ha
    rcases ha with rfl | rfl
    · exact ⟨"Dawn", by decide +kernel⟩
    · exact absurd hplain (by decide)
  · rintro c ⟨⟩
    refine ⟨⟨_, hproperty _, rfl, by decide, ?_⟩, trivial⟩
    intro a ha _
    simp only [prefixedProperty, Tag.simple, List.mem_cons, List.not_mem_nil, or_false] at ha
    exact ⟨"a", by rw [ha]; decide +kernel⟩

/-- The element of `prefixedProperty` may stand anywhere inside a root. -/
theorem prefixedProperty_isChild (o : Nat) :
    IsChild .utf8 true ⟨o, prefixedProperty, none⟩ := by
  have hname : prefixedProperty.value? .utf8 "name" = some "a" := by decide +kernel
  have hlocal : prefixedProperty.tag.localName = "Property" := by decide +kernel
  have hknown : prefixedProperty.Knows Reader.propertyKeys := by decide
  exact .property hlocal ⟨rfl, fun _ => by simp [hname], fun _ => hknown, fun _ => rfl⟩

theorem dawn_isOverlay : dawn.IsOverlay true := by
  have hroot : dawn.root.value? .utf8 "name" = some "Dawn" := by decide +kernel
  refine ⟨by decide +kernel, ?_, fun _ => ?_, fun _ => ?_, fun _ => rfl⟩
  · intro c hc
    obtain rfl := List.mem_singleton.1 hc
    exact prefixedProperty_isChild _
  · exact fun h => absurd (hroot.symm.trans h) (by simp)
  · show dawn.root.Knows Reader.rootKeys
    decide

/-- The overlay `dawn` is read under the schema. -/
theorem read_dawn : dawn.Regular ∧ read dawn.bytes true = .ok dawn.document :=
  ⟨dawn_regular, (read_ok_iff dawn dawn_regular true dawn.document).2 ⟨dawn_isOverlay, rfl⟩⟩

/-! ## What is well formed and not read -/

/-- The start tag of an overlay that is named `D`. -/
def plainRoot : Tag :=
  .simple "ThemeSyntaxDefinition"
    [.simple "name" "D" isName_name.nonempty isName_name.named,
      .simple "xmlns" themeNamespace isName_xmlns.nonempty isName_xmlns.named]
    isName_root.nonempty isName_root.named

/-- Without a prefix, the namespace of `plainRoot` is that of the elements inside, too. -/
theorem plainRoot_regular : plainRoot.Regular .utf8 .initial
    ⟨([], Text.Utf8.encode themeNamespace) :: Scope.initial.bindings⟩ := by
  refine ⟨?_, rfl, by decide, ?_⟩
  · rw [Tag.enter_tag]
    rfl
  · intro a ha hplain
    simp only [plainRoot, Tag.simple, List.mem_cons, List.not_mem_nil, or_false] at ha
    rcases ha with rfl | rfl
    · exact ⟨"D", by decide +kernel⟩
    · exact absurd hplain (by decide)

/-- An overlay of `plainRoot` without content. -/
def plain : Source where
  root := plainRoot
  content := some (.done ⟨[], no_text⟩, ⟨[], no_blanks⟩)

/-- The text of `plain` with something inside. -/
def plainAround (inside : String) : String :=
  "<ThemeSyntaxDefinition name=\"D\" xmlns=\"" ++ themeNamespace ++ "\">" ++ inside ++
    "</ThemeSyntaxDefinition>"

theorem encode_plainAround (inside : String) : Text.Utf8.encode (plainAround inside) =
    (Markup.Lexeme.startTag plainRoot.tag).written ++
      (Text.Utf8.encode inside ++ (plainRoot.endTag ⟨[], rfl⟩).written) := by
  have hopen : Text.Utf8.encode "<ThemeSyntaxDefinition name=\"D\" xmlns=\"" ++
      Text.Utf8.encode themeNamespace ++ Text.Utf8.encode "\">" =
        (Markup.Lexeme.startTag plainRoot.tag).written := by decide +kernel
  have hclose : Text.Utf8.encode "</ThemeSyntaxDefinition>" =
      (plainRoot.endTag ⟨[], rfl⟩).written := by decide +kernel
  have happend : ∀ a b c d e : String, Text.Utf8.encode (a ++ b ++ c ++ d ++ e) =
      Text.Utf8.encode a ++ Text.Utf8.encode b ++ Text.Utf8.encode c ++
        (Text.Utf8.encode d ++ Text.Utf8.encode e) := fun a b c d e => by
    simp only [Text.Utf8.encode_append, List.append_assoc]
  rw [← hopen, ← hclose]
  exact happend _ _ _ _ _

/-- With an instruction that holds `>`, it is not read. -/
theorem plainAround_instruction : ∃ f, readText (plainAround "<?n a>b?>") false = .error f := by
  have hinside : Text.Utf8.encode "<?n a>b?>" =
      0x3C :: 0x3F :: (Text.Utf8.encode "n a" ++ 0x3E :: Text.Utf8.encode "b?>") := by decide
  rw [readText, encode_plainAround, hinside, List.cons_append, List.cons_append,
    List.append_assoc, List.cons_append]
  exact read_instruction_broken plainRoot (by decide) (by decide) _ false

/-- What is taken for the document type where an entity holds `>`. -/
def cutDoctype : Source.Doctype where
  body := Text.Utf8.encode " t [<!ENTITY e \"a>b\""
  named := by decide
  balanced := by decide
  closes := Source.Doctype.closes_of_lt (by decide)

/-- Three well-formed overlays are not read: one has `>` inside an instruction, one has it inside
an entity of its document type, and one is in UTF-16. -/
theorem not_read_inside :
    (readText (plainAround "<?n a>b?>") false).toOption = none ∧
    (readText ("<!DOCTYPE t [<!ENTITY e \"a>b\">]>" ++ plainAround "") false).toOption = none ∧
    (read (0xFE :: 0xFF :: plain.bytes.flatMap ([0x00, ·])) false).toOption = none := by
  refine ⟨?_, ?_, ?_⟩
  · obtain ⟨f, hf⟩ := plainAround_instruction
    rw [hf]
    rfl
  · -- the document type ends behind the entity, and `]>` is text
    have htype : Text.Utf8.encode "<!DOCTYPE t [<!ENTITY e \"a>b\">]>" =
        Source.Prolog.written [(⟨[], rfl⟩, .doctype cutDoctype)] ++ Text.Utf8.encode "]>" := by
      decide
    have hmark : Markup.withoutMark
        (Text.Utf8.encode ("<!DOCTYPE t [<!ENTITY e \"a>b\">]>" ++ plainAround "")) =
        (.utf8, Source.Prolog.written [(⟨[], rfl⟩, .doctype cutDoctype)] ++
          (Text.Utf8.encode "]>" ++ Text.Utf8.encode (plainAround ""))) := by
      rw [Text.Utf8.encode_append, htype, List.append_assoc]
      rfl
    rw [readText, read_text_before_root _ ⟨_, by decide⟩ hmark _ (by decide) false]
    · rfl
    · rw [encode_plainAround]
      rfl
  · -- the higher half of the first character is text
    have hmark : Markup.withoutMark (0xFE :: 0xFF :: plain.bytes.flatMap ([0x00, ·])) =
        (.utf16 true, Source.Prolog.written [] ++
          ([0x00] ++ (plain.bytes.flatMap ([0x00, ·])).tail)) := rfl
    rw [read_text_before_root _ ⟨_, by decide⟩ hmark rfl (by decide) false]
    rfl

end Overlay

end Livery
