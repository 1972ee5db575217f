import Livery.Overlay.Reading

/-!
# Strict reading only refuses more

A text is read strictly and leniently. Both readings take the same steps until the strict one comes
upon something that only the schema forbids, and there it ends.

* `Stricter`: how the two results of a step compare, with `Stricter.bind` for steps in a row.
* `Reader.children_stricter`: the children of an element, whatever reads each of them.
* `read_strict`: a whole text, well-formed or not.
-/

namespace Livery.Overlay

open Markup (Content Element Scope)

/-! ## The messages of the schema -/

/-- The messages that strict reading has of a text and lenient reading has not. -/
inductive SchemaMessage : String → Prop
  | unknownAttribute (key element : String) :
    SchemaMessage s!"Unknown attribute '{key}' on {element}"
  | missingName (element : String) : SchemaMessage s!"{element} requires a 'name' attribute"
  | textInside (element : String) :
    SchemaMessage s!"Text content is not allowed inside {element}"
  | unsupportedStyle (name : String) :
    SchemaMessage s!"GlobalStyle named '{name}' is not supported"

theorem Cause.schemaMessage {c : Cause} (h : c.isSchema = true) : SchemaMessage c.message := by
  cases c with
  | unknownAttribute key element => exact .unknownAttribute key element
  | missingName element => exact .missingName element
  | textInside element => exact .textInside element
  | unsupportedStyle name => exact .unsupportedStyle name
  | _ => cases h

/-! ## Two results of one step -/

variable {α β ε : Type}

/-- The results `strict` and `lenient` of the same step: they are one result, or the schema refuses
the strict one. Leniently, nothing is refused for the schema's sake. -/
structure Stricter (strict lenient : Reader.Result α) : Prop where
  schemaFree : ∀ f, lenient = .error f → f.cause.isSchema = false
  agree : strict = lenient ∨ ∃ f, strict = .error f ∧ f.cause.isSchema = true

namespace Stricter

variable {x y : Reader.Result α}

theorem ok (a : α) : Stricter (.ok a) (.ok a) := by
  refine ⟨fun f hf => ?_, .inl rfl⟩
  cases hf

/-- A refusal whose `cause` has nothing to do with the schema. -/
theorem refused {position : Position} {cause : Cause} (h : cause.isSchema = false) :
    Stricter (α := α) (.error ⟨position, cause⟩) (.error ⟨position, cause⟩) := by
  refine ⟨fun f hf => ?_, .inl rfl⟩
  obtain rfl := Except.error.inj hf
  exact h

/-- What the schema refuses for `cause` may be gone on with leniently. -/
theorem forbidden (h : Stricter x y) {position : Position} {cause : Cause}
    (hc : cause.isSchema = true) : Stricter (.error ⟨position, cause⟩) y :=
  ⟨h.schemaFree, .inr ⟨_, rfl, hc⟩⟩

/-- **Steps in a row** compare as their parts do. -/
theorem bind (h : Stricter x y) {k k' : α → Reader.Result β} (hk : ∀ a, Stricter (k a) (k' a)) :
    Stricter (x >>= k) (y >>= k') := by
  obtain ⟨hfree, rfl | ⟨f, rfl, hf⟩⟩ := h
  · cases x with
    | error e =>
      have he : e.cause.isSchema = false := hfree e rfl
      exact refused he
    | ok a => exact hk a
  · -- the strict reading is over, so all that counts is how the lenient one may go on
    refine ⟨fun f' hf' => ?_, .inr ⟨f, rfl, hf⟩⟩
    cases y with
    | error e =>
      obtain rfl : e = f' := Except.error.inj hf'
      exact hfree e rfl
    | ok a => exact (hk a).schemaFree f' hf'

end Stricter

namespace Reader

variable {input : Bytes}

/-- The functions `child` and `child'` that read an element, strictly and leniently. -/
def ChildStricter (child child' : Scope → Element → Option Content → Result α) : Prop :=
  ∀ scope e content, Stricter (child scope e content) (child' scope e content)

/-! ## Scopes and what is passed over -/

theorem lift_stricter (offset : Nat) {cause : ε → Cause} (h : ∀ e, (cause e).isSchema = false)
    (x : Except ε α) :
    Stricter ((Reader.mk input true).lift offset cause x)
      ((Reader.mk input false).lift offset cause x) := by
  cases x with
  | ok a => exact .ok a
  | error e => exact .refused (h e)

theorem enter_stricter (scope : Scope) (e : Element) :
    Stricter ((Reader.mk input true).enter scope e) ((Reader.mk input false).enter scope e) :=
  lift_stricter e.offset (fun _ => rfl) _

theorem skip_stricter (name : String) (scope : Scope) (content : Content) :
    Stricter ((Reader.mk input true).skip name scope content)
      ((Reader.mk input false).skip name scope content) := by
  induction content generalizing scope with
  | closed => exact .ok ()
  | ended offset => exact .refused rfl
  | broken offset fault => exact .refused rfl
  | text offset bytes more ih => exact ih scope
  | cdata offset bytes more ih => exact ih scope
  | remark lexeme more ih => exact ih scope
  | empty e more ih => exact (enter_stricter scope e).bind fun _ => ih scope
  | element e inner more ih_inner ih_more =>
    exact (enter_stricter scope e).bind fun inside =>
      (ih_inner inside).bind fun _ => ih_more scope

/-! ## Children -/

section Children

variable {child child' : Scope → Element → Option Content → Result α}

/-- One child and those behind it. -/
theorem cons_stricter {x y : Result α} (h : Stricter x y) {xs ys : Result (List α)}
    (hs : Stricter xs ys) :
    Stricter (do let a ← x; let as ← xs; pure (a :: as))
      (do let a ← y; let as ← ys; pure (a :: as)) :=
  h.bind fun a => hs.bind fun as => .ok (a :: as)

/-- **The `children` of an element**: strictly, text between them is refused as well. -/
theorem children_stricter (parent : String) (h : ChildStricter child child') (scope : Scope)
    (content : Content) :
    Stricter ((Reader.mk input true).children parent child scope content)
      ((Reader.mk input false).children parent child' scope content) := by
  induction content generalizing scope with
  | closed => exact .ok []
  | ended offset => exact .refused rfl
  | broken offset fault => exact .refused rfl
  | text offset bytes more ih =>
    simp only [children, Bool.true_and, Bool.false_and, Bool.false_eq_true, if_false]
    split
    · exact (ih scope).forbidden rfl
    · exact ih scope
  | cdata offset bytes more ih => exact (ih scope).forbidden rfl
  | remark lexeme more ih => exact ih scope
  | empty e more ih =>
    simp only [children]
    refine (enter_stricter scope e).bind fun inside => ?_
    split
    · exact cons_stricter (h inside e none) (ih scope)
    · exact ih scope
  | element e inner more ih_inner ih_more =>
    simp only [children]
    refine (enter_stricter scope e).bind fun inside => ?_
    split
    · exact cons_stricter (h inside e (some inner)) (ih_more scope)
    · exact (skip_stricter e.tag.fullName inside inner).bind fun _ => ih_more scope

theorem childrenOf_stricter (parent : String) (h : ChildStricter child child') (scope : Scope)
    (content : Option Content) :
    Stricter ((Reader.mk input true).childrenOf parent child scope content)
      ((Reader.mk input false).childrenOf parent child' scope content) := by
  cases content with
  | none => exact .ok []
  | some content => exact children_stricter parent h scope content

theorem leaf_stricter (name : String) (scope : Scope) (content : Option Content) :
    Stricter ((Reader.mk input true).leaf name scope content)
      ((Reader.mk input false).leaf name scope content) :=
  (childrenOf_stricter name (fun _ _ _ => .refused rfl) scope content).bind fun _ => .ok ()

end Children

/-! ## Attributes -/

/-- Strictly, a missing name is refused as well. -/
theorem requiredName_stricter (e : Element) (vs : Values) :
    Stricter ((Reader.mk input true).requiredName e vs)
      ((Reader.mk input false).requiredName e vs) := by
  unfold requiredName
  cases vs.lookup "name" with
  | some name => exact .ok name
  | none => exact (Stricter.ok "").forbidden rfl

theorem optional_stricter (e : Element) (parse : String → Except ε α)
    {cause : String → ε → Cause} (h : ∀ v reason, (cause v reason).isSchema = false)
    (value : Option String) :
    Stricter ((Reader.mk input true).optional e parse cause value)
      ((Reader.mk input false).optional e parse cause value) := by
  cases value with
  | none => exact .ok none
  | some v =>
    simp only [optional]
    split
    · exact .ok none
    · cases parse v with
      | ok a => exact .ok (some a)
      | error reason => exact .refused (h v reason)

theorem brush_stricter (e : Element) (value : Option String) :
    Stricter ((Reader.mk input true).brush e value) ((Reader.mk input false).brush e value) :=
  optional_stricter e _ (fun _ _ => rfl) value

theorem colorName_stricter (e : Element) (name : String) :
    Stricter ((Reader.mk input true).colorName e name)
      ((Reader.mk input false).colorName e name) := by
  unfold colorName
  split
  · exact .refused rfl
  · split
    · exact .refused rfl
    · exact .ok name

variable [Markup.Decoders]

theorem value_stricter (e : Element) (raw : Bytes) :
    Stricter ((Reader.mk input true).value e raw) ((Reader.mk input false).value e raw) := by
  unfold value
  cases e.charset.decode? raw with
  | none => exact .refused rfl
  | some text => exact lift_stricter e.offset (fun _ => rfl) _

/-- Strictly, an attribute that is not `allowed` is refused as well. -/
theorem valuesOf_stricter (e : Element) (allowed : List String) (as : List Markup.Attribute) :
    Stricter ((Reader.mk input true).valuesOf e allowed as)
      ((Reader.mk input false).valuesOf e allowed as) := by
  induction as with
  | nil => exact .ok []
  | cons a as ih =>
    simp only [valuesOf, Bool.false_eq_true, if_true, if_false]
    split
    · exact ih
    · split
      · exact (value_stricter e a.value).bind fun v => ih.bind fun vs => .ok _
      · exact ih.forbidden rfl

theorem values_stricter (e : Element) (allowed : List String) :
    Stricter ((Reader.mk input true).values e allowed)
      ((Reader.mk input false).values e allowed) := by
  unfold values
  refine (valuesOf_stricter e allowed e.tag.attributes.attributes).bind fun vs => ?_
  cases e.tag.attributes.fault with
  | none => exact .ok vs
  | some fault => exact .refused rfl

/-! ## Declarations -/

theorem color_stricter :
    ChildStricter (Reader.mk input true).color (Reader.mk input false).color := by
  intro scope e content
  refine (values_stricter e colorKeys).bind fun vs => ?_
  have hvalues : Stricter ((Reader.mk input true).colorOfValues e vs)
      ((Reader.mk input false).colorOfValues e vs) := by
    refine (colorName_stricter e _).bind fun name => ?_
    refine (brush_stricter e _).bind fun foreground => ?_
    refine (brush_stricter e _).bind fun background => ?_
    refine (optional_stricter e _ (fun _ _ => rfl) _).bind fun underline => ?_
    refine (optional_stricter e _ (fun _ _ => rfl) _).bind fun fontWeight => ?_
    refine (optional_stricter e _ (fun _ _ => rfl) _).bind fun fontStyle => ?_
    exact .ok _
  exact hvalues.bind fun d => (leaf_stricter "Color" scope content).bind fun _ => .ok d

theorem setChild_stricter :
    ChildStricter (Reader.mk input true).setChild (Reader.mk input false).setChild := by
  intro scope e content
  unfold setChild
  dsimp only
  split
  · exact color_stricter scope e content
  · split
    · exact .refused rfl
    · exact .refused rfl

theorem colorSet_stricter :
    ChildStricter (Reader.mk input true).colorSet (Reader.mk input false).colorSet := by
  intro scope e content
  refine (values_stricter e setKeys).bind fun vs => ?_
  refine (requiredName_stricter e vs).bind fun name => ?_
  exact (childrenOf_stricter Cause.setName setChild_stricter scope content).bind fun _ => .ok _

theorem property_stricter :
    ChildStricter (Reader.mk input true).property (Reader.mk input false).property := by
  intro scope e content
  refine (values_stricter e propertyKeys).bind fun vs => ?_
  refine (requiredName_stricter e vs).bind fun name => ?_
  exact (leaf_stricter "Property" scope content).bind fun _ => .ok _

/-- Strictly, a style of unknown kind is refused as well. -/
theorem globalStyle_stricter :
    ChildStricter (Reader.mk input true).globalStyle (Reader.mk input false).globalStyle := by
  intro scope e content
  unfold globalStyle
  simp only [Bool.true_and, Bool.false_and, Bool.false_eq_true, if_false]
  -- whatever the name is, the rest is the same
  suffices h : Stricter _ _ by
    split
    · exact Stricter.forbidden h rfl
    · exact h
  refine (values_stricter e styleKeys).bind fun vs => ?_
  refine (brush_stricter e _).bind fun foreground => ?_
  refine (brush_stricter e _).bind fun background => ?_
  refine (brush_stricter e _).bind fun border => ?_
  exact (leaf_stricter e.tag.localName scope content).bind fun _ => .ok _

theorem globalStyles_stricter :
    ChildStricter (Reader.mk input true).globalStyles (Reader.mk input false).globalStyles := by
  intro scope e content
  refine (values_stricter e []).bind fun _ => ?_
  exact childrenOf_stricter "GlobalStyles" globalStyle_stricter scope content

theorem rootChild_stricter :
    ChildStricter (Reader.mk input true).rootChild (Reader.mk input false).rootChild := by
  intro scope e content
  unfold rootChild
  dsimp only
  split
  · exact (colorSet_stricter scope e content).bind fun d => .ok _
  split
  · exact (property_stricter scope e content).bind fun d => .ok _
  split
  · exact (globalStyles_stricter scope e content).bind fun ds => .ok _
  split
  · exact .refused rfl
  · exact .refused rfl

/-! ## Whole texts -/

theorem root_stricter (e : Element) (content : Option Content) :
    Stricter ((Reader.mk input true).root e content) ((Reader.mk input false).root e content) := by
  unfold root
  refine (enter_stricter .initial e).bind fun scope => ?_
  split
  · refine (values_stricter e rootKeys).bind fun vs => ?_
    refine (requiredName_stricter e vs).bind fun name => ?_
    exact (childrenOf_stricter Cause.rootName rootChild_stricter scope content).bind
      fun groups => .ok _
  · exact .refused rfl

theorem document_stricter (content : Content) :
    Stricter ((Reader.mk input true).document content)
      ((Reader.mk input false).document content) := by
  induction content with
  | closed => exact .refused rfl
  | ended offset => exact .refused rfl
  | broken offset fault => exact .refused rfl
  | text offset bytes more ih =>
    unfold document
    split
    · exact ih
    · exact .refused rfl
  | cdata offset bytes more ih => exact ih
  | remark lexeme more ih => exact ih
  | empty e more _ => exact root_stricter e none
  | element e inner more _ _ => exact root_stricter e (some inner)

end Reader

/-- **Strict reading only refuses more.** Take any bytes. Read strictly they give what they give
leniently, a document with its positions or an error, or else they are refused with a message of the
schema. Nothing is refused for the schema's sake leniently. So every document that is read strictly
is read leniently, and as the same one, and what is refused leniently is refused strictly. -/
theorem read_strict [Markup.Decoders] (input : Bytes) :
    (read input true = read input false ∨
      ∃ f, read input true = .error f ∧ f.cause.isSchema = true ∧
        SchemaMessage f.cause.message) ∧
    (∀ f, read input false = .error f → f.cause.isSchema = false) ∧
    (∀ d, read input true = .ok d → read input false = .ok d) ∧
    ∀ f, read input false = .error f → ∃ f', read input true = .error f' := by
  obtain ⟨hfree, hagree⟩ : Stricter (read input true) (read input false) :=
    Reader.document_stricter (.ofBytes input)
  refine ⟨hagree.imp id fun ⟨f, hf, hc⟩ => ⟨f, hf, hc, Cause.schemaMessage hc⟩, hfree,
    fun d hd => ?_, fun f hf => ?_⟩
  · rcases hagree with heq | ⟨f, hf, -⟩
    · rw [← heq, hd]
    · rw [hd] at hf
      cases hf
  · rcases hagree with heq | ⟨f', hf', -⟩
    · exact ⟨f, heq.trans hf⟩
    · exact ⟨f', hf'⟩

end Livery.Overlay
