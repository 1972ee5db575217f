import Livery.Libraries
import Livery.Proofs.Acceptance

/-!
# Foreign content is invisible

Comments, instructions and elements outside the theme namespace may stand anywhere inside the root.
Reading with and without them gives the same, up to positions.

* `Source.Padded`: a source with foreign content put in at any points.
* `Reader.skip_padded`, `Reader.children_padded`: what is put in is passed over, and the scope
  behind it is the one before it.
* `read_padded`: reading a source and reading it padded.

An instruction with `>` inside, a document type in which `<` and `>` do not balance and a text in
UTF-16 are no sources: `seen_inside` shows what is seen there.
-/

namespace Livery

namespace Markup.Source

/-! ## Padding -/

def Text.append (t u : Text) : Text :=
  ⟨t.bytes ++ u.bytes, by rw [List.mem_append, not_or]; exact ⟨t.plain, u.plain⟩⟩

/-- A forest with the text `t` in front of it. -/
def Forest.prepend (t : Text) : Forest → Forest
  | .done u => .done (t.append u)
  | .remark u r more => .remark (t.append u) r more
  | .cdata u s more => .cdata (t.append u) s more
  | .empty u tag more => .empty (t.append u) tag more
  | .element u tag inner blanks more => .element (t.append u) tag inner blanks more

/-- The scope inside an element of the tag `t`, or `scope` itself if its namespace declarations are
not sound. -/
def within (scope : Scope) (t : Tag) : Scope :=
  match scope.enter t.tag with
  | .ok inside => inside
  | .error _ => scope

theorem within_of_enter {scope inside : Scope} {t : Tag} (h : scope.enter t.tag = .ok inside) :
    within scope t = inside := by
  unfold within
  rw [h]

/-- The tag `t` has sound declarations, which give the scope `inside`, and it is not in the theme
namespace. -/
structure Tag.Foreign (scope inside : Scope) (t : Tag) : Prop where
  enter : scope.enter t.tag = .ok inside
  foreign : inside.namespace? t.name.bytes ≠ some (Text.Utf8.encode Overlay.themeNamespace)

/-- All namespace declarations of a forest are sound. -/
def Forest.Sound : Scope → Forest → Prop
  | _, .done _ => True
  | scope, .remark _ _ more => more.Sound scope
  | scope, .cdata _ _ more => more.Sound scope
  | scope, .empty _ t more => (∃ inside, scope.enter t.tag = .ok inside) ∧ more.Sound scope
  | scope, .element _ t inner _ more =>
    (∃ inside, scope.enter t.tag = .ok inside ∧ inner.Sound inside) ∧ more.Sound scope

/-- The second `Forest` is the first with foreign content put in, at any depth and at any points
between its pieces or inside its text. The scope is the one around the forest. -/
inductive Forest.Padded : Scope → Forest → Forest → Prop
  | done (scope : Scope) (t : Text) : Padded scope (.done t) (.done t)
  | remark {scope : Scope} (t : Text) (r : Remark) {f f' : Forest} :
    Padded scope f f' → Padded scope (.remark t r f) (.remark t r f')
  | cdata {scope : Scope} (t : Text) (s : Section) {f f' : Forest} :
    Padded scope f f' → Padded scope (.cdata t s f) (.cdata t s f')
  | empty {scope : Scope} (t : Text) (tag : Tag) {f f' : Forest} :
    Padded scope f f' → Padded scope (.empty t tag f) (.empty t tag f')
  | element {scope : Scope} (t : Text) (tag : Tag) (blanks : Blanks) {i i' f f' : Forest} :
    Padded (within scope tag) i i' → Padded scope f f' →
      Padded scope (.element t tag i blanks f) (.element t tag i' blanks f')
  | putRemark {scope : Scope} (t : Text) (r : Remark) {f f' : Forest} :
    Padded scope f f' → Padded scope (f.prepend t) (.remark t r f')
  | putEmpty {scope inside : Scope} (t : Text) {tag : Tag} (h : tag.Foreign scope inside)
    {f f' : Forest} : Padded scope f f' → Padded scope (f.prepend t) (.empty t tag f')
  | putElement {scope inside : Scope} (t : Text) {tag : Tag} (h : tag.Foreign scope inside)
    {inner : Forest} (hinner : inner.Sound inside) (blanks : Blanks) {f f' : Forest} :
    Padded scope f f' → Padded scope (f.prepend t) (.element t tag inner blanks f')

theorem Forest.Padded.refl (scope : Scope) (f : Forest) : Padded scope f f := by
  induction f generalizing scope with
  | done t => exact .done scope t
  | remark t r more ih => exact .remark t r (ih scope)
  | cdata t s more ih => exact .cdata t s (ih scope)
  | empty t tag more ih => exact .empty t tag (ih scope)
  | element t tag inner blanks more ih_inner ih_more =>
    exact .element t tag blanks (ih_inner _) (ih_more scope)

/-- The source `s'` is `s` with foreign content put in somewhere inside the root. -/
structure Padded (s s' : Source) : Prop where
  mark : s.mark = s'.mark
  prolog : s.prolog = s'.prolog
  space : s.space = s'.space
  root : s.root = s'.root
  content : ∃ f f' blanks, s.content = some (f, blanks) ∧ s'.content = some (f', blanks) ∧
    Forest.Padded (within .initial s.root) f f'
  epilog : s.epilog = s'.epilog

/-! ## Text in front -/

/-- The text in front of a `Forest`. -/
def Forest.lead : Forest → Text
  | .done t => t
  | .remark t _ _ => t
  | .cdata t _ _ => t
  | .empty t _ _ => t
  | .element t _ _ _ _ => t

/-- The content of a forest behind its `lead`. -/
def Forest.behind (charset : Charset) : Nat → Forest → Content
  | _, .done _ => .closed
  | o, .remark _ r more => .remark r.lexeme (more.content charset (o + r.lexeme.written.length))
  | o, .cdata _ s more =>
    .cdata o s.bytes (more.content charset (o + (Lexeme.cdata s.bytes).written.length))
  | o, .empty _ tag more =>
    .empty ⟨o, charset, tag.tag⟩
      (more.content charset (o + (Lexeme.emptyTag tag.tag).written.length))
  | o, .element _ tag inner blanks more =>
    let start := o + (Lexeme.startTag tag.tag).written.length
    .element ⟨o, charset, tag.tag⟩ (inner.content charset start)
      (more.content charset (start + inner.written.length + (tag.endTag blanks).written.length))

theorem Forest.content_eq (charset : Charset) (o : Nat) (f : Forest) :
    f.content charset o = f.lead.content o (f.behind charset (o + f.lead.bytes.length)) := by
  cases f <;> rfl

theorem Forest.content_prepend (charset : Charset) (o : Nat) (t : Text) (f : Forest) :
    (f.prepend t).content charset o =
      (t.append f.lead).content o
        (f.behind charset (o + t.bytes.length + f.lead.bytes.length)) := by
  have hlead : (f.prepend t).lead = t.append f.lead := by cases f <;> rfl
  have hbehind : ∀ o, (f.prepend t).behind charset o = f.behind charset o := by
    intro o
    cases f <;> rfl
  have hlength : (t.append f.lead).bytes.length = t.bytes.length + f.lead.bytes.length :=
    List.length_append
  rw [content_eq, hlead, hbehind, hlength, Nat.add_assoc]

end Markup.Source

namespace Overlay

open Markup (Charset Content Element Scope Source)
open Markup.Source (Forest Tag no_blanks no_text)

/-! ## Results without positions -/

/-- What is seen of a result: its value by the measure `f`, or the cause of its failure. -/
def seen {α β : Type} (f : α → β) : Reader.Result α → Except Cause β
  | .ok a => .ok (f a)
  | .error e => .error e.cause

section Seen

variable {α β γ δ : Type}

@[simp] theorem seen_refuse (f : α → β) (r : Reader) (offset : Nat) (cause : Cause) :
    seen f (r.refuse offset cause) = .error cause := rfl

theorem seen_bind {f : α → β} {g : γ → δ} {x x' : Reader.Result α} {k k' : α → Reader.Result γ}
    (hx : seen f x = seen f x') (hk : ∀ a a', f a = f a' → seen g (k a) = seen g (k' a')) :
    seen g (x >>= k) = seen g (x' >>= k') := by
  cases x with
  | error e =>
    cases x' with
    | error e' => exact congrArg Except.error (Except.error.inj hx)
    | ok a' => cases hx
  | ok a =>
    cases x' with
    | error e' => cases hx
    | ok a' => exact hk a a' (Except.ok.inj hx)

theorem seen_bind_id {g : γ → δ} {x x' : Reader.Result α} {k k' : α → Reader.Result γ}
    (hx : seen id x = seen id x') (hk : ∀ a, seen g (k a) = seen g (k' a)) :
    seen g (x >>= k) = seen g (x' >>= k') :=
  seen_bind hx fun a a' h => by obtain rfl : a = a' := h; exact hk a

end Seen

namespace Reader

variable {input input' : Bytes} {strict : Bool} {charset : Charset} {scope inside : Scope}

/-! ## Attributes -/

variable (o o' : Nat) (t : Markup.Tag)

theorem enter_seen (scope : Scope) :
    seen id ((Reader.mk input strict).enter scope ⟨o, charset, t⟩) =
      seen id ((Reader.mk input' strict).enter scope ⟨o', charset, t⟩) := by
  unfold enter
  cases scope.enter t <;> rfl

theorem value_seen [Markup.Decoders] (raw : Bytes) :
    seen id ((Reader.mk input strict).value ⟨o, charset, t⟩ raw) =
      seen id ((Reader.mk input' strict).value ⟨o', charset, t⟩ raw) := by
  unfold value
  cases charset.decode? raw with
  | none => rfl
  | some text => simp only; cases Markup.unescape text <;> rfl

theorem valuesOf_seen [Markup.Decoders] (keys : List String) (as : List Markup.Attribute) :
    seen id ((Reader.mk input strict).valuesOf ⟨o, charset, t⟩ keys as) =
      seen id ((Reader.mk input' strict).valuesOf ⟨o', charset, t⟩ keys as) := by
  induction as with
  | nil => rfl
  | cons a as ih =>
    simp only [valuesOf]
    split
    · exact ih
    split
    · refine seen_bind_id (value_seen o o' t a.value) fun v => ?_
      exact seen_bind_id ih fun vs => rfl
    split
    · rfl
    · exact ih

theorem values_seen [Markup.Decoders] (keys : List String) :
    seen id ((Reader.mk input strict).values ⟨o, charset, t⟩ keys) =
      seen id ((Reader.mk input' strict).values ⟨o', charset, t⟩ keys) := by
  unfold values
  refine seen_bind_id (valuesOf_seen o o' t keys _) fun vs => ?_
  simp only
  cases t.attributes.fault <;> rfl

theorem requiredName_seen (vs : Values) :
    seen id ((Reader.mk input strict).requiredName ⟨o, charset, t⟩ vs) =
      seen id ((Reader.mk input' strict).requiredName ⟨o', charset, t⟩ vs) := by
  unfold requiredName
  split
  · rfl
  · split <;> rfl

theorem optional_seen {α ε : Type} (parse : String → Except ε α) (cause : String → ε → Cause)
    (value : Option String) :
    seen id ((Reader.mk input strict).optional ⟨o, charset, t⟩ parse cause value) =
      seen id ((Reader.mk input' strict).optional ⟨o', charset, t⟩ parse cause value) := by
  cases value with
  | none => rfl
  | some v =>
    simp only [optional]
    split
    · rfl
    · cases parse v <;> rfl

theorem colorName_seen (name : String) :
    seen id ((Reader.mk input strict).colorName ⟨o, charset, t⟩ name) =
      seen id ((Reader.mk input' strict).colorName ⟨o', charset, t⟩ name) := by
  unfold colorName
  split
  · rfl
  · split <;> rfl

/-! ## What is passed over -/

theorem skip_text (r : Reader) (name : String) (scope : Scope) (t : Source.Text) (o : Nat)
    (more : Content) : r.skip name scope (t.content o more) = r.skip name scope more := by
  unfold Source.Text.content
  split <;> rfl

theorem skip_prepend (r : Reader) (name : String) (scope : Scope) (t : Source.Text) (o : Nat)
    (f : Forest) :
    r.skip name scope ((f.prepend t).content charset o) =
      r.skip name scope (f.content charset (o + t.bytes.length)) := by
  rw [Forest.content_prepend, skip_text, Forest.content_eq, skip_text]

/-- Nothing fails in a forest with sound declarations. -/
theorem skip_sound (r : Reader) (name : String) {f : Forest} (hf : f.Sound scope) (o : Nat) :
    r.skip name scope (f.content charset o) = .ok () := by
  induction f generalizing scope o with
  | done t => rw [Forest.content, skip_text, skip]
  | remark t l more ih => rw [Forest.content, skip_text, skip]; exact ih hf _
  | cdata t s more ih => rw [Forest.content, skip_text, skip]; exact ih hf _
  | empty t tag more ih =>
    obtain ⟨⟨inside, henter⟩, hmore⟩ := hf
    rw [Forest.content, skip_text, skip, enter_then _ henter]
    exact ih hmore _
  | element t tag inner blanks more ih_inner ih_more =>
    obtain ⟨⟨inside, henter, hinner⟩, hmore⟩ := hf
    rw [Forest.content, skip_text, skip, enter_then _ henter, ih_inner hinner]
    exact ih_more hmore _

/-- **A foreign element may be padded**: it is passed over as before. -/
theorem skip_padded {f f' : Forest} (h : Forest.Padded scope f f') (name : String) (o o' : Nat) :
    seen id ((Reader.mk input strict).skip name scope (f.content charset o)) =
      seen id ((Reader.mk input' strict).skip name scope (f'.content charset o')) := by
  -- by induction on the padding, since it carries the scope of each piece
  induction h generalizing name o o' with
  | done scope t => rw [Forest.content, Forest.content, skip_text, skip_text]; rfl
  | remark t l _ ih =>
    rw [Forest.content, Forest.content, skip_text, skip_text, skip, skip]
    exact ih name _ _
  | cdata t s _ ih =>
    rw [Forest.content, Forest.content, skip_text, skip_text, skip, skip]
    exact ih name _ _
  | empty t tag _ ih =>
    rw [Forest.content, Forest.content, skip_text, skip_text, skip, skip]
    exact seen_bind_id (enter_seen _ _ tag.tag _) fun _ => ih name _ _
  | @element scope t tag blanks i i' f f' hi hf ih_inner ih_more =>
    rw [Forest.content, Forest.content, skip_text, skip_text, skip, skip]
    cases hs : scope.enter tag.tag with
    | error fault => rw [enter_refused _ hs, enter_refused _ hs]; rfl
    | ok inside =>
      rw [enter_then _ hs, enter_then _ hs]
      rw [Source.within_of_enter hs] at ih_inner
      exact seen_bind_id (ih_inner name _ _) fun _ => ih_more name _ _
  | putRemark t l _ ih =>
    rw [skip_prepend, Forest.content, skip_text, skip]
    exact ih name _ _
  | putEmpty t h _ ih =>
    rw [skip_prepend, Forest.content, skip_text, skip, enter_then _ h.enter]
    exact ih name _ _
  | putElement t h hinner blanks _ ih =>
    rw [skip_prepend, Forest.content, skip_text, skip, enter_then _ h.enter,
      skip_sound _ name hinner]
    exact ih name _ _

/-! ## Children -/

/-- Contents of one element, without and with padding, each wherever it stands: `none` for an
element of one tag. -/
inductive Alike (charset : Charset) (inside : Scope) : Option Content → Option Content → Prop
  | none : Alike charset inside none none
  | some (o o' : Nat) {f f' : Forest} (h : Forest.Padded inside f f') :
    Alike charset inside (some (f.content charset o)) (some (f'.content charset o'))

/-- The readers `child` and `child'` of an element see the same by the measure `f`. -/
def SeeAlike {α β : Type} (charset : Charset) (f : α → β)
    (child child' : Scope → Element → Option Content → Result α) : Prop :=
  ∀ (inside : Scope) (o o' : Nat) (t : Markup.Tag) (c c' : Option Content),
    Alike charset inside c c' →
      seen f (child inside ⟨o, charset, t⟩ c) = seen f (child' inside ⟨o', charset, t⟩ c')

theorem not_isThemed {t : Tag} (h : t.Foreign scope inside) (o : Nat) :
    ¬ isThemed inside ⟨o, charset, t.tag⟩ = true := by
  simpa [isThemed, Source.Tag.tag] using h.foreign

section Children

variable {α β : Type} {parent : String} {f : α → β}
  {child child' : Scope → Element → Option Content → Result α}

/-- The text `t` in front of what is put in is seen as text in front of what follows. -/
theorem seen_prepend (r : Reader) (t : Source.Text) (o : Nat) (forest : Forest)
    (h : ¬ (r.strict = true ∧ t.bytes.all Markup.isBlankByte = false)) :
    seen (List.map f) (r.children parent child scope ((forest.prepend t).content charset o)) =
      seen (List.map f)
        (r.children parent child scope (forest.content charset (o + t.bytes.length))) := by
  rw [Forest.content_prepend, Forest.content_eq, children_text, children_text]
  have hall : (t.append forest.lead).bytes.all Markup.isBlankByte =
      (t.bytes.all Markup.isBlankByte && forest.lead.bytes.all Markup.isBlankByte) :=
    List.all_append
  cases hs : r.strict with
  | false => simp
  | true =>
    have ht : t.bytes.all Markup.isBlankByte = true := by simpa [hs] using h
    -- both are refused for the text that follows, at different places, or neither is
    rw [hall, ht, Bool.true_and]
    split <;> rfl

/-- The text `t`, which the schema forbids, is refused, whatever follows it. -/
theorem children_prepend_refused (r : Reader) (t : Source.Text) (o : Nat) (forest : Forest)
    (h : r.strict = true ∧ t.bytes.all Markup.isBlankByte = false) :
    r.children parent child scope ((forest.prepend t).content charset o) =
      r.refuse o (.textInside parent) := by
  have hall : (t.append forest.lead).bytes.all Markup.isBlankByte = false := by
    rw [Source.Text.append, List.all_append, h.2, Bool.false_and]
  rw [Forest.content_prepend, children_text, if_pos ⟨h.1, hall⟩]

/-- The text `t` and what is passed over behind it are seen as the text alone. -/
theorem seen_put {g g' : Forest} {more : Content} (t : Source.Text) (o o' o'' : Nat)
    (hmore : seen (List.map f) ((Reader.mk input' strict).children parent child' scope more) =
      seen (List.map f) ((Reader.mk input' strict).children parent child' scope
        (g'.content charset o'')))
    (ih : ∀ o o', seen (List.map f) ((Reader.mk input strict).children parent child scope
        (g.content charset o)) =
      seen (List.map f) ((Reader.mk input' strict).children parent child' scope
        (g'.content charset o'))) :
    seen (List.map f) ((Reader.mk input strict).children parent child scope
        ((g.prepend t).content charset o)) =
      seen (List.map f) ((Reader.mk input' strict).children parent child' scope
        (t.content o' more)) := by
  rw [children_text]
  by_cases h : strict = true ∧ t.bytes.all Markup.isBlankByte = false
  · rw [children_prepend_refused _ t o g h, if_pos h]
    rfl
  · rw [seen_prepend _ t o g h, if_neg h, hmore]
    exact ih _ _

/-- The same text `t` in front of two contents that are seen alike. -/
theorem seen_text {more more' : Content} (t : Source.Text) (o o' : Nat)
    (h : seen (List.map f) ((Reader.mk input strict).children parent child scope more) =
      seen (List.map f) ((Reader.mk input' strict).children parent child' scope more')) :
    seen (List.map f) ((Reader.mk input strict).children parent child scope (t.content o more)) =
      seen (List.map f)
        ((Reader.mk input' strict).children parent child' scope (t.content o' more')) := by
  rw [children_text, children_text]
  split
  · rfl
  · exact h

/-- A child and those behind it are seen alike if each of them is. -/
theorem seen_cons {x x' : Result α} {xs xs' : Result (List α)} (hx : seen f x = seen f x')
    (hxs : seen (List.map f) xs = seen (List.map f) xs') :
    seen (List.map f) (do let a ← x; let as ← xs; pure (a :: as)) =
      seen (List.map f) (do let a ← x'; let as ← xs'; pure (a :: as)) := by
  refine seen_bind hx fun a a' ha => seen_bind hxs fun as as' has => ?_
  exact congrArg Except.ok (by rw [List.map_cons, List.map_cons, ha, has])

/-- **The children of an element may be padded**: those in the theme namespace are seen as before,
in the same scopes. -/
theorem children_padded {g g' : Forest} (h : Forest.Padded scope g g')
    (hchild : SeeAlike charset f child child') (o o' : Nat) :
    seen (List.map f) ((Reader.mk input strict).children parent child scope
        (g.content charset o)) =
      seen (List.map f) ((Reader.mk input' strict).children parent child' scope
        (g'.content charset o')) := by
  induction h generalizing o o' with
  | done scope t => exact seen_text t o o' rfl
  | remark t l _ ih => exact seen_text t o o' (ih _ _)
  | cdata t s _ ih =>
    refine seen_text t o o' ?_
    simp only [children]
    split
    · rfl
    · exact ih _ _
  | @empty scope t tag g g' _ ih =>
    refine seen_text t o o' ?_
    rw [children, children]
    cases hs : scope.enter tag.tag with
    | error fault => rw [enter_refused _ hs, enter_refused _ hs]; rfl
    | ok inside =>
      obtain ⟨b, hb⟩ : ∃ b, ∀ o, isThemed inside ⟨o, charset, tag.tag⟩ = b :=
        ⟨isThemed inside ⟨0, charset, tag.tag⟩, fun _ => rfl⟩
      rw [enter_then _ hs, enter_then _ hs, hb, hb]
      cases b with
      | true => exact seen_cons (hchild inside _ _ _ _ _ .none) (ih _ _)
      | false => exact ih _ _
  | @element scope t tag blanks i i' g g' hi _ _ ih_more =>
    refine seen_text t o o' ?_
    rw [children, children]
    cases hs : scope.enter tag.tag with
    | error fault => rw [enter_refused _ hs, enter_refused _ hs]; rfl
    | ok inside =>
      rw [Source.within_of_enter hs] at hi
      obtain ⟨b, hb⟩ : ∃ b, ∀ o, isThemed inside ⟨o, charset, tag.tag⟩ = b :=
        ⟨isThemed inside ⟨0, charset, tag.tag⟩, fun _ => rfl⟩
      rw [enter_then _ hs, enter_then _ hs, hb, hb]
      cases b with
      | true => exact seen_cons (hchild inside _ _ _ _ _ (.some _ _ hi)) (ih_more _ _)
      | false =>
        -- a foreign element is passed over, padded or not
        exact seen_bind_id (skip_padded hi _ _ _) fun _ => ih_more _ _
  -- what is put in leaves its text to what follows, and is passed over itself
  | putRemark t l _ ih => exact seen_put t o o' _ rfl ih
  | @putEmpty scope inside t tag h g g' _ ih =>
    refine seen_put t o o'
      (o' + t.bytes.length + (Markup.Lexeme.emptyTag tag.tag).written.length) ?_ ih
    rw [children, enter_then _ h.enter, if_neg (not_isThemed h _)]
  | @putElement scope inside t tag h inner hinner blanks g g' _ ih =>
    refine seen_put t o o'
      (o' + t.bytes.length + (Markup.Lexeme.startTag tag.tag).written.length +
        inner.written.length + (tag.endTag blanks).written.length) ?_ ih
    rw [children, enter_then _ h.enter, if_neg (not_isThemed h _),
      skip_sound _ _ hinner]
    rfl

theorem childrenOf_alike {c c' : Option Content} (h : Alike charset inside c c')
    (hchild : SeeAlike charset f child child') :
    seen (List.map f) ((Reader.mk input strict).childrenOf parent child inside c) =
      seen (List.map f) ((Reader.mk input' strict).childrenOf parent child' inside c') := by
  cases h with
  | none => rfl
  | some o o' h => exact children_padded h hchild o o'

end Children

theorem leaf_alike {c c' : Option Content} (h : Alike charset inside c c') (name : String) :
    seen id ((Reader.mk input strict).leaf name inside c) =
      seen id ((Reader.mk input' strict).leaf name inside c') :=
  seen_bind (f := List.map id) (childrenOf_alike h fun _ _ _ _ _ _ _ => rfl) fun _ _ _ => rfl

/-! ## Declarations -/

/-- A colour without its position. -/
def bareColor (d : ColorDeclaration) : ColorDeclaration := { d with position := none }

/-- A colour set without positions. -/
def bareSet (d : SetDeclaration) : SetDeclaration :=
  { d with colors := d.colors.map bareColor, position := none }

def bareProperty (d : PropertyDeclaration) : PropertyDeclaration := { d with position := none }

def bareStyle (d : StyleDeclaration) : StyleDeclaration := { d with position := none }

theorem colorOfValues_seen (o o' : Nat) (t : Markup.Tag) (vs : Values) :
    seen bareColor ((Reader.mk input strict).colorOfValues ⟨o, charset, t⟩ vs) =
      seen bareColor ((Reader.mk input' strict).colorOfValues ⟨o', charset, t⟩ vs) := by
  unfold colorOfValues
  refine seen_bind_id (colorName_seen _ _ _ _) fun name => ?_
  refine seen_bind_id (optional_seen _ _ _ _ _ _) fun foreground => ?_
  refine seen_bind_id (optional_seen _ _ _ _ _ _) fun background => ?_
  refine seen_bind_id (optional_seen _ _ _ _ _ _) fun underline => ?_
  refine seen_bind_id (optional_seen _ _ _ _ _ _) fun fontWeight => ?_
  exact seen_bind_id (optional_seen _ _ _ _ _ _) fun fontStyle => rfl

theorem color_alike [Markup.Decoders] : SeeAlike charset bareColor (Reader.mk input strict).color
    (Reader.mk input' strict).color := by
  intro inside o o' t c c' h
  unfold color
  refine seen_bind_id (values_seen o o' t _) fun vs => ?_
  refine seen_bind (colorOfValues_seen o o' t vs) fun d d' hd => ?_
  exact seen_bind_id (leaf_alike h _) fun _ => congrArg Except.ok hd

theorem setChild_alike [Markup.Decoders] :
    SeeAlike charset bareColor (Reader.mk input strict).setChild
    (Reader.mk input' strict).setChild := by
  intro inside o o' t c c' h
  simp only [setChild]
  split
  · exact color_alike inside o o' t c c' h
  · split <;> rfl

theorem colorSet_alike [Markup.Decoders] :
    SeeAlike charset bareSet (Reader.mk input strict).colorSet
    (Reader.mk input' strict).colorSet := by
  intro inside o o' t c c' h
  unfold colorSet
  refine seen_bind_id (values_seen o o' t _) fun vs => ?_
  refine seen_bind_id (requiredName_seen o o' t vs) fun name => ?_
  refine seen_bind (childrenOf_alike h setChild_alike) fun ds ds' hds => ?_
  exact congrArg Except.ok (by simp only [bareSet, hds])

theorem property_alike [Markup.Decoders] :
    SeeAlike charset bareProperty (Reader.mk input strict).property
    (Reader.mk input' strict).property := by
  intro inside o o' t c c' h
  unfold property
  refine seen_bind_id (values_seen o o' t _) fun vs => ?_
  refine seen_bind_id (requiredName_seen o o' t vs) fun name => ?_
  exact seen_bind_id (leaf_alike h _) fun _ => rfl

theorem globalStyle_alike [Markup.Decoders] :
    SeeAlike charset bareStyle (Reader.mk input strict).globalStyle
    (Reader.mk input' strict).globalStyle := by
  intro inside o o' t c c' h
  simp only [globalStyle]
  split
  · rfl
  refine seen_bind_id (values_seen o o' t _) fun vs => ?_
  refine seen_bind_id (optional_seen _ _ _ _ _ _) fun foreground => ?_
  refine seen_bind_id (optional_seen _ _ _ _ _ _) fun background => ?_
  refine seen_bind_id (optional_seen _ _ _ _ _ _) fun border => ?_
  exact seen_bind_id (leaf_alike h _) fun _ => rfl

theorem globalStyles_alike [Markup.Decoders] :
    SeeAlike charset (List.map bareStyle) (Reader.mk input strict).globalStyles
      (Reader.mk input' strict).globalStyles := by
  intro inside o o' t c c' h
  unfold globalStyles
  refine seen_bind_id (values_seen o o' t _) fun vs => ?_
  exact childrenOf_alike h globalStyle_alike

theorem rootChild_alike [Markup.Decoders] :
    SeeAlike charset (List.map Declaration.unplaced) (Reader.mk input strict).rootChild
      (Reader.mk input' strict).rootChild := by
  intro inside o o' t c c' h
  simp only [rootChild]
  split
  · refine seen_bind (colorSet_alike inside o o' t c c' h) fun d d' hd => ?_
    exact congrArg (fun d => Except.ok [Declaration.colorSet d]) hd
  split
  · refine seen_bind (property_alike inside o o' t c c' h) fun d d' hd => ?_
    exact congrArg (fun d => Except.ok [Declaration.property d]) hd
  split
  · refine seen_bind (globalStyles_alike inside o o' t c c' h) fun ds ds' hds => ?_
    have hmap : ∀ ds : List StyleDeclaration,
        (ds.map Declaration.globalStyle).map Declaration.unplaced =
          (ds.map bareStyle).map Declaration.globalStyle := fun ds => by
      rw [List.map_map, List.map_map]
      rfl
    exact congrArg Except.ok (by rw [hmap, hmap, hds])
  split <;> rfl

/-- **The root may be padded**: the document is seen as before. -/
theorem root_alike [Markup.Decoders] (o o' : Nat) (t : Tag) {c c' : Option Content}
    (h : Alike charset (Source.within .initial t) c c') :
    seen Document.unplaced ((Reader.mk input strict).root ⟨o, charset, t.tag⟩ c) =
      seen Document.unplaced ((Reader.mk input' strict).root ⟨o', charset, t.tag⟩ c') := by
  unfold root
  cases hs : Scope.initial.enter t.tag with
  | error fault => rw [enter_refused _ hs, enter_refused _ hs]; rfl
  | ok inside =>
    rw [Source.within_of_enter hs] at h
    rw [enter_then _ hs, enter_then _ hs]
    obtain ⟨b, hb⟩ : ∃ b, ∀ o, isThemed inside ⟨o, charset, t.tag⟩ = b :=
      ⟨isThemed inside ⟨0, charset, t.tag⟩, fun _ => rfl⟩
    rw [hb, hb]
    split
    · refine seen_bind_id (values_seen o o' t.tag _) fun vs => ?_
      refine seen_bind_id (requiredName_seen o o' t.tag vs) fun name => ?_
      refine seen_bind (childrenOf_alike h rootChild_alike) fun ds ds' hds => ?_
      have hflat := congrArg List.flatten hds
      rw [← List.map_flatten, ← List.map_flatten] at hflat
      exact congrArg Except.ok (by simp only [Document.unplaced, hflat])
    · rfl

end Reader

/-- **Foreign content is invisible.** Comments, instructions and foreign elements put in anywhere
inside the root change nothing about what is read, strictly or leniently: the same document up to
positions, or a failure of the same cause. -/
theorem read_padded [Markup.Decoders] (s s' : Source) (h : s.Padded s') (strict : Bool) :
    seen Document.unplaced (read s.bytes strict) =
      seen Document.unplaced (read s'.bytes strict) := by
  obtain ⟨f, f', blanks, hf, hf', hpadded⟩ := h.content
  have hcharset : s.charset = s'.charset := by rw [Source.charset, Source.charset, h.prolog]
  have halike : Reader.Alike s.charset (Source.within .initial s.root) s.inner s'.inner := by
    rw [Source.inner, Source.inner, hf, hf', ← hcharset]
    exact .some _ _ hpadded
  have helement : s'.element = ⟨s'.offset, s.charset, s.root.tag⟩ := by
    rw [Source.element, h.root, hcharset]
  rw [read_bytes, read_bytes, helement]
  exact Reader.root_alike s.offset s'.offset s.root halike

/-- A foreign tag that binds the prefix of `dawn` to something else. -/
def foreignTag : Tag :=
  .simple "a" [.simple "xmlns:t" "x" isName_binding.nonempty isName_binding.named]

/-- The overlay `dawn` with a comment and a foreign element that repeats its content. -/
def paddedDawn : Source where
  root := dawn.root
  content := some
    (.remark ⟨[], no_text⟩ (.comment (Text.Utf8.encode " b ") (by decide))
      (.element ⟨[], no_text⟩ foreignTag dawnContent ⟨[], no_blanks⟩ dawnContent),
      ⟨[], no_blanks⟩)

theorem dawn_padded : dawn.Padded paddedDawn := by
  have hroot : Scope.initial.enter dawn.root.tag =
      .ok ⟨([0x74], Text.Utf8.encode themeNamespace) :: Scope.initial.bindings⟩ := by
    rw [Source.Tag.enter_tag]
    rfl
  have hforeign : foreignTag.Foreign
      ⟨([0x74], Text.Utf8.encode themeNamespace) :: Scope.initial.bindings⟩
      ⟨([0x74], [0x78]) :: ([0x74], Text.Utf8.encode themeNamespace) ::
        Scope.initial.bindings⟩ := by
    refine ⟨?_, by decide⟩
    rw [Source.Tag.enter_tag]
    rfl
  have hsound : ∀ scope : Scope, dawnContent.Sound scope := fun scope => by
    refine ⟨⟨scope, ?_⟩, trivial⟩
    rw [Source.Tag.enter_tag]
    rfl
  refine ⟨rfl, rfl, rfl, rfl, ⟨_, _, _, rfl, rfl, ?_⟩, rfl⟩
  rw [Source.within_of_enter hroot]
  exact .putRemark (f := dawnContent) ⟨[], by simp⟩ _
    (.putElement (f := dawnContent) ⟨[], by simp⟩ hforeign (hsound _) _ (.refl _ dawnContent))

/-- What `paddedDawn` puts into the overlay `dawn` is not seen. -/
theorem read_paddedDawn : dawn.Padded paddedDawn ∧
    seen Document.unplaced (read dawn.bytes true) =
      seen Document.unplaced (read paddedDawn.bytes true) :=
  ⟨dawn_padded, read_padded dawn paddedDawn dawn_padded true⟩

/-! ## What is seen inside -/

theorem plain_read : ∃ d, read plain.bytes false = .ok d := by
  have hregular : plain.Regular := ⟨_, plainRoot_regular, fun c hc => by cases hc; trivial⟩
  have hoverlay : plain.IsOverlay false :=
    ⟨by decide +kernel, fun c hc => (List.not_mem_nil hc).elim, by simp, by simp, by simp⟩
  refine ⟨plain.document, ?_⟩
  rw [read_bytes]
  exact (root_source_ok_iff plain hregular false _).2 ⟨hoverlay, rfl⟩

/-- A document type that is taken to end inside the comment of `plainAround`. -/
def lateDoctype : Source.Doctype where
  body := Text.Utf8.encode " t [<!ENTITY e \"<\">]>" ++
    ((Markup.Lexeme.startTag plainRoot.tag).written ++ Text.Utf8.encode "<!-- >")
  named := by decide
  balanced := by decide +kernel
  closes := Source.Doctype.closes_of_lt (by decide +kernel)

/-- The ASCII text `s` in UTF-16, the lower byte of each character first. -/
def wide (s : String) : Bytes := (Text.Utf8.encode s).flatMap ([·, 0x00])

/-- The bytes behind the `<` of an overlay in UTF-16, up to the end of its namespace and on. The
name of the overlay is U+2200, whose higher byte is that of a quote. -/
def wideOpen (more : String) : Bytes :=
  0x00 :: (wide "ThemeSyntaxDefinition name=\"" ++ [0x00, 0x22] ++
    wide ("\" xmlns=\"" ++ themeNamespace ++ more))

/-- The overlay of `wideOpen` with `inside` in its root. -/
def wideAround (inside : String) : Bytes :=
  0xFF :: 0xFE :: 0x3C :: wideOpen ("\">" ++ inside ++ "</ThemeSyntaxDefinition>")

theorem scan_wideOpen (more : String) :
    Markup.Lexeme.scan (0x3C :: wideOpen more) = Markup.scanTag (wideOpen more) :=
  Source.scan_of_ne (by decide) _

theorem seen_instruction : seen Document.unplaced (readText (plainAround "") false) ≠
    seen Document.unplaced (readText (plainAround "<?n a>b?>") false) := by
  have hwritten : Text.Utf8.encode (plainAround "") = plain.bytes := by
    rw [encode_plainAround]
    simp [Source.bytes, Source.markup, Source.body, plain, Source.Prolog.written, Forest.written,
      Text.Utf8.encode]
  obtain ⟨d, hd⟩ := plain_read
  obtain ⟨f, hf⟩ := plainAround_instruction
  rw [hf, readText, hwritten, hd]
  simp [seen]

/-- The document type ends nowhere, or inside the comment. -/
theorem seen_doctype :
    seen Document.unplaced
        (readText ("<!DOCTYPE t [<!ENTITY e \"<\">]>" ++ plainAround "") false) ≠
      seen Document.unplaced
        (readText ("<!DOCTYPE t [<!ENTITY e \"<\">]>" ++ plainAround "<!-- >> -->") false) := by
  have htype : Text.Utf8.encode "<!DOCTYPE t [<!ENTITY e \"<\">]>" =
      0x3C :: (Markup.doctypeOpener ++ Text.Utf8.encode " t [<!ENTITY e \"<\">]>") := by decide
  have hbroken : Markup.Lexeme.scan
      (Text.Utf8.encode ("<!DOCTYPE t [<!ENTITY e \"<\">]>" ++ plainAround "")) =
        .broken (.unclosed .doctype) := by
    rw [Text.Utf8.encode_append, htype, encode_plainAround, List.cons_append, List.append_assoc]
    exact Source.scan_doctype_broken (Source.Doctype.closes_of_lt (by decide +kernel))
  have hmark : Markup.withoutMark
      (Text.Utf8.encode ("<!DOCTYPE t [<!ENTITY e \"<\">]>" ++ plainAround "")) =
      (.utf8, Source.Prolog.written [] ++
        Text.Utf8.encode ("<!DOCTYPE t [<!ENTITY e \"<\">]>" ++ plainAround "")) := by
    rw [Text.Utf8.encode_append, htype]
    rfl
  have hinside : Text.Utf8.encode "<!-- >> -->" =
      Text.Utf8.encode "<!-- >" ++ 0x3E :: Text.Utf8.encode " -->" := by decide
  have hmark' : Markup.withoutMark
      (Text.Utf8.encode ("<!DOCTYPE t [<!ENTITY e \"<\">]>" ++ plainAround "<!-- >> -->")) =
      (.utf8, Source.Prolog.written [(⟨[], rfl⟩, .doctype lateDoctype)] ++
        (Text.Utf8.encode " -->" ++ (plainRoot.endTag ⟨[], rfl⟩).written)) := by
    rw [Text.Utf8.encode_append, htype, encode_plainAround, hinside]
    simp [Source.Prolog.written, Source.Prelude.lexeme, lateDoctype, Markup.Lexeme.written]
    rfl
  rw [readText, readText, read_broken [] hmark hbroken,
    read_text_before_root _ ⟨_, by decide⟩ hmark' rfl (by decide)]
  simp

/-- The start tag of `wideOpen` ends nowhere, or inside the comment. -/
theorem seen_wide : seen Document.unplaced (read (wideAround "") false) ≠
    seen Document.unplaced (read (wideAround "<!-- \" -->") false) := by
  have hopen : Markup.closeTag none (wideOpen "\"></ThemeSyntaxDefinition>") = none := by
    decide +kernel
  have hbroken : Markup.Lexeme.scan (0x3C :: wideOpen "\"></ThemeSyntaxDefinition>") =
      .broken (.unclosed .tag) := by
    rw [scan_wideOpen, Markup.scanTag, hopen]
  have hclose : Markup.closeTag none (wideOpen "\"><!-- \" --></ThemeSyntaxDefinition>") =
      some (wideOpen "\"><!-- \" --", 0x00 :: wide "</ThemeSyntaxDefinition>") := by
    decide +kernel
  have hlast : (wideOpen "\"><!-- \" --").getLast? ≠ some 0x2F := by decide +kernel
  have hfound : Markup.Lexeme.scan (0x3C :: wideOpen "\"><!-- \" --></ThemeSyntaxDefinition>") =
      .found (.startTag (.ofContent (wideOpen "\"><!-- \" --")))
        (0x00 :: wide "</ThemeSyntaxDefinition>") := by
    rw [scan_wideOpen, Markup.scanTag, hclose]
    simp only [if_neg hlast]
  have henter : Scope.initial.enter (.ofContent (wideOpen "\"><!-- \" --")) = .ok .initial := by
    decide +kernel
  have hforeign :
      Scope.initial.namespace? (Markup.Tag.ofContent (wideOpen "\"><!-- \" --")).name ≠
        some (Text.Utf8.encode themeNamespace) := by decide +kernel
  rw [read_broken [] (by rfl) hbroken, read_wrong_root [] (by rfl) hfound henter hforeign]
  simp

/-- An instruction with `>`, a comment behind a document type with `<`, and a comment in UTF-16 may
be seen. -/
theorem seen_inside :
    seen Document.unplaced (readText (plainAround "") false) ≠
      seen Document.unplaced (readText (plainAround "<?n a>b?>") false) ∧
    seen Document.unplaced
        (readText ("<!DOCTYPE t [<!ENTITY e \"<\">]>" ++ plainAround "") false) ≠
      seen Document.unplaced
        (readText ("<!DOCTYPE t [<!ENTITY e \"<\">]>" ++ plainAround "<!-- >> -->") false) ∧
    seen Document.unplaced (read (wideAround "") false) ≠
      seen Document.unplaced (read (wideAround "<!-- \" -->") false) :=
  ⟨seen_instruction, seen_doctype, seen_wide⟩

end Overlay

end Livery
