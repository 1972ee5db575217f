import Livery.Proofs.Offsets
import Livery.Proofs.Places

/-!
# Reading at other places

Two readers go through the same pieces of markup, each in a text of its own. They come to the same
document or to the same cause of failure, and what is at positions in one text is at the
corresponding positions in the other. With one text on both sides this says where positions may lie
at all.

* `Matches`: how two results compare, with `Matches.bind` for steps in a row.
* `Reader.Track.children_matches`: the children of an element, whatever reads each of them.
* `Reader.Track.document_matches`: a whole document.
* `read_matches`: two texts with the same markup.
-/

namespace Livery.Overlay

open Markup (Content Element Scope)

/-! ## Documents and results -/

variable {α α' β β' ε : Type} {P : Position → Position → Prop}

/-- Both positions are recorded, and they correspond by `P`. -/
def Placed (P : Position → Position → Prop) (p p' : Option Position) : Prop :=
  ∃ q q', p = some q ∧ p' = some q' ∧ P q q'

/-- The same colour at positions that correspond by `P`. -/
structure ColorDeclaration.Alike (P : Position → Position → Prop) (d d' : ColorDeclaration) :
    Prop where
  bare : { d with position := none } = { d' with position := none }
  placed : Placed P d.position d'.position

/-- The same declaration, with everything in it at positions that correspond by `P`. -/
structure Declaration.Alike (P : Position → Position → Prop) (d d' : Declaration) : Prop where
  unplaced : d.unplaced = d'.unplaced
  items : List.Forall₂ (fun i i' => Placed P i.position i'.position) d.items d'.items

/-- The same document up to positions, and these correspond by `P`. -/
structure Document.Alike (P : Position → Position → Prop) (d d' : Document) : Prop where
  unplaced : d.unplaced = d'.unplaced
  items : List.Forall₂ (fun i i' => Placed P i.position i'.position) d.items d'.items

theorem map_eq_of_forall₂ {f : α → β} {l l' : List α}
    (h : List.Forall₂ (fun a b => f a = f b) l l') : l.map f = l'.map f := by
  rw [← List.forall₂_eq_eq_eq, List.forall₂_map_left_iff, List.forall₂_map_right_iff]
  exact h

theorem Declaration.alike_colorSet {d d' : SetDeclaration} (hname : d.name = d'.name)
    (hextensions : d.extensions = d'.extensions) (hplaced : Placed P d.position d'.position)
    (hcolors : List.Forall₂ (ColorDeclaration.Alike P) d.colors d'.colors) :
    Declaration.Alike P (.colorSet d) (.colorSet d') := by
  refine ⟨?_, .cons hplaced ?_⟩
  · have hbare := map_eq_of_forall₂ (hcolors.imp fun _ _ h => h.bare)
    simp only [unplaced, hname, hextensions, hbare]
  · rw [List.forall₂_map_left_iff, List.forall₂_map_right_iff]
    exact hcolors.imp fun _ _ h => h.placed

theorem Document.alike_of_declarations {d d' : Document} (hname : d.name = d'.name)
    (h : List.Forall₂ (Declaration.Alike P) d.declarations d'.declarations) :
    Document.Alike P d d' := by
  refine ⟨?_, List.rel_flatMap h fun _ _ hd => hd.items⟩
  have hbare := map_eq_of_forall₂ (h.imp fun _ _ h => h.unplaced)
  simp only [unplaced, hname, hbare]

/-- Two results of the same step: values that compare by `V`, or failures of the same cause at
positions that correspond by `P`. -/
inductive Matches (P : Position → Position → Prop) (V : α → α' → Prop) :
    Reader.Result α → Reader.Result α' → Prop
  | ok {a : α} {a' : α'} (h : V a a') : Matches P V (.ok a) (.ok a')
  | error {p p' : Position} (h : P p p') (cause : Cause) :
    Matches P V (.error ⟨p, cause⟩) (.error ⟨p', cause⟩)

namespace Matches

variable {V : α → α' → Prop} {W : β → β' → Prop} {x : Reader.Result α} {x' : Reader.Result α'}

/-- **Steps in a row** compare as their parts do. -/
theorem bind (h : Matches P V x x') {k : α → Reader.Result β} {k' : α' → Reader.Result β'}
    (hk : ∀ a a', V a a' → Matches P W (k a) (k' a')) : Matches P W (x >>= k) (x' >>= k') := by
  cases h with
  | ok hv => exact hk _ _ hv
  | error hp cause => exact .error hp cause

/-- Steps in a row where the first one gives the same to both. -/
theorem bind_eq {x x' : Reader.Result α} (h : Matches P (· = ·) x x') {k : α → Reader.Result β}
    {k' : α → Reader.Result β'} (hk : ∀ a, Matches P W (k a) (k' a)) :
    Matches P W (x >>= k) (x' >>= k') :=
  h.bind fun a _ heq => heq ▸ hk a

end Matches

namespace Reader

/-- The readers `r` and `r'` are of equal strictness, and offsets in the two texts have positions
that correspond. -/
structure Track (P : Position → Position → Prop) (R : Nat → Nat → Prop) (r r' : Reader) :
    Prop where
  strict : r.strict = r'.strict
  position : ∀ {o o' : Nat}, R o o' → P (r.position o) (r'.position o')

/-- The functions `child` and `child'` that read an element, each with its own reader. -/
def ChildMatches [Markup.Decoders] (P : Position → Position → Prop) (R : Nat → Nat → Prop)
    (V : α → α' → Prop) (child : Scope → Element → Option Content → Result α)
    (child' : Scope → Element → Option Content → Result α') : Prop :=
  ∀ (scope : Scope) {e e' : Element} {c c' : Option Content}, e.Alike R e' →
    Option.Rel (Content.Alike R) c c' → Matches P V (child scope e c) (child' scope e' c')

theorem isThemed_alike [Markup.Decoders] {R : Nat → Nat → Prop} {e e' : Element} (he : e.Alike R e')
    (scope : Scope) : isThemed scope e = isThemed scope e' := by
  rw [isThemed, isThemed, he.tag]

/-- One child and those behind it. -/
theorem cons_matches {V : α → α' → Prop} {x : Result α} {x' : Result α'} (hx : Matches P V x x')
    {xs : Result (List α)} {xs' : Result (List α')} (hxs : Matches P (List.Forall₂ V) xs xs') :
    Matches P (List.Forall₂ V) (do let a ← x; let as ← xs; pure (a :: as))
      (do let a ← x'; let as ← xs'; pure (a :: as)) :=
  hx.bind fun _ _ ha => hxs.bind fun _ _ has => .ok (.cons ha has)

namespace Track

variable {R : Nat → Nat → Prop} {r r' : Reader} {e e' : Element} {c c' : Content}
  {o o' : Nat} (h : Track P R r r')
include h

theorem refuse_matches {V : α → α' → Prop} (ho : R o o') (cause : Cause) :
    Matches P V (r.refuse o cause) (r'.refuse o' cause) :=
  .error (h.position ho) cause

theorem lift_matches (ho : R o o') (cause : ε → Cause) (x : Except ε α) :
    Matches P (· = ·) (r.lift o cause x) (r'.lift o' cause x) := by
  cases x with
  | ok a => exact .ok rfl
  | error e => exact h.refuse_matches ho (cause e)

variable [Markup.Decoders]

theorem enter_matches (he : e.Alike R e') (scope : Scope) :
    Matches P (· = ·) (r.enter scope e) (r'.enter scope e') := by
  unfold enter
  rw [he.tag]
  exact h.lift_matches he.offset .markup _

theorem placed (he : e.Alike R e') :
    Placed P (some (r.position e.offset)) (some (r'.position e'.offset)) :=
  ⟨_, _, rfl, rfl, h.position he.offset⟩

/-! ## Children -/

theorem skip_matches (hc : c.Alike R c') (name : String) (scope : Scope) :
    Matches P (· = ·) (r.skip name scope c) (r'.skip name scope c') := by
  induction hc generalizing scope with
  | closed => exact .ok rfl
  | ended ho => exact h.refuse_matches ho _
  | broken ho fault => exact h.refuse_matches ho _
  | text _ _ _ ih => exact ih scope
  | cdata _ _ _ ih => exact ih scope
  | remark _ _ _ ih => exact ih scope
  | empty he _ ih => exact (h.enter_matches he scope).bind_eq fun _ => ih scope
  | element he _ _ ih_inner ih_more =>
    refine (h.enter_matches he scope).bind_eq fun inside => ?_
    exact (ih_inner inside).bind_eq fun _ => ih_more scope

section Children

variable {V : α → α' → Prop} {child : Scope → Element → Option Content → Result α}
  {child' : Scope → Element → Option Content → Result α'}

/-- **The `children` of an element**, whatever reads each of them. -/
theorem children_matches (hchild : ChildMatches P R V child child') (hc : c.Alike R c')
    (parent : String) (scope : Scope) :
    Matches P (List.Forall₂ V) (r.children parent child scope c)
      (r'.children parent child' scope c') := by
  induction hc generalizing scope with
  | closed => exact .ok .nil
  | ended ho => exact h.refuse_matches ho _
  | broken ho fault => exact h.refuse_matches ho _
  | text ho bytes _ ih =>
    simp only [children, h.strict]
    split
    · exact h.refuse_matches ho _
    · exact ih scope
  | cdata ho bytes _ ih =>
    simp only [children, h.strict]
    split
    · exact h.refuse_matches ho _
    · exact ih scope
  | remark _ _ _ ih => exact ih scope
  | empty he _ ih =>
    simp only [children]
    refine (h.enter_matches he scope).bind_eq fun inside => ?_
    rw [isThemed_alike he]
    split
    · exact cons_matches (hchild inside he .none) (ih scope)
    · exact ih scope
  | element he hinner _ _ ih =>
    simp only [children]
    refine (h.enter_matches he scope).bind_eq fun inside => ?_
    rw [isThemed_alike he, he.tag]
    split
    · exact cons_matches (hchild inside he (.some hinner)) (ih scope)
    · exact (h.skip_matches hinner _ inside).bind_eq fun _ => ih scope

theorem childrenOf_matches (hchild : ChildMatches P R V child child') {c c' : Option Content}
    (hc : Option.Rel (Content.Alike R) c c') (parent : String) (scope : Scope) :
    Matches P (List.Forall₂ V) (r.childrenOf parent child scope c)
      (r'.childrenOf parent child' scope c') := by
  cases hc with
  | none => exact .ok .nil
  | some hc => exact h.children_matches hchild hc parent scope

theorem leaf_matches {c c' : Option Content} (hc : Option.Rel (Content.Alike R) c c')
    (name : String) (scope : Scope) :
    Matches P (· = ·) (r.leaf name scope c) (r'.leaf name scope c') := by
  have hchild : ChildMatches P R (Eq : Unit → Unit → Prop)
      (fun _ e _ => r.refuse e.offset (.childInside name))
      (fun _ e _ => r'.refuse e.offset (.childInside name)) :=
    fun _ _ _ _ _ he _ => h.refuse_matches he.offset _
  exact (h.childrenOf_matches hchild hc name scope).bind fun _ _ _ => .ok rfl

end Children

/-! ## Attributes -/

theorem value_matches (he : e.Alike R e') {raw : Bytes}
    (hraw : e.charset.decode? raw = e'.charset.decode? raw) :
    Matches P (· = ·) (r.value e raw) (r'.value e' raw) := by
  unfold value
  rw [hraw]
  cases e'.charset.decode? raw with
  | none => exact h.refuse_matches he.offset _
  | some text => exact h.lift_matches he.offset .entity _

theorem valuesOf_matches (he : e.Alike R e') (allowed : List String)
    {as : List Markup.Attribute}
    (has : ∀ a ∈ as, e.charset.decode? a.value = e'.charset.decode? a.value) :
    Matches P (· = ·) (r.valuesOf e allowed as) (r'.valuesOf e' allowed as) := by
  induction as with
  | nil => exact .ok rfl
  | cons a as ih =>
    rw [List.forall_mem_cons] at has
    simp only [valuesOf, h.strict, he.tag]
    split
    · exact ih has.2
    split
    · refine (h.value_matches he has.1).bind_eq fun v => ?_
      exact (ih has.2).bind_eq fun vs => .ok rfl
    split
    · exact h.refuse_matches he.offset _
    · exact ih has.2

theorem values_matches (he : e.Alike R e') (allowed : List String) :
    Matches P (· = ·) (r.values e allowed) (r'.values e' allowed) := by
  have hvalues := h.valuesOf_matches he allowed he.values
  unfold values
  rw [he.tag] at hvalues ⊢
  refine hvalues.bind_eq fun vs => ?_
  cases e'.tag.attributes.fault with
  | none => exact .ok rfl
  | some fault => exact h.refuse_matches he.offset _

theorem requiredName_matches (he : e.Alike R e') (vs : Values) :
    Matches P (· = ·) (r.requiredName e vs) (r'.requiredName e' vs) := by
  unfold requiredName
  rw [h.strict, he.tag]
  split
  · exact .ok rfl
  · split
    · exact h.refuse_matches he.offset _
    · exact .ok rfl

theorem optional_matches (he : e.Alike R e') (parse : String → Except ε α)
    (cause : String → ε → Cause) (value : Option String) :
    Matches P (· = ·) (r.optional e parse cause value) (r'.optional e' parse cause value) := by
  cases value with
  | none => exact .ok rfl
  | some v =>
    simp only [optional]
    split
    · exact .ok rfl
    · cases parse v with
      | ok a => exact .ok rfl
      | error reason => exact h.refuse_matches he.offset _

/-! ## Declarations -/

theorem colorName_matches (he : e.Alike R e') (name : String) :
    Matches P (· = ·) (r.colorName e name) (r'.colorName e' name) := by
  unfold colorName
  split
  · exact h.refuse_matches he.offset _
  · split
    · exact h.refuse_matches he.offset _
    · exact .ok rfl

theorem color_matches : ChildMatches P R (ColorDeclaration.Alike P) r.color r'.color := by
  intro scope e e' c c' he hc
  refine (h.values_matches he colorKeys).bind_eq fun vs => ?_
  have hvalues : Matches P (ColorDeclaration.Alike P) (r.colorOfValues e vs)
      (r'.colorOfValues e' vs) := by
    refine (h.colorName_matches he _).bind_eq fun name => ?_
    refine (h.optional_matches he _ _ _).bind_eq fun foreground => ?_
    refine (h.optional_matches he _ _ _).bind_eq fun background => ?_
    refine (h.optional_matches he _ _ _).bind_eq fun underline => ?_
    refine (h.optional_matches he _ _ _).bind_eq fun fontWeight => ?_
    refine (h.optional_matches he _ _ _).bind_eq fun fontStyle => ?_
    exact .ok ⟨rfl, h.placed he⟩
  exact hvalues.bind fun d d' hd => (h.leaf_matches hc "Color" scope).bind_eq fun _ => .ok hd

theorem setChild_matches :
    ChildMatches P R (ColorDeclaration.Alike P) r.setChild r'.setChild := by
  intro scope e e' c c' he hc
  simp only [setChild, he.tag]
  split
  · exact h.color_matches scope he hc
  · split
    · exact h.refuse_matches he.offset _
    · exact h.refuse_matches he.offset _

theorem colorSet_matches :
    ChildMatches P R (fun d d' => Declaration.Alike P (.colorSet d) (.colorSet d'))
      r.colorSet r'.colorSet := by
  intro scope e e' c c' he hc
  refine (h.values_matches he setKeys).bind_eq fun vs => ?_
  refine (h.requiredName_matches he vs).bind_eq fun name => ?_
  refine (h.childrenOf_matches h.setChild_matches hc _ scope).bind fun ds ds' hds => ?_
  exact .ok (Declaration.alike_colorSet rfl rfl (h.placed he) hds)

theorem property_matches :
    ChildMatches P R (fun d d' => Declaration.Alike P (.property d) (.property d'))
      r.property r'.property := by
  intro scope e e' c c' he hc
  refine (h.values_matches he propertyKeys).bind_eq fun vs => ?_
  refine (h.requiredName_matches he vs).bind_eq fun name => ?_
  refine (h.leaf_matches hc "Property" scope).bind_eq fun _ => ?_
  exact .ok ⟨rfl, .cons (h.placed he) .nil⟩

theorem globalStyle_matches :
    ChildMatches P R (fun d d' => Declaration.Alike P (.globalStyle d) (.globalStyle d'))
      r.globalStyle r'.globalStyle := by
  intro scope e e' c c' he hc
  simp only [globalStyle, h.strict, he.tag]
  split
  · exact h.refuse_matches he.offset _
  refine (h.values_matches he styleKeys).bind_eq fun vs => ?_
  refine (h.optional_matches he _ _ _).bind_eq fun foreground => ?_
  refine (h.optional_matches he _ _ _).bind_eq fun background => ?_
  refine (h.optional_matches he _ _ _).bind_eq fun border => ?_
  refine (h.leaf_matches hc _ scope).bind_eq fun _ => ?_
  exact .ok ⟨rfl, .cons (h.placed he) .nil⟩

theorem globalStyles_matches :
    ChildMatches P R
      (List.Forall₂ fun d d' => Declaration.Alike P (.globalStyle d) (.globalStyle d'))
      r.globalStyles r'.globalStyles := by
  intro scope e e' c c' he hc
  refine (h.values_matches he []).bind_eq fun _ => ?_
  exact h.childrenOf_matches h.globalStyle_matches hc _ scope

theorem rootChild_matches :
    ChildMatches P R (List.Forall₂ (Declaration.Alike P)) r.rootChild r'.rootChild := by
  intro scope e e' c c' he hc
  simp only [rootChild, he.tag]
  split
  · exact (h.colorSet_matches scope he hc).bind fun d d' hd => .ok (.cons hd .nil)
  split
  · exact (h.property_matches scope he hc).bind fun d d' hd => .ok (.cons hd .nil)
  split
  · refine (h.globalStyles_matches scope he hc).bind fun ds ds' hds => .ok ?_
    rw [List.forall₂_map_left_iff, List.forall₂_map_right_iff]
    exact hds
  split
  · exact h.refuse_matches he.offset _
  · exact h.refuse_matches he.offset _

/-! ## Whole documents -/

theorem root_matches {c c' : Option Content} (he : e.Alike R e')
    (hc : Option.Rel (Content.Alike R) c c') :
    Matches P (Document.Alike P) (r.root e c) (r'.root e' c') := by
  unfold root
  refine (h.enter_matches he .initial).bind_eq fun scope => ?_
  rw [isThemed_alike he, he.tag]
  split
  · refine (h.values_matches he rootKeys).bind_eq fun vs => ?_
    refine (h.requiredName_matches he vs).bind_eq fun name => ?_
    refine (h.childrenOf_matches h.rootChild_matches hc _ scope).bind fun groups groups' hg => ?_
    exact .ok (Document.alike_of_declarations rfl (List.rel_flatten hg))
  · exact h.refuse_matches he.offset _

/-- **A whole `document`**: the same one at corresponding positions, or a failure of the same cause
at corresponding positions. -/
theorem document_matches (hstart : R 0 0) (hc : c.Alike R c') :
    Matches P (Document.Alike P) (r.document c) (r'.document c') := by
  induction hc with
  | closed => exact h.refuse_matches hstart _
  | ended ho => exact h.refuse_matches ho _
  | broken ho fault => exact h.refuse_matches ho _
  | text ho bytes _ ih =>
    simp only [document]
    split
    · exact ih
    · exact h.refuse_matches ho _
  | cdata _ _ _ ih => exact ih
  | remark _ _ _ ih => exact ih
  | empty he _ _ => exact h.root_matches he .none
  | element he hinner _ _ _ => exact h.root_matches he (.some hinner)

end Track

end Reader

/-- **Two texts with the same markup** behind their byte-order marks are the same document at
corresponding positions, or fail for the same cause at corresponding positions. -/
theorem read_matches [Markup.Decoders] {input input' : Bytes}
    (hmarkup : Markup.withoutMark input = Markup.withoutMark input')
    (hposition : ∀ o ≤ (Markup.withoutMark input).2.length,
      P (.ofMarkup input o) (.ofMarkup input' o)) (strict : Bool) :
    Matches P (Document.Alike P) (read input strict) (read input' strict) := by
  set bs := (Markup.withoutMark input).2 with hbs
  have htrack : Reader.Track P (fun o o' => o = o' ∧ o ≤ bs.length) ⟨input, strict⟩
      ⟨input', strict⟩ := by
    refine ⟨rfl, ?_⟩
    rintro o _ ⟨rfl, ho⟩
    exact hposition o ho
  have hstart : 0 = 0 ∧ 0 ≤ bs.length := ⟨rfl, Nat.zero_le _⟩
  refine htrack.document_matches hstart ?_
  unfold Content.ofBytes
  rw [← hmarkup]
  refine Markup.Stream.top_alike ?_ (.refl _ _) hstart
  refine Markup.Stream.scan_alike fun k hk => ⟨rfl, ?_⟩
  rw [Nat.zero_add]
  exact hk

end Livery.Overlay
