import Livery.Libraries
import Livery.Proofs.Acceptance
import Livery.Proofs.Lines
import Livery.Proofs.Openings
import Mathlib.Data.List.Flatten
import Mathlib.Data.List.Forall2

/-!
# Recorded positions

Every declaration of a document that was read from a text keeps the position of the tag it was read
from.

* `Reader.children_read`: what was read of a content is what was read of some of its elements, one
  by one and in order.
* `Reader.document_sourced`: so the items of a document come from elements of the text, in document
  order.
* `read_places`: the byte at the position of an item is the `<` of its tag, and positions increase.
-/

namespace Livery

/-! ## Elements below each other -/

namespace Markup

/-- The elements of a `Content` that are not inside others, with their own contents. -/
def Content.children : Content → List (Element × Option Content)
  | .closed => []
  | .ended _ => []
  | .broken _ _ => []
  | .text _ _ more => more.children
  | .cdata _ _ more => more.children
  | .remark _ more => more.children
  | .empty e more => (e, none) :: more.children
  | .element e inner more => (e, some inner) :: more.children

/-- The `openings` inside an element, at whatever depth. -/
def Content.openingsOf : Option Content → List Element
  | none => []
  | some content => content.openings

/-- In document order every element comes before those inside it, and these before the next one of
the `children`. -/
theorem Content.openings_eq (content : Content) :
    content.openings = content.children.flatMap fun v => v.1 :: openingsOf v.2 := by
  induction content with
  | closed => rfl
  | ended => rfl
  | broken => rfl
  | text _ _ more ih => exact ih
  | cdata _ _ more ih => exact ih
  | remark _ more ih => exact ih
  | empty e more ih => rw [openings, children, List.flatMap_cons, ← ih]; rfl
  | element e inner more _ ih => rw [openings, children, List.flatMap_cons, ← ih]; rfl

end Markup

namespace Overlay

open Markup (Content Element Scope byteOrderMarks)

/-! ## Items -/

/-- A declaration with a position of its own. -/
inductive Item where
  | colorSet (d : SetDeclaration)
  | color (d : ColorDeclaration)
  | globalStyle (d : StyleDeclaration)
  | property (d : PropertyDeclaration)

def Item.position : Item → Option Position
  | .colorSet d => d.position
  | .color d => d.position
  | .globalStyle d => d.position
  | .property d => d.position

/-- A colour set comes before its colours. -/
def Declaration.items : Declaration → List Item
  | .colorSet d => .colorSet d :: d.colors.map .color
  | .globalStyle d => [.globalStyle d]
  | .property d => [.property d]

/-- The items of the document `d` in document order. -/
def Document.items (d : Document) : List Item := d.declarations.flatMap Declaration.items

section Sources

variable [Markup.Decoders]

/-- An element of the theme namespace declares the `Item` that is read from it. -/
inductive Declares (r : Reader) : Element → Item → Prop
  | colorSet {scope : Scope} {e : Element} {content : Option Content} {d : SetDeclaration}
    (themed : Reader.isThemed scope e = true) (name : e.tag.localName = Cause.setName)
    (read : r.colorSet scope e content = .ok d) : Declares r e (.colorSet d)
  | color {scope : Scope} {e : Element} {content : Option Content} {d : ColorDeclaration}
    (themed : Reader.isThemed scope e = true) (name : e.tag.localName = "Color")
    (read : r.color scope e content = .ok d) : Declares r e (.color d)
  | globalStyle {scope : Scope} {e : Element} {content : Option Content} {d : StyleDeclaration}
    (themed : Reader.isThemed scope e = true)
    (read : r.globalStyle scope e content = .ok d) : Declares r e (.globalStyle d)
  | property {scope : Scope} {e : Element} {content : Option Content} {d : PropertyDeclaration}
    (themed : Reader.isThemed scope e = true) (name : e.tag.localName = "Property")
    (read : r.property scope e content = .ok d) : Declares r e (.property d)

/-- The `items` are declared by some of the `elements`, in the same order. -/
def Sourced (r : Reader) (items : List Item) (elements : List Element) : Prop :=
  ∃ es, es.Sublist elements ∧ List.Forall₂ (Declares r) es items

namespace Sourced

variable {r : Reader} {item : Item} {items items' : List Item} {e : Element}
  {elements elements' : List Element}

theorem nil (elements : List Element) : Sourced r [] elements :=
  ⟨[], List.nil_sublist _, .nil⟩

theorem cons (h : Declares r e item) (h' : Sourced r items elements) :
    Sourced r (item :: items) (e :: elements) := by
  obtain ⟨es, hsub, hread⟩ := h'
  exact ⟨e :: es, hsub.cons_cons e, .cons h hread⟩

theorem append (h : Sourced r items elements) (h' : Sourced r items' elements') :
    Sourced r (items ++ items') (elements ++ elements') := by
  obtain ⟨es, hsub, hread⟩ := h
  obtain ⟨es', hsub', hread'⟩ := h'
  exact ⟨es ++ es', hsub.append hsub', List.rel_append hread hread'⟩

theorem mono (h : Sourced r items elements) (hsub : elements.Sublist elements') :
    Sourced r items elements' := by
  obtain ⟨es, hes, hread⟩ := h
  exact ⟨es, hes.trans hsub, hread⟩

/-- An element may declare nothing itself. -/
theorem skip (h : Sourced r items elements) (e : Element) : Sourced r items (e :: elements) :=
  h.mono (List.sublist_cons_self e elements)

/-- Each item of those that are `Sourced` has an element that declares it. -/
theorem declared (h : Sourced r items elements) (hitem : item ∈ items) :
    ∃ e ∈ elements, Declares r e item := by
  obtain ⟨es, hsub, hread⟩ := h
  suffices hmem : ∃ e ∈ es, Declares r e item by
    obtain ⟨e, he, hdeclares⟩ := hmem
    exact ⟨e, hsub.subset he, hdeclares⟩
  clear hsub
  induction hread with
  | nil => cases hitem
  | @cons e item' es items hfirst _ ih =>
    rcases List.mem_cons.1 hitem with rfl | hrest
    · exact ⟨e, List.mem_cons_self, hfirst⟩
    · obtain ⟨e', he', hdeclares⟩ := ih hrest
      exact ⟨e', List.mem_cons_of_mem _ he', hdeclares⟩

theorem singleton (h : Declares r e item) (elements : List Element) :
    Sourced r [item] (e :: elements) :=
  cons h (nil elements)

end Sourced

namespace Reader

variable {r : Reader} {α : Type} {parent : String}
  {child : Scope → Element → Option Content → Result α} {scope : Scope} {e : Element}

/-! ## Children -/

omit [Markup.Decoders] in
/-- **What was read of a content is what was read of some of its elements**, one by one and in
order. All of them are in the theme namespace. -/
theorem children_read {content : Content} {as : List α}
    (h : r.children parent child scope content = .ok as) :
    ∃ visited, visited.Sublist content.children ∧
      List.Forall₂ (fun v a => ∃ inside, isThemed inside v.1 = true ∧ child inside v.1 v.2 = .ok a)
        visited as := by
  induction content generalizing as with
  | closed =>
    obtain rfl := ok_eq_ok.1 h
    exact ⟨[], List.nil_sublist _, .nil⟩
  | ended offset => cases h
  | broken offset fault => cases h
  | text offset bytes more ih =>
    rw [children] at h
    split at h
    · cases h
    · exact ih h
  | cdata offset bytes more ih =>
    rw [children] at h
    split at h
    · cases h
    · exact ih h
  | remark lexeme more ih => exact ih h
  | empty e more ih =>
    rw [children, bind_eq_ok] at h
    obtain ⟨inside, -, h⟩ := h
    split at h
    · next hthemed =>
      simp only [bind_eq_ok, pure_eq_ok] at h
      obtain ⟨a, ha, as', has, rfl⟩ := h
      obtain ⟨visited, hsub, hread⟩ := ih has
      exact ⟨(e, none) :: visited, hsub.cons_cons _, .cons ⟨inside, hthemed, ha⟩ hread⟩
    · obtain ⟨visited, hsub, hread⟩ := ih h
      exact ⟨visited, hsub.trans (List.sublist_cons_self _ _), hread⟩
  | element e inner more _ ih =>
    rw [children, bind_eq_ok] at h
    obtain ⟨inside, -, h⟩ := h
    split at h
    · next hthemed =>
      simp only [bind_eq_ok, pure_eq_ok] at h
      obtain ⟨a, ha, as', has, rfl⟩ := h
      obtain ⟨visited, hsub, hread⟩ := ih has
      exact ⟨(e, some inner) :: visited, hsub.cons_cons _, .cons ⟨inside, hthemed, ha⟩ hread⟩
    · rw [bind_eq_ok] at h
      obtain ⟨-, -, h⟩ := h
      obtain ⟨visited, hsub, hread⟩ := ih h
      exact ⟨visited, hsub.trans (List.sublist_cons_self _ _), hread⟩

/-- If the items of every child come from its own elements, those of `childrenOf` do. -/
theorem childrenOf_sourced {f : α → List Item}
    (hchild : ∀ {inside : Scope} {e : Element} {content : Option Content} {a : α},
      isThemed inside e = true → child inside e content = .ok a →
        Sourced r (f a) (e :: Content.openingsOf content))
    {content : Option Content} {as : List α}
    (h : r.childrenOf parent child scope content = .ok as) :
    Sourced r (as.flatMap f) (Content.openingsOf content) := by
  cases content with
  | none =>
    obtain rfl := ok_eq_ok.1 h
    exact .nil _
  | some content =>
    obtain ⟨visited, hsub, hread⟩ := children_read h
    rw [Content.openingsOf, Content.openings_eq]
    refine Sourced.mono ?_ (hsub.flatMap _)
    clear hsub h
    induction hread with
    | nil => exact .nil _
    | cons hfirst _ ih =>
      obtain ⟨inside, hthemed, ha⟩ := hfirst
      exact .append (hchild hthemed ha) ih

/-! ## From the colours up to the document -/

theorem setChild_sourced {content : Option Content} {d : ColorDeclaration}
    (hthemed : isThemed scope e = true) (h : r.setChild scope e content = .ok d) :
    Sourced r [.color d] (e :: Content.openingsOf content) := by
  unfold setChild at h
  dsimp only at h
  split at h
  · next hname => exact .singleton (.color hthemed hname h) _
  · split at h <;> cases h

theorem colorSet_sourced {content : Option Content} {d : SetDeclaration}
    (hthemed : isThemed scope e = true) (hname : e.tag.localName = Cause.setName)
    (h : r.colorSet scope e content = .ok d) :
    Sourced r (Declaration.colorSet d).items (e :: Content.openingsOf content) := by
  refine .cons (.colorSet hthemed hname h) ?_
  simp only [colorSet, bind_eq_ok, pure_eq_ok] at h
  obtain ⟨vs, -, name, -, colors, hcolors, rfl⟩ := h
  rw [List.map_eq_flatMap]
  exact childrenOf_sourced setChild_sourced hcolors

theorem globalStyles_sourced {content : Option Content} {ds : List StyleDeclaration}
    (h : r.globalStyles scope e content = .ok ds) :
    Sourced r (ds.map .globalStyle) (Content.openingsOf content) := by
  simp only [globalStyles, bind_eq_ok] at h
  obtain ⟨vs, -, hstyles⟩ := h
  rw [List.map_eq_flatMap]
  exact childrenOf_sourced (fun hthemed hd => .singleton (.globalStyle hthemed hd) _) hstyles

/-- The items that `rootChild` declares come from this child and what is inside it. -/
theorem rootChild_sourced {content : Option Content} {ds : List Declaration}
    (hthemed : isThemed scope e = true) (h : r.rootChild scope e content = .ok ds) :
    Sourced r (ds.flatMap Declaration.items) (e :: Content.openingsOf content) := by
  unfold rootChild at h
  dsimp only at h
  split at h
  · next hname =>
    simp only [bind_eq_ok, pure_eq_ok] at h
    obtain ⟨d, hd, rfl⟩ := h
    simpa using colorSet_sourced hthemed hname hd
  split at h
  · next hname =>
    simp only [bind_eq_ok, pure_eq_ok] at h
    obtain ⟨d, hd, rfl⟩ := h
    exact .singleton (.property hthemed hname hd) _
  split at h
  · simp only [bind_eq_ok, pure_eq_ok] at h
    obtain ⟨styles, hstyles, rfl⟩ := h
    have hitems : (styles.map Declaration.globalStyle).flatMap Declaration.items =
        styles.map .globalStyle := by
      rw [List.flatMap_map, List.map_eq_flatMap]
      rfl
    rw [hitems]
    exact (globalStyles_sourced hstyles).skip e
  split at h <;> cases h

theorem root_sourced {content : Option Content} {d : Document} (h : r.root e content = .ok d) :
    Sourced r d.items (e :: Content.openingsOf content) := by
  simp only [root, bind_eq_ok] at h
  obtain ⟨inside, -, h⟩ := h
  split at h
  · simp only [bind_eq_ok, pure_eq_ok] at h
    obtain ⟨vs, -, name, -, groups, hgroups, rfl⟩ := h
    have := childrenOf_sourced (f := fun ds => ds.flatMap Declaration.items) rootChild_sourced
      hgroups
    rw [Document.items, List.flatten_eq_flatMap, List.flatMap_assoc]
    exact this.skip e
  · cases h

/-- **The items of a document come from elements of the text**, in document order. -/
theorem document_sourced {content : Content} {d : Document} (h : r.document content = .ok d) :
    Sourced r d.items content.openings := by
  induction content with
  | closed => cases h
  | ended => cases h
  | broken => cases h
  | text offset bytes more ih =>
    unfold document at h
    split at h
    · exact ih h
    · cases h
  | cdata _ _ more ih => exact ih h
  | remark _ more ih => exact ih h
  | empty e more =>
    refine (root_sourced h).mono ?_
    exact (List.nil_sublist _).cons_cons e
  | element e inner more =>
    refine (root_sourced h).mono ?_
    exact (List.sublist_append_left _ _).cons_cons e

end Reader

/-! ## Positions -/

/-- An `Item` keeps the position of the element that it was read from. -/
theorem Declares.position {r : Reader} {item : Item} {e : Element} (h : Declares r e item) :
    item.position = some (r.position e.offset) := by
  cases h with
  | colorSet _ _ h =>
    simp only [Reader.colorSet, bind_eq_ok, pure_eq_ok] at h
    obtain ⟨_, -, _, -, _, -, rfl⟩ := h
    rfl
  | color _ _ h =>
    simp only [Reader.color, Reader.colorOfValues, bind_eq_ok, pure_eq_ok] at h
    obtain ⟨_, -, _, ⟨_, -, _, -, _, -, _, -, _, -, _, -, rfl⟩, _, -, rfl⟩ := h
    rfl
  | globalStyle _ h =>
    simp only [Reader.globalStyle] at h
    split at h
    · cases h
    · simp only [bind_eq_ok, pure_eq_ok] at h
      obtain ⟨_, -, _, -, _, -, _, -, _, -, rfl⟩ := h
      rfl
  | property _ _ h =>
    simp only [Reader.property, bind_eq_ok, pure_eq_ok] at h
    obtain ⟨_, -, _, -, _, -, rfl⟩ := h
    rfl

omit [Markup.Decoders] in
/-- The position of a `<` is that of its offset. -/
theorem Position.ofMarkup_opener {input : Bytes} {o : Nat} (h : input[o]? = some 0x3C) :
    Position.ofMarkup input o = .ofOffset input o := by
  rw [Position.ofMarkup, if_neg]
  exact fun hno => hno.2.1 h

/-- A position marks an item in a text. The item has recorded it, and was read from an element of
the text whose tag begins there: the byte at this line and column is the `<` of this tag. -/
structure Marks (input : Bytes) (strict : Bool) (p : Position) (item : Item) : Prop where
  recorded : item.position = some p
  opener : byteAt input p = some 0x3C
  source : ∃ e ∈ (Content.ofBytes input).openings, Declares ⟨input, strict⟩ e item ∧
    e.OpensAt input ∧ p = .ofOffset input e.offset

/-- **Recorded positions are those in the source.** Take any text that begins with no byte-order
mark, read strictly or leniently. Every colour set, colour, property and global style of the
document has the position of the tag that it was read from, and the byte there is the `<` of this
tag. In document order, a set before its colours and these before what follows them, the positions
increase. -/
theorem read_places {input : Bytes} (hmark : ∀ mark ∈ byteOrderMarks, ¬ mark <+: input)
    {strict : Bool} {d : Document} (h : read input strict = .ok d) :
    ∃ ps : List Position, List.Forall₂ (Marks input strict) ps d.items ∧
      ps.Pairwise Position.Before := by
  obtain ⟨hopens, hordered⟩ := Content.ofBytes_openings hmark
  obtain ⟨es, hsub, hread⟩ := Reader.document_sourced h
  refine ⟨es.map fun e => .ofOffset input e.offset, ?_, ?_⟩
  · rw [List.forall₂_map_left_iff]
    have hread' := (List.forall₂_and_left es d.items).2 ⟨fun e he => hsub.subset he, hread⟩
    refine hread'.imp fun e item ⟨he, hitem⟩ => ?_
    have hopen := hopens e he
    refine ⟨?_, Position.byteAt_ofOffset hopen.byte (by decide), e, he, hitem, hopen, rfl⟩
    rw [hitem.position, Reader.position, Position.ofMarkup_opener hopen.byte]
  · rw [List.pairwise_map]
    refine List.Pairwise.imp_of_mem (fun _ he' hoff => ?_) (hordered.sublist hsub)
    have hbyte := (hopens _ (hsub.subset he')).byte
    have hlt := (List.getElem?_eq_some_iff.1 hbyte).1
    exact Position.ofOffset_before input hoff (Nat.le_of_lt hlt)

end Sources

/-- The property of `dawn` has its place on the first line, behind the start tag of the root. -/
theorem read_places_dawn :
    (∀ mark ∈ byteOrderMarks, ¬ mark <+: dawn.bytes) ∧ read dawn.bytes true = .ok dawn.document ∧
      ∃ ps : List Position, List.Forall₂ (Marks dawn.bytes true) ps dawn.document.items ∧
        ps.Pairwise Position.Before ∧ ps = [⟨1, 111⟩] := by
  have hmark : ∀ mark ∈ byteOrderMarks, ¬ mark <+: dawn.bytes := by decide +kernel
  have hread : read dawn.bytes true = .ok dawn.document := by
    rw [read_bytes]
    exact (root_source_ok_iff dawn dawn_regular true _).2 ⟨dawn_isOverlay, rfl⟩
  obtain ⟨ps, hmarks, hordered⟩ := read_places hmark hread
  refine ⟨hmark, hread, ps, hmarks, hordered, ?_⟩
  have hposition : dawn.document.items.map Item.position = [some ⟨1, 111⟩] := by decide +kernel
  have hrecorded : List.Forall₂ (· = ·) (ps.map some) (dawn.document.items.map Item.position) := by
    rw [List.forall₂_map_left_iff, List.forall₂_map_right_iff]
    exact hmarks.imp fun _ _ h => h.recorded.symm
  rw [List.forall₂_eq_eq_eq, hposition] at hrecorded
  exact List.map_injective_iff.2 (fun _ _ => Option.some.inj) hrecorded

end Overlay

end Livery
