import Livery.Libraries
import Livery.Overlay.Loading
import Livery.Proofs.Relocation
import Livery.Proofs.Resolution

/-!
# Where overlays fail, and why

An overlay fails when it is read or when it is resolved. Reading may fail for any number of reasons,
and each is reported at a place in the text. Of what resolving checks, reading has seen to most:
there remain the names of colour sets, and names that come twice.

* `read_within`: whatever a reading reports or records is at a place in the text.
* `resolve_refuses`: what is refused is refused in the first pass, with a reason in `Blames`.
* `failures_located`: both for every text.
-/

namespace Livery

/-- A byte-order mark belongs to the text. -/
theorem Markup.length_withoutMark_le (input : Bytes) :
    (withoutMark input).2.length ≤ input.length := by
  unfold withoutMark
  split
  case h_1 | h_2 | h_3 =>
    simp only [List.length_cons]
    omega
  all_goals exact Nat.le_refl _

namespace Overlay

open Markup (Source)

/-! ## Places -/

/-- **Whatever `read` reports or records is at a place in the text.** -/
theorem read_within [Markup.Decoders] (input : Bytes) (strict : Bool) :
    match read input strict with
    | .error f => f.position.Within input
    | .ok d => ∀ item ∈ d.items, ∃ p, item.position = some p ∧ p.Within input := by
  -- the text read beside itself
  have hself : Matches (fun p p' => p = p' ∧ p.Within input)
      (Document.Alike fun p p' => p = p' ∧ p.Within input) (read input strict)
      (read input strict) := by
    refine read_matches rfl ?_ strict
    intro o ho
    exact ⟨rfl, Position.ofMarkup_within (Nat.le_trans ho (Markup.length_withoutMark_le input))⟩
  generalize read input strict = result at hself ⊢
  cases hself with
  | error hplace cause => exact hplace.2
  | ok hdocument =>
    intro item hitem
    obtain ⟨p, _, hposition, -, -, hwithin⟩ := List.forall₂_same.1 hdocument.items item hitem
    exact ⟨p, hposition, hwithin⟩

/-! ## Names -/

theorem Document.colorSet_mem_items {d : Document} {s : SetDeclaration} (h : s ∈ d.colorSets) :
    .colorSet s ∈ d.items ∧ ∀ c ∈ s.colors, .color c ∈ d.items := by
  unfold colorSets at h
  rw [List.mem_filterMap] at h
  obtain ⟨declaration, hmem, hs⟩ := h
  cases declaration with
  | colorSet s' =>
    obtain rfl := Option.some.inj hs
    refine ⟨List.mem_flatMap.2 ⟨_, hmem, List.mem_cons_self⟩, ?_⟩
    intro c hc
    exact List.mem_flatMap.2 ⟨_, hmem, List.mem_cons_of_mem _ (List.mem_map_of_mem hc)⟩
  | _ => cases hs

/-- An element declares a colour with a name only. -/
theorem Declares.color_named [Markup.Decoders] {r : Reader} {e : Markup.Element}
    {c : ColorDeclaration} (h : Declares r e (.color c)) : c.name ≠ "" := by
  cases h with
  | color _ _ hread =>
    simp only [Reader.color, Reader.colorOfValues, bind_eq_ok, pure_eq_ok] at hread
    obtain ⟨_, -, _, ⟨name, hname, _, -, _, -, _, -, _, -, _, -, rfl⟩, _, -, rfl⟩ := hread
    obtain ⟨⟨hne, -⟩, rfl⟩ := (Reader.colorName_ok_iff _ _ _).1 hname
    exact hne

/-- The colours of a document that `read` gives have names. -/
theorem read_colors_named [Markup.Decoders] {input : Bytes} {strict : Bool} {d : Document}
    (h : read input strict = .ok d) : ∀ s ∈ d.colorSets, ∀ c ∈ s.colors, c.name ≠ "" := by
  intro s hs c hc
  have hitem : .color c ∈ d.items := (Document.colorSet_mem_items hs).2 c hc
  obtain ⟨e, -, hdeclares⟩ := (Reader.document_sourced h).declared hitem
  exact hdeclares.color_named

/-- What can be wrong with the document `d`, whose colours have names. The declaration to blame is
the one without a name, or the later one of two. -/
inductive Blames (d : Document) : Objection → Prop
  | unnamedSet {s : SetDeclaration} (hs : s ∈ d.colorSets) (hname : s.name = "") :
    Blames d ⟨s.position, .emptyName⟩
  | repeatedSet {earlier later : List SetDeclaration} {s : SetDeclaration}
    (hs : d.colorSets = earlier ++ s :: later) (hname : s.name ∈ earlier.map (·.name)) :
    Blames d ⟨s.position, .duplicateSet s.name⟩
  | repeatedColor {s : SetDeclaration} (hs : s ∈ d.colorSets)
    {earlier later : List ColorDeclaration} {c : ColorDeclaration}
    (hc : s.colors = earlier ++ c :: later) (hname : c.name ∈ earlier.map (·.name)) :
    Blames d ⟨c.position, .duplicateColor c.name⟩

/-- The declaration that `Blames` points to is one of the document. -/
theorem Blames.item {d : Document} {o : Objection} (h : Blames d o) :
    ∃ item ∈ d.items, item.position = o.position := by
  cases h with
  | unnamedSet hs _ => exact ⟨_, (Document.colorSet_mem_items hs).1, rfl⟩
  | repeatedSet hs _ =>
    have hmem := hs ▸ List.mem_append_right _ List.mem_cons_self
    exact ⟨_, (Document.colorSet_mem_items hmem).1, rfl⟩
  | repeatedColor hs hc _ =>
    have hmem := hc ▸ List.mem_append_right _ List.mem_cons_self
    exact ⟨_, (Document.colorSet_mem_items hs).2 _ hmem, rfl⟩

/-- What a `walk` raises, it raises at some entry. -/
theorem mem_walk {α β : Type} {visit : List α → α → List β} {earlier l : List α} {b : β}
    (h : b ∈ walk visit earlier l) :
    ∃ before a after, l = before ++ a :: after ∧ b ∈ visit (earlier ++ before) a := by
  induction l generalizing earlier with
  | nil => cases h
  | cons a l ih =>
    rcases List.mem_append.1 h with hhere | hlater
    · exact ⟨[], a, l, rfl, by rwa [List.append_nil]⟩
    · obtain ⟨before, x, after, rfl, hb⟩ := ih hlater
      refine ⟨a :: before, x, after, rfl, ?_⟩
      rwa [List.append_assoc] at hb

theorem ColorDeclaration.of_mem_objections {earlier : List ColorDeclaration}
    {c : ColorDeclaration} {o : Objection} (h : o ∈ c.objections earlier) (hne : c.name ≠ "") :
    c.name ∈ earlier.map (·.name) ∧ o = ⟨c.position, .duplicateColor c.name⟩ := by
  unfold objections at h
  rw [if_neg hne] at h
  split at h
  · next hmem => exact ⟨hmem, List.mem_singleton.1 h⟩
  · cases h

/-- **Where every colour has a name**, an objection `Blames` a set without a name, or a repeated
name. -/
theorem Document.blames_of_mem_objections {d : Document}
    (hnamed : ∀ s ∈ d.colorSets, ∀ c ∈ s.colors, c.name ≠ "") {o : Objection}
    (h : o ∈ d.objections) : Blames d o := by
  obtain ⟨before, s, after, hsets, ho⟩ := mem_walk h
  have hs : s ∈ d.colorSets := hsets ▸ List.mem_append_right _ List.mem_cons_self
  rcases List.mem_append.1 ho with hname | hcolor
  · unfold SetDeclaration.nameObjections at hname
    split at hname
    · next hempty =>
      obtain rfl := List.mem_singleton.1 hname
      exact .unnamedSet hs hempty
    · split at hname
      · next hmem =>
        obtain rfl := List.mem_singleton.1 hname
        exact .repeatedSet hsets hmem
      · cases hname
  · obtain ⟨first, c, last, hcolors, hc⟩ := mem_walk hcolor
    have hmem : c ∈ s.colors := hcolors ▸ List.mem_append_right _ List.mem_cons_self
    obtain ⟨hrepeated, rfl⟩ := ColorDeclaration.of_mem_objections hc (hnamed s hs c hmem)
    exact .repeatedColor hs hcolors hrepeated

/-- **What `resolve` refuses is refused in the first pass.** The second one never fails behind
it. -/
theorem resolve_refuses {d : Document} {o : Objection} (h : resolve d = .error o) :
    register d = .error o ∧ o ∈ d.objections := by
  rcases register_cases d with ⟨o', more, hobjections, hregister⟩ |
    ⟨hnone, drafts, hregister, hdrafts⟩
  · have hfirst : resolve d = .error o' := by
      simp only [resolve, hregister, bind, Except.bind]
    obtain rfl := Except.error.inj (hfirst.symm.trans h)
    exact ⟨hregister, hobjections ▸ List.mem_cons_self⟩
  · obtain ⟨sets, hpopulate, -⟩ := populate_declares hnone hdrafts
    simp only [resolve, hregister, hpopulate, bind, Except.bind] at h
    cases h

/-! ## Every text -/

/-- **Every failure of an overlay is located**, and resolving can only complain about names that
reading lets through. Take any text, read strictly or leniently. If it cannot be read, the error has
a position in the text. If it can, every colour has a name; and if the document is then refused, it
is so in the first pass, at the position of one of its declarations, a place in the text, and the
reason is a colour set without a name, a colour set named like an earlier one, or a colour named
like an earlier one of its set. -/
theorem failures_located [Markup.Decoders] (input : Bytes) (strict : Bool) :
    match readSource (.ok input) strict with
    | .error e => ∃ p, e.position? = some p ∧ p.Within input
    | .ok d => (∀ s ∈ d.colorSets, ∀ c ∈ s.colors, c.name ≠ "") ∧
        match resolve d with
        | .error o => register d = .error o ∧ Blames d o ∧
            ∃ p, o.error.position? = some p ∧ p.Within input ∧
              ∃ item ∈ d.items, item.position = some p
        | .ok _ => True := by
  have hwithin := read_within input strict
  simp only [readSource]
  cases hread : read input strict with
  | error f =>
    rw [hread] at hwithin
    exact ⟨f.position, rfl, hwithin⟩
  | ok d =>
    rw [hread] at hwithin
    have hnamed := read_colors_named hread
    refine ⟨hnamed, ?_⟩
    cases hresolve : resolve d with
    | ok m => trivial
    | error o =>
      obtain ⟨hregister, hmem⟩ := resolve_refuses hresolve
      have hblames := Document.blames_of_mem_objections hnamed hmem
      obtain ⟨item, hitem, hposition⟩ := hblames.item
      obtain ⟨p, hp, hplace⟩ := hwithin item hitem
      exact ⟨hregister, hblames, p, hposition.symm.trans hp, hplace, item, hitem, hp⟩

/-! ## A set without a name -/

theorem isName_set : Source.IsName Cause.setName := ⟨by decide, by decide⟩

/-- The tag of a colour set without a name. -/
def namelessSet : Source.Tag := .simple Cause.setName [] isName_set.nonempty isName_set.named

/-- An overlay with the colour set `namelessSet`, which is read unless the schema is enforced. -/
def nameless : Source where
  root := plainRoot
  content := some (.empty ⟨[], Source.no_text⟩ namelessSet (.done ⟨[], Source.no_text⟩),
    ⟨[], Source.no_blanks⟩)

theorem nameless_read : read nameless.bytes false =
    .ok ⟨"D", [.colorSet { name := "", position := some ⟨1, 104⟩ }]⟩ := by
  have hset : ∀ scope : Markup.Scope, scope.enter namelessSet.tag = .ok scope := by
    intro scope
    rw [Source.Tag.enter_tag]
    rfl
  have hregular : nameless.Regular := by
    refine ⟨_, plainRoot_regular, ?_⟩
    rintro _ ⟨⟩
    exact ⟨⟨_, hset _, rfl, .nil, fun a ha => absurd ha List.not_mem_nil⟩, trivial⟩
  have hlocal : namelessSet.tag.localName = Cause.setName := by decide +kernel
  have hoverlay : nameless.IsOverlay false := by
    refine ⟨by decide +kernel, ?_, by simp, by simp, by simp⟩
    intro c hc
    obtain rfl := List.mem_singleton.1 hc
    exact .colorSet hlocal ⟨fun c hc => absurd hc List.not_mem_nil, by simp, by simp, by simp⟩
  have hdocument : nameless.document =
      ⟨"D", [.colorSet { name := "", position := some ⟨1, 104⟩ }]⟩ := by decide +kernel
  rw [read_bytes, ← hdocument]
  exact (root_source_ok_iff nameless hregular false _).2 ⟨hoverlay, rfl⟩

/-- The set of `nameless` is to blame, at its place on the first line. -/
theorem failures_located_nameless : ∃ d o, readSource (.ok nameless.bytes) false = .ok d ∧
    resolve d = .error o ∧ register d = .error o ∧ Blames d o ∧
      ∃ p, o.error.position? = some p ∧ p.Within nameless.bytes ∧
        ∃ item ∈ d.items, item.position = some p := by
  have hread : readSource (.ok nameless.bytes) false =
      .ok ⟨"D", [.colorSet { name := "", position := some ⟨1, 104⟩ }]⟩ := by
    simp only [readSource, nameless_read]
  have hresolve : resolve ⟨"D", [.colorSet { name := "", position := some ⟨1, 104⟩ }]⟩ =
      .error ⟨some ⟨1, 104⟩, .emptyName⟩ := rfl
  have hlocated := failures_located nameless.bytes false
  simp only [hread, hresolve] at hlocated
  exact ⟨_, _, hread, hresolve, hlocated.2⟩

end Overlay

end Livery
