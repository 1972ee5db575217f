import Livery.Markup.Cursor
import Livery.Proofs.Openings

/-!
# Cursors and contents

A cursor goes through a text and knows what is open; the tree of contents knows what is left of each
element that is open. Both are about the same text.

* `Cursor.Step`: all the ways in which an event is read.
* `Cursor.next_length_lt`: an event before the end of the text takes at least one byte.
* `Cursor.meets`: the next event is the one that the content left begins with.
* `Cursor.Along`: past whole events and whole elements, after which the same elements are open and
  the same declarations in force.
* `Cursor.Closes`: up to and past the end tag of the element that is open.
-/

namespace Livery.Markup

/-! ## Declarations of one tag -/

namespace Scope

/-- The declarations `own` on top of those of `s`. -/
def above (own s : Scope) : Scope := ⟨own.bindings ++ s.bindings⟩

theorem declare_above (own s : Scope) (a : Attribute) :
    (own.above s).declare a = (own.declare a).map (·.above s) := by
  unfold declare
  cases declaredPrefix? a.key with
  | none => rfl
  | some p =>
    dsimp only
    split_ifs <;> rfl

/-- What the tag `t` declares, and whether it may, does not depend on what is in force. -/
theorem enter_eq (s : Scope) (t : Tag) :
    s.enter t = (Scope.enter ⟨[]⟩ t).map (·.above s) := by
  have hfold : ∀ (as : List Attribute) (own : Scope),
      as.foldlM declare (own.above s) = (as.foldlM declare own).map (·.above s) := by
    intro as
    induction as with
    | nil => intro own; rfl
    | cons a as ih =>
      intro own
      rw [List.foldlM_cons, List.foldlM_cons, declare_above]
      cases own.declare a with
      | error fault => rfl
      | ok own' => exact ih own'
  exact hfold _ ⟨[]⟩

end Scope

theorem Nesting.scope_enter (n : Nesting) (own : Scope) :
    (n.enter own).scope = own.above n.scope := by
  simp [scope, enter, Scope.above, List.map_append, Function.comp_def]

namespace Cursor

variable {c c' : Cursor} {event : Event}

/-! ## One event -/

/-- All the ways in which `next` reads an event. -/
inductive Step (c : Cursor) : Event → Cursor → Prop
  | ended (found : Lexeme.scan c.rest = .finished) :
    Step c .ended { c with nesting := c.settled, leaving := false }
  | text {bytes rest : Bytes} (found : Lexeme.scan c.rest = .found (.text bytes) rest) :
    Step c (.text bytes) (c.behind (.text bytes) rest)
  | cdata {bytes rest : Bytes} (found : Lexeme.scan c.rest = .found (.cdata bytes) rest) :
    Step c (.cdata bytes) (c.behind (.cdata bytes) rest)
  | comment {body rest : Bytes} (found : Lexeme.scan c.rest = .found (.comment body) rest) :
    Step c (.remark (.comment body)) (c.behind (.comment body) rest)
  | doctype {body rest : Bytes} (found : Lexeme.scan c.rest = .found (.doctype body) rest) :
    Step c (.remark (.doctype body)) (c.behind (.doctype body) rest)
  | instruction {body rest : Bytes} (found : Lexeme.scan c.rest = .found (.instruction body) rest) :
    Step c (.remark (.instruction body)) (c.behind (.instruction body) rest)
  | declaration {inside : Tag} {rest : Bytes}
    (found : Lexeme.scan c.rest = .found (.declaration inside) rest) :
    Step c (.remark (.declaration inside))
      { c.behind (.declaration inside) rest with charset := c.charset.afterDeclaration inside }
  | startTag {tag : Tag} {rest : Bytes} {own : Scope}
    (found : Lexeme.scan c.rest = .found (.startTag tag) rest)
    (declares : Scope.enter ⟨[]⟩ tag = .ok own) :
    Step c (.startTag (c.element tag))
      { c.behind (.startTag tag) rest with
        opened := tag.name :: c.opened, nesting := c.settled.enter own }
  | emptyTag {tag : Tag} {rest : Bytes} {own : Scope}
    (found : Lexeme.scan c.rest = .found (.emptyTag tag) rest)
    (declares : Scope.enter ⟨[]⟩ tag = .ok own) :
    Step c (.emptyTag (c.element tag))
      { c.behind (.emptyTag tag) rest with nesting := c.settled.enter own, leaving := true }
  | endTag {name rest : Bytes} {outer : List Bytes}
    (found : Lexeme.scan c.rest = .found (.endTag name) rest)
    (closes : c.opened = endName name :: outer) :
    Step c .endTag { c.behind (.endTag name) rest with opened := outer, leaving := true }

variable [Decoders]

theorem step_of_next (h : c.next = .ok (event, c')) : Step c event c' := by
  unfold next at h
  split at h
  · next found =>
    cases h
    exact .ended found
  · cases h
  · next lexeme rest found =>
    cases lexeme with
    | text | cdata | comment | doctype | instruction | declaration =>
      cases h
      constructor
      exact found
    | startTag tag | emptyTag tag =>
      simp only at h
      split at h
      · cases h
      · next declares =>
        cases h
        constructor
        · exact found
        · exact declares
    | endTag name =>
      simp only at h
      split at h
      · cases h
      · next expected outer hopened =>
        split at h
        · next hname =>
          cases h
          exact .endTag found (by rw [hopened, hname])
        · cases h

theorem next_rest (h : c.next = .ok (event, c')) :
    (event = .ended ∧ c'.rest = c.rest) ∨ c'.rest.length < c.rest.length := by
  cases step_of_next h with
  | ended => exact .inl ⟨rfl, rfl⟩
  | text found | cdata found | comment found | doctype found | instruction found
  | declaration found | startTag found _ | emptyTag found _ | endTag found _ =>
    exact .inr (Lexeme.scan_length_lt found)

/-- **An event before the end of the text takes at least one byte.** -/
theorem next_length_lt (h : c.next = .ok (event, c')) (hevent : event ≠ .ended) :
    c'.rest.length < c.rest.length := by
  rcases next_rest h with ⟨hended, -⟩ | hlt
  · exact absurd hended hevent
  · exact hlt

end Cursor

/-- An event that neither opens nor closes an element, but is not the end of the text either. -/
def Event.IsFlat : Event → Prop
  | .text _ | .cdata _ | .remark _ | .emptyTag _ => True
  | .startTag _ | .endTag | .ended => False

namespace Cursor

variable {c c' : Cursor} {event : Event}

variable [Decoders]

theorem settled_of_flat (h : c.next = .ok (event, c')) (flat : event.IsFlat) :
    c'.opened = c.opened ∧ c'.settled = c.settled := by
  cases step_of_next h with
  | ended | startTag | endTag => exact flat.elim
  | emptyTag => exact ⟨rfl, Nesting.leave_enter _ _⟩
  | _ => exact ⟨rfl, rfl⟩

theorem settled_of_startTag {e : Element} (h : c.next = .ok (.startTag e, c')) :
    c'.opened = e.tag.name :: c.opened ∧ c'.settled.leave = c.settled ∧
      c'.settled = c'.nesting := by
  cases step_of_next h with
  | startTag => exact ⟨rfl, Nesting.leave_enter _ _, rfl⟩

theorem settled_of_endTag (h : c.next = .ok (.endTag, c')) :
    ∃ name, Lexeme.scan c.rest = .found (.endTag name) c'.rest ∧
      c.opened = endName name :: c'.opened ∧ c'.settled = c.settled.leave := by
  cases step_of_next h with
  | endTag found closes => exact ⟨_, found, closes, rfl⟩

/-! ## The content that is left -/

/-- The `Content` that is left of each element that is open, the innermost first, and of the text as
a whole last. -/
def contents (c : Cursor) : List Content :=
  (Stream.scan c.offset c.rest).contents c.charset c.opened

theorem length_contents (c : Cursor) : c.contents.length = c.opened.length + 1 :=
  Stream.length_contents _ _ _

theorem exists_contents (c : Cursor) : ∃ content outer, c.contents = content :: outer :=
  List.exists_cons_of_length_pos (by simp [length_contents])

theorem contents_finished (h : Lexeme.scan c.rest = .finished) :
    c.contents = List.replicate (c.opened.length + 1) (.ended c.offset) := by
  rw [contents, Stream.scan_step, h]
  rfl

theorem contents_broken {fault : Fault} (h : Lexeme.scan c.rest = .broken fault) :
    c.contents = List.replicate (c.opened.length + 1) (.broken c.offset fault) := by
  rw [contents, Stream.scan_step, h]
  rfl

theorem contents_found {lexeme : Lexeme} {rest : Bytes}
    (h : Lexeme.scan c.rest = .found lexeme rest) :
    c.contents = (Stream.next c.offset lexeme
      (Stream.scan (c.offsetBehind lexeme rest) rest)).contents c.charset c.opened := by
  rw [contents, Stream.scan_step, h]
  cases lexeme with
  | text bytes =>
    cases rest with
    | nil => rw [show Stream.scan (c.offsetBehind (.text bytes) []) [] = .finished _ by
        rw [Stream.scan_step]; rfl]; rfl
    | cons b rest => rfl
  | _ => rfl

end Cursor

/-- What an `Event` at `offset` puts in front of the contents behind it. -/
def Event.ahead (offset : Nat) : Event → List Content → List Content
  | .startTag e, l => Content.nest e l
  | .emptyTag e, l => l.modifyHead (.empty e)
  | .endTag, l => .closed :: l
  | .text bytes, l => l.modifyHead (.text offset bytes)
  | .cdata bytes, l => l.modifyHead (.cdata offset bytes)
  | .remark lexeme, l => l.modifyHead (.remark lexeme)
  | .ended, l => List.replicate l.length (.ended offset)

theorem Event.tail_ahead {event : Event} (flat : event.IsFlat) (offset : Nat) (l : List Content) :
    (event.ahead offset l).tail = l.tail := by
  cases event with
  | startTag | endTag | ended => exact flat.elim
  | _ => cases l <;> rfl

theorem Content.tail_nest (e : Element) (l : List Content) : (nest e l).tail = l.tail.tail := by
  match l with
  | [] | [_] | _ :: _ :: _ => rfl

namespace Cursor

variable {c c' : Cursor} {event : Event}

theorem enter_of_error {tag : Tag} {fault : Fault} (h : Scope.enter ⟨[]⟩ tag = .error fault)
    (s : Scope) : s.enter tag = .error fault := by
  rw [Scope.enter_eq, h]
  rfl

variable [Decoders]

/-- An event is in front of what `contents` are left behind it. -/
theorem contents_of_next (h : c.next = .ok (event, c')) :
    c.contents = event.ahead c.offset c'.contents := by
  cases step_of_next h with
  | ended found =>
    rw [contents_finished found, Event.ahead]
    congr 1
    exact (length_contents _).symm
  | endTag found closes =>
    rw [contents_found found]
    simp only [Stream.contents, closes, if_true]
    rfl
  | text found | cdata found | comment found | doctype found | instruction found
  | declaration found | startTag found _ | emptyTag found _ =>
    rw [contents_found found]
    rfl

/-- Where `next` reads no event, the text is broken, or a tag declares what it may not. -/
theorem contents_of_fault {fault : Fault} (h : c.next = .error fault) :
    c.contents = List.replicate (c.opened.length + 1) (.broken c.offset fault) ∨
      ∃ tag behind, Scope.enter ⟨[]⟩ tag = .error fault ∧
        (c.contents = Event.ahead c.offset (.startTag (c.element tag)) behind ∧
            2 ≤ behind.length ∨
          c.contents = Event.ahead c.offset (.emptyTag (c.element tag)) behind ∧
            1 ≤ behind.length) := by
  unfold next at h
  split at h
  · cases h
  · next fault' broken =>
    cases h
    exact .inl (contents_broken broken)
  · next lexeme rest found =>
    have hcontents := contents_found found
    cases lexeme with
    | text | cdata | comment | doctype | instruction | declaration => cases h
    | startTag tag =>
      simp only at h
      split at h
      · next declares =>
        cases h
        refine .inr ⟨tag, _, declares, .inl ⟨hcontents, ?_⟩⟩
        simp [Stream.length_contents]
      · cases h
    | emptyTag tag =>
      simp only at h
      split at h
      · next declares =>
        cases h
        refine .inr ⟨tag, _, declares, .inr ⟨hcontents, ?_⟩⟩
        simp [Stream.length_contents]
      · cases h
    | endTag name =>
      left
      rw [hcontents]
      simp only at h
      split at h
      · next hopened =>
        cases h
        simp [Stream.contents, hopened]
      · next expected outer hopened =>
        split at h
        · cases h
        · next hname =>
          cases h
          simp [Stream.contents, hopened, hname]

/-- The next event of a cursor is the one that a content begins with, and what is left behind it is
what follows in the content and then `outer`. -/
def Meets (c : Cursor) (outer : List Content) : Content → Prop
  | .closed => ∃ c', c.next = .ok (.endTag, c') ∧ c'.contents = outer
  | .ended offset => offset = c.offset ∧ ∃ c', c.next = .ok (.ended, c')
  | .broken offset fault => offset = c.offset ∧ c.next = .error fault
  | .text offset bytes more =>
    offset = c.offset ∧ ∃ c', c.next = .ok (.text bytes, c') ∧ c'.contents = more :: outer
  | .cdata offset bytes more =>
    offset = c.offset ∧ ∃ c', c.next = .ok (.cdata bytes, c') ∧ c'.contents = more :: outer
  | .remark lexeme more =>
    ∃ c', c.next = .ok (.remark lexeme, c') ∧ c'.contents = more :: outer
  | .empty e more =>
    e.offset = c.offset ∧ match c.settled.scope.enter e.tag with
      | .error fault => c.next = .error fault
      | .ok inside => ∃ c', c.next = .ok (.emptyTag e, c') ∧ c'.nesting.scope = inside ∧
          c'.contents = more :: outer
  | .element e inner more =>
    e.offset = c.offset ∧ match c.settled.scope.enter e.tag with
      | .error fault => c.next = .error fault
      | .ok inside => ∃ c', c.next = .ok (.startTag e, c') ∧ c'.nesting.scope = inside ∧
          c'.contents = inner :: more :: outer

/-- The scope that the tag of `e` opens is the one inside it. -/
theorem enter_of_next {e : Element} (h : c.next = .ok (event, c'))
    (hevent : event = .startTag e ∨ event = .emptyTag e) :
    e.offset = c.offset ∧ c.settled.scope.enter e.tag = .ok c'.nesting.scope := by
  cases step_of_next h with
  | startTag found declares | emptyTag found declares =>
    obtain rfl : c.element _ = e := by simpa using hevent
    refine ⟨rfl, ?_⟩
    rw [Scope.enter_eq, element, declares, Nesting.scope_enter]
    rfl
  | _ => simp at hevent

/-- **The next event is the one that the content left begins with.** -/
theorem meets {content : Content} {outer : List Content} (h : c.contents = content :: outer) :
    c.Meets outer content := by
  cases hnext : c.next with
  | error fault =>
    rcases contents_of_fault hnext with hbroken | ⟨tag, behind, hfault, hstart | hempty⟩
    · rw [h, List.replicate_succ] at hbroken
      cases hbroken
      exact ⟨rfl, hnext⟩
    · obtain ⟨hcontents, hlength⟩ := hstart
      match behind with
      | inner :: more :: outer' =>
        rw [h] at hcontents
        cases hcontents
        refine ⟨rfl, ?_⟩
        simpa only [element, enter_of_error hfault] using hnext
      | [_] => simp at hlength
      | [] => simp at hlength
    · obtain ⟨hcontents, hlength⟩ := hempty
      match behind with
      | more :: outer' =>
        rw [h] at hcontents
        cases hcontents
        refine ⟨rfl, ?_⟩
        simpa only [element, enter_of_error hfault] using hnext
      | [] => simp at hlength
  | ok result =>
    obtain ⟨event, c'⟩ := result
    have hcontents := contents_of_next hnext
    rw [h] at hcontents
    obtain ⟨more, outer', hmore⟩ := c'.exists_contents
    rw [hmore] at hcontents
    cases event with
    | startTag e =>
      obtain ⟨hoffset, henter⟩ := enter_of_next hnext (.inl rfl)
      -- behind a start tag there is the content of one element more
      have hlength : 2 ≤ (more :: outer').length := by
        rw [← hmore, length_contents, (settled_of_startTag hnext).1]
        simp
      obtain ⟨after, outer'', rfl⟩ :=
        List.exists_cons_of_length_pos (Nat.le_of_succ_le_succ hlength)
      cases hcontents
      refine ⟨hoffset, ?_⟩
      rw [henter]
      exact ⟨c', hnext, rfl, hmore⟩
    | emptyTag e =>
      obtain ⟨hoffset, henter⟩ := enter_of_next hnext (.inr rfl)
      cases hcontents
      refine ⟨hoffset, ?_⟩
      rw [henter]
      exact ⟨c', hnext, rfl, hmore⟩
    | endTag =>
      cases hcontents
      exact ⟨c', hnext, hmore⟩
    | text bytes | cdata bytes =>
      cases hcontents
      exact ⟨rfl, c', hnext, hmore⟩
    | remark lexeme =>
      cases hcontents
      exact ⟨c', hnext, hmore⟩
    | ended =>
      cases hcontents
      exact ⟨rfl, c', hnext⟩

/-! ## Past whole elements -/

/-- From one place to another past whole events, each of which `IsFlat`, and whole elements. -/
inductive Along : Cursor → Cursor → Prop
  | here (c : Cursor) : Along c c
  | past {c c₁ c' : Cursor} {event : Event} (first : c.next = .ok (event, c₁))
    (flat : event.IsFlat) (more : Along c₁ c') : Along c c'
  | around {c c₁ c₂ c₃ c' : Cursor} {e : Element} (opens : c.next = .ok (.startTag e, c₁))
    (inside : Along c₁ c₂) (closes : c₂.next = .ok (.endTag, c₃)) (more : Along c₃ c') : Along c c'

/-- From `c` up to the end tag of the element that is open, and past it to `c'`. -/
def Closes (c c' : Cursor) : Prop :=
  ∃ last, Along c last ∧ last.next = .ok (.endTag, c')

namespace Along

variable {c₁ c₂ : Cursor}

theorem trans (h : Along c c₁) (h' : Along c₁ c') : Along c c' := by
  induction h with
  | here => exact h'
  | past first flat _ ih => exact .past first flat (ih h')
  | around opens inside closes _ _ ih => exact .around opens inside closes (ih h')

theorem closes (h : Along c c₁) (h' : Closes c₁ c') : Closes c c' := by
  obtain ⟨last, hlast, hend⟩ := h'
  exact ⟨last, h.trans hlast, hend⟩

/-- An element `e` whose content is behind is behind as a whole. -/
theorem element {e : Element} (opens : c.next = .ok (.startTag e, c₁)) (inside : Closes c₁ c') :
    Along c c' := by
  obtain ⟨last, hlast, hend⟩ := inside
  exact .around opens hlast hend (.here c')

theorem length_le (h : Along c c') : c'.rest.length ≤ c.rest.length := by
  induction h with
  | here => exact Nat.le_refl _
  | past first flat _ ih =>
    rcases next_rest first with ⟨rfl, -⟩ | hlt
    · exact flat.elim
    · omega
  | around opens _ closes _ ih ih' =>
    have hopens := next_length_lt opens (by simp)
    have hcloses := next_length_lt closes (by simp)
    omega

/-- **The same elements are open and the same declarations in force.** -/
theorem frame (h : Along c c') : c'.opened = c.opened ∧ c'.settled = c.settled := by
  induction h with
  | here => exact ⟨rfl, rfl⟩
  | past first flat _ ih =>
    obtain ⟨hopened, hsettled⟩ := settled_of_flat first flat
    exact ⟨ih.1.trans hopened, ih.2.trans hsettled⟩
  | around opens _ closes _ ih ih' =>
    obtain ⟨hopens, henter, -⟩ := settled_of_startTag opens
    obtain ⟨name, -, hcloses, hleave⟩ := settled_of_endTag closes
    rw [ih.1, hopens] at hcloses
    rw [ih.2, henter] at hleave
    exact ⟨ih'.1.trans (List.cons.inj hcloses).2.symm, ih'.2.trans hleave⟩

/-- What is left of the elements further out is not touched. -/
theorem tail_contents (h : Along c c') : c'.contents.tail = c.contents.tail := by
  induction h with
  | here => rfl
  | past first flat _ ih =>
    rw [ih, contents_of_next first, Event.tail_ahead flat]
  | @around c c₁ c₂ c₃ c' e opens _ closes _ ih ih' =>
    have hopens : c.contents.tail = c₁.contents.tail.tail := by
      rw [contents_of_next opens]
      exact Content.tail_nest e c₁.contents
    have hcloses : c₂.contents.tail = c₃.contents := by
      rw [contents_of_next closes]
      rfl
    rw [ih', ← hcloses, ih, hopens]

end Along

namespace Closes

theorem length_lt (h : Closes c c') : c'.rest.length < c.rest.length := by
  obtain ⟨last, hlast, hend⟩ := h
  have hle := hlast.length_le
  have hlt := next_length_lt hend (by simp)
  omega

/-- What is left is what follows the element. -/
theorem contents_eq (h : Closes c c') : c'.contents = c.contents.tail := by
  obtain ⟨last, hlast, hend⟩ := h
  rw [← hlast.tail_contents, contents_of_next hend]
  rfl

end Closes

/-- The place `c'` is just behind the end tag of the element `e`, whose start tag is at `c₀` and
whose content begins at `c`: what is open and what is in force is what was before the start tag. -/
structure Leaves (c₀ : Cursor) (e : Element) (c c' : Cursor) : Prop where
  along : Along c₀ c'
  /-- What lies between the two tags is balanced, and the second has the name of the first. -/
  endTag : ∃ last name, Along c last ∧ Lexeme.scan last.rest = .found (.endTag name) c'.rest ∧
    endName name = e.tag.name
  opened : c'.opened = c₀.opened
  settled : c'.settled = c₀.settled

/-- **What `Closes` the content of an element leaves the element.** -/
theorem Closes.leaves {c₀ : Cursor} {e : Element} (h : Closes c c')
    (opens : c₀.next = .ok (.startTag e, c)) : Leaves c₀ e c c' := by
  have halong : Along c₀ c' := .element opens h
  obtain ⟨last, hlast, hend⟩ := h
  obtain ⟨name, hscan, hcloses, -⟩ := settled_of_endTag hend
  rw [hlast.frame.1, (settled_of_startTag opens).1] at hcloses
  have hname := (List.cons.inj hcloses).1
  exact ⟨halong, ⟨last, name, hlast, hscan, hname.symm⟩, halong.frame.1, halong.frame.2⟩

end Cursor

end Livery.Markup
