import Livery.Overlay.Pulling
import Livery.Proofs.Cursors

/-!
# Event by event and by the tree

The reader that pulls events has the tree of contents ahead of it without ever seeing it. Each of
its steps is a step of the reader of trees.

* `Pull.Follows`: reading from a cursor does what the reader of trees says.
* `Pull.skip_follows`: the content of a foreign element is passed over up to its end tag.
* `Pull.nextChild_finds`: the next child is the one that the content left has next.
-/

namespace Livery.Overlay

open Markup (Content Cursor Element Event Fault Lexeme Scope)
open Markup.Cursor (Along Closes Leaves)

namespace Pull

variable {α β : Type} {r : Reader} {c c' : Cursor}

/-! ## One reading beside the other -/

theorem run_bind_ok {x : Pull α} {g : α → Pull β} {a : α} (h : x c = Part.some (.ok (a, c'))) :
    (x >>= g) c = g a c' := by
  simp only [bind, StateT.bind, ExceptT.bind, ExceptT.mk, h, Part.bind_some, ExceptT.bindCont]

theorem run_bind_error {x : Pull α} {g : α → Pull β} {stop : Stop}
    (h : x c = Part.some (.error stop)) : (x >>= g) c = Part.some (.error stop) := by
  simp only [bind, StateT.bind, ExceptT.bind, ExceptT.mk, h, Part.bind_some, ExceptT.bindCont]
  rfl

section Loops

variable {σ : Type} {round : σ → Pull (Turn σ α)} {s s' : σ}

theorem loop_again (h : round s c = Part.some (.ok (.again s', c'))) :
    loop round s c = loop round s' c' := by
  apply PFun.fix_fwd_eq
  rw [h]
  exact Part.mem_map Turn.next (Part.mem_some _)

theorem loop_done {a : α} (h : round s c = Part.some (.ok (.done a, c'))) :
    loop round s c = Part.some (.ok (a, c')) := by
  apply Part.eq_some_iff.2
  apply PFun.fix_stop
  rw [h]
  exact Part.mem_map Turn.next (Part.mem_some _)

theorem loop_error {stop : Stop} (h : round s c = Part.some (.error stop)) :
    loop round s c = Part.some (.error stop) := by
  apply Part.eq_some_iff.2
  apply PFun.fix_stop
  rw [h]
  exact Part.mem_map Turn.next (Part.mem_some _)

end Loops

/-- Reading from `c` on comes to an end with what `result` says, and behind an answer it is at a
place in `Q`. -/
def Follows (x : Pull α) (c : Cursor) (result : Reader.Result α) (Q : Cursor → Prop) : Prop :=
  match result with
  | .error failure => x c = Part.some (.error (.refused failure))
  | .ok a => ∃ c', x c = Part.some (.ok (a, c')) ∧ Q c'

namespace Follows

variable {P Q : Cursor → Prop} {x : Pull α} {result : Reader.Result α}

theorem pure (a : α) (h : Q c) : Follows (pure a) c (.ok a) Q := ⟨c, rfl, h⟩

theorem lift (result : Reader.Result α) (h : Q c) : Follows (lift result) c result Q := by
  cases result with
  | error failure => rfl
  | ok a => exact ⟨c, rfl, h⟩

theorem bind {g : α → Pull β} {s : α → Reader.Result β} (hx : Follows x c result P)
    (hg : ∀ a c', P c' → Follows (g a) c' (s a) Q) : Follows (x >>= g) c (result >>= s) Q := by
  cases result with
  | error failure => exact run_bind_error hx
  | ok a =>
    obtain ⟨c', hx, hP⟩ := hx
    have hnext := hg a c' hP
    unfold Follows at hnext ⊢
    simp only [run_bind_ok hx]
    exact hnext

/-- What does not touch the cursor may stand before it. -/
theorem lift_bind {g : α → Pull β} {s : α → Reader.Result β} (result : Reader.Result α)
    (hg : ∀ a, Follows (g a) c (s a) Q) : Follows (Pull.lift result >>= g) c (result >>= s) Q := by
  apply (Follows.lift result (rfl : c = c)).bind
  intro a c' hc'
  rw [← hc']
  exact hg a

theorem of_ok (h : Follows x c result Q) {a : α} (hx : x c = Part.some (.ok (a, c'))) : Q c' := by
  cases result with
  | error failure =>
    rw [show x c = _ from h] at hx
    cases Part.some_inj.1 hx
  | ok b =>
    obtain ⟨c'', hc'', hQ⟩ := h
    rw [hc''] at hx
    cases Part.some_inj.1 hx
    exact hQ

theorem congr {y : Pull α} {c₁ : Cursor} (h : Follows y c₁ result Q) (hxy : x c = y c₁) :
    Follows x c result Q := by
  unfold Follows at h ⊢
  rw [hxy]
  exact h

theorem imp (h : Follows x c result P) (hPQ : ∀ c', P c' → Q c') : Follows x c result Q := by
  cases result with
  | error failure => exact h
  | ok a =>
    obtain ⟨c', hx, hP⟩ := h
    exact ⟨c', hx, hPQ c' hP⟩

end Follows

theorem themed_eq (e : Element) (c : Cursor) :
    themed e c = Part.some (.ok (Reader.isThemed c.nesting.scope e, c)) := rfl

/-- A scope that cannot be entered is refused as the event is. -/
theorem enter_error {scope : Scope} {e : Element} {fault : Fault} (hoffset : e.offset = c.offset)
    (h : scope.enter e.tag = .error fault) :
    r.enter scope e = .error ⟨r.position c.offset, .markup fault⟩ := by
  rw [Reader.enter, h, ← hoffset]
  rfl

theorem enter_ok {scope inside : Scope} {e : Element} (h : scope.enter e.tag = .ok inside) :
    r.enter scope e = .ok inside := by
  rw [Reader.enter, h]
  rfl

variable [Markup.Decoders]

theorem event_ok {ev : Event} (h : c.next = .ok (ev, c')) :
    event r c = Part.some (.ok ((c.offset, ev), c')) := by
  simp only [event, h]

theorem event_error {fault : Fault} (h : c.next = .error fault) :
    event r c = Part.some (.error (.refused ⟨r.position c.offset, .markup fault⟩)) := by
  simp only [event, h]

/-! ## Passing over a foreign element -/

theorem skip_zero (r : Reader) (name : String) (c : Cursor) :
    skip r name 0 c = Part.some (.ok ((), c)) := by
  apply loop_done
  rw [skipRound, if_pos rfl]
  rfl

theorem skip_error {fault : Fault} (h : c.next = .error fault) (name : String) (n : Nat) :
    skip r name (n + 1) c = Part.some (.error (.refused ⟨r.position c.offset, .markup fault⟩)) := by
  apply loop_error
  rw [skipRound, if_neg (Nat.succ_ne_zero n), run_bind_error (event_error h)]

theorem skip_ended (h : c.next = .ok (.ended, c')) (name : String) (n : Nat) :
    skip r name (n + 1) c =
      Part.some (.error (.refused ⟨r.position c.offset, .endInside name⟩)) := by
  apply loop_error
  rw [skipRound, if_neg (Nat.succ_ne_zero n), run_bind_ok (event_ok h)]
  rfl

theorem skip_startTag {e : Element} (h : c.next = .ok (.startTag e, c')) (name : String) (n : Nat) :
    skip r name (n + 1) c = skip r name (n + 2) c' := by
  apply loop_again
  rw [skipRound, if_neg (Nat.succ_ne_zero n), run_bind_ok (event_ok h)]
  rfl

theorem skip_endTag (h : c.next = .ok (.endTag, c')) (name : String) (n : Nat) :
    skip r name (n + 1) c = skip r name n c' := by
  have hless : less (n + 1) c' = Part.some (.ok (n, c')) := rfl
  apply loop_again
  rw [skipRound, if_neg (Nat.succ_ne_zero n), run_bind_ok (event_ok h)]
  exact run_bind_ok hless

theorem skip_flat {ev : Event} (h : c.next = .ok (ev, c')) (flat : ev.IsFlat) (name : String)
    (n : Nat) : skip r name (n + 1) c = skip r name (n + 1) c' := by
  apply loop_again
  rw [skipRound, if_neg (Nat.succ_ne_zero n), run_bind_ok (event_ok h)]
  cases ev with
  | startTag | endTag | ended => exact flat.elim
  | _ => rfl

/-- With `n` more elements to be passed over behind it, the rest of an element is passed over up to
its end tag, or with what `result` says. -/
def Skips (r : Reader) (name : String) (n : Nat) (c : Cursor) (result : Reader.Result Unit) :
    Prop :=
  match result with
  | .error failure => skip r name (n + 1) c = Part.some (.error (.refused failure))
  | .ok () => ∃ c', Closes c c' ∧ skip r name (n + 1) c = skip r name n c'

namespace Skips

variable {name : String} {n : Nat} {c₁ : Cursor}

/-- What is balanced may stand before it. -/
theorem after {result : Reader.Result Unit} (h : Skips r name n c₁ result) (along : Along c c₁)
    (hskip : skip r name (n + 1) c = skip r name (n + 1) c₁) : Skips r name n c result := by
  cases result with
  | error failure => exact hskip.trans h
  | ok a =>
    obtain ⟨c', hcloses, hc'⟩ := h
    exact ⟨c', along.closes hcloses, hskip.trans hc'⟩

theorem flat {ev : Event} {more : Content}
    (h : Skips r name n c₁ (r.skip name c₁.settled.scope more)) (hnext : c.next = .ok (ev, c₁))
    (flat : ev.IsFlat) :
    Skips r name n c (r.skip name c.settled.scope more) := by
  rw [(Cursor.settled_of_flat hnext flat).2] at h
  exact h.after (.past hnext flat (.here c₁)) (skip_flat hnext flat name n)

end Skips

/-- **`skip` passes over what is left of an element up to its end tag.** -/
theorem skip_follows (name : String) (content : Content) {outer : List Content}
    (h : c.contents = content :: outer) (n : Nat) :
    Skips r name n c (r.skip name c.settled.scope content) := by
  induction content generalizing c n outer with
  | closed =>
    obtain ⟨c', hnext, -⟩ := Cursor.meets h
    exact ⟨c', ⟨c, .here c, hnext⟩, skip_endTag hnext name n⟩
  | ended offset =>
    obtain ⟨rfl, c', hnext⟩ := Cursor.meets h
    exact skip_ended hnext name n
  | broken offset fault =>
    obtain ⟨rfl, hnext⟩ := Cursor.meets h
    exact skip_error hnext name n
  | text offset bytes more ih | cdata offset bytes more ih =>
    obtain ⟨-, c₁, hnext, hmore⟩ := Cursor.meets h
    exact (ih hmore n).flat hnext trivial
  | remark lexeme more ih =>
    obtain ⟨c₁, hnext, hmore⟩ := Cursor.meets h
    exact (ih hmore n).flat hnext trivial
  | empty e more ih =>
    obtain ⟨hoffset, hmeets⟩ := Cursor.meets h
    rw [Reader.skip]
    cases henter : c.settled.scope.enter e.tag with
    | error fault =>
      rw [henter] at hmeets
      rw [enter_error hoffset henter]
      exact skip_error hmeets name n
    | ok inside =>
      rw [henter] at hmeets
      rw [enter_ok henter]
      obtain ⟨c₁, hnext, -, hmore⟩ := hmeets
      exact (ih hmore n).flat hnext trivial
  | element e inner more ihInner ihMore =>
    obtain ⟨hoffset, hmeets⟩ := Cursor.meets h
    rw [Reader.skip]
    cases henter : c.settled.scope.enter e.tag with
    | error fault =>
      rw [henter] at hmeets
      rw [enter_error hoffset henter]
      exact skip_error hmeets name n
    | ok inside =>
      rw [henter] at hmeets
      rw [enter_ok henter]
      obtain ⟨c₁, hnext, hinside, hinner⟩ := hmeets
      -- the element is passed over first, with one more behind it
      have hfirst := ihInner hinner (n + 1)
      rw [Cursor.settled_of_startTag hnext |>.2.2, hinside] at hfirst
      show Skips r name n c (r.skip name inside inner >>= fun _ => r.skip name c.settled.scope more)
      cases hresult : r.skip name inside inner with
      | error failure =>
        rw [hresult] at hfirst
        exact (skip_startTag hnext name n).trans hfirst
      | ok a =>
        rw [hresult] at hfirst
        obtain ⟨c₂, hcloses, hskip⟩ := hfirst
        have halong : Along c c₂ := .element hnext hcloses
        have hmore : c₂.contents = more :: outer := by rw [hcloses.contents_eq, hinner]; rfl
        have hlast := ihMore hmore n
        rw [halong.frame.2] at hlast
        exact hlast.after halong ((skip_startTag hnext name n).trans hskip)

/-! ## The next child -/

/-- The content of `child`, if it has any, where the cursor `c` is behind its first tag. -/
def Child.content (child : Child) (c : Cursor) : Option Content :=
  if child.hasContent then c.contents.head? else none

/-- The content left behind `child` and further out. -/
def Child.behind (child : Child) (c : Cursor) : List Content :=
  if child.hasContent then c.contents.tail else c.contents

/-- Past the element `child` whose first tag was read: up to its end tag and past it, and no further
at all if it is one tag. -/
def Past (child : Child) (c c' : Cursor) : Prop :=
  if child.hasContent then Closes c c' else c' = c

/-- How the `Reader` of trees reads an element: from the scope inside it, its first tag and its
content. -/
abbrev OfTree (α : Type) := Scope → Element → Option Content → Reader.Result α

/-- What `nextChild` finds, told of the `content` that is left. -/
inductive Finds (r : Reader) (parent : String) (scope : Scope) (content : Content)
    (outer : List Content) (c : Cursor) : Part (Except Stop (Option Child × Cursor)) → Prop
  | refused {failure : Failure}
    (same : ∀ {α : Type} (read : OfTree α),
      r.children parent read scope content = .error failure) :
    Finds r parent scope content outer c (Part.some (.error (.refused failure)))
  | none {c' : Cursor} (closes : Closes c c')
    (same : ∀ {α : Type} (read : OfTree α),
      r.children parent read scope content = .ok []) :
    Finds r parent scope content outer c (Part.some (.ok (none, c')))
  | some (child : Child) {before c₁ : Cursor} (more : Content) (along : Along c before)
    (opens : before.next = .ok (child.event, c₁))
    (themed : Reader.isThemed c₁.nesting.scope child.element = true)
    (behind : child.behind c₁ = more :: outer)
    (same : ∀ {α : Type} (read : OfTree α),
      r.children parent read scope content = do
        let a ← read c₁.nesting.scope child.element (child.content c₁)
        let as ← r.children parent read scope more
        pure (a :: as)) :
    Finds r parent scope content outer c (Part.some (.ok (some child, c₁)))

/-- What is balanced may stand before it. -/
theorem Finds.after {parent : String} {scope : Scope} {content content' : Content}
    {outer : List Content} {c₁ : Cursor} {result : Part (Except Stop (Option Child × Cursor))}
    (h : Finds r parent scope content' outer c₁ result) (along : Along c c₁)
    (hsame : ∀ {α : Type} (read : OfTree α),
      r.children parent read scope content = r.children parent read scope content') :
    Finds r parent scope content outer c result := by
  cases h with
  | refused same => exact .refused fun read => (hsame read).trans (same read)
  | none closes same => exact .none (along.closes closes) fun read => (hsame read).trans (same read)
  | some child more along' opens themed behind same =>
    exact .some child more (along.trans along') opens themed behind
      fun read => (hsame read).trans (same read)

theorem Finds.flat {parent : String} {content more : Content} {outer : List Content} {c₁ : Cursor}
    {ev : Event} {result : Part (Except Stop (Option Child × Cursor))}
    (h : Finds r parent c₁.settled.scope more outer c₁ result) (hnext : c.next = .ok (ev, c₁))
    (flat : ev.IsFlat)
    (hsame : ∀ {α : Type} (read : OfTree α),
      r.children parent read c.settled.scope content =
        r.children parent read c.settled.scope more) :
    Finds r parent c.settled.scope content outer c result := by
  rw [(Cursor.settled_of_flat hnext flat).2] at h
  exact h.after (.past hnext flat (.here c₁)) hsame

theorem nextChild_error {fault : Fault} (h : c.next = .error fault) (parent : String) :
    nextChild r parent c = Part.some (.error (.refused ⟨r.position c.offset, .markup fault⟩)) := by
  apply loop_error
  rw [nextChildRound, run_bind_error (event_error h)]

theorem nextChild_ended (h : c.next = .ok (.ended, c')) (parent : String) :
    nextChild r parent c =
      Part.some (.error (.refused ⟨r.position c.offset, .endInside parent⟩)) := by
  apply loop_error
  rw [nextChildRound, run_bind_ok (event_ok h)]
  rfl

theorem nextChild_endTag (h : c.next = .ok (.endTag, c')) (parent : String) :
    nextChild r parent c = Part.some (.ok (none, c')) := by
  apply loop_done
  rw [nextChildRound, run_bind_ok (event_ok h)]
  rfl

theorem nextChild_remark {lexeme : Lexeme} (h : c.next = .ok (.remark lexeme, c'))
    (parent : String) : nextChild r parent c = nextChild r parent c' := by
  apply loop_again
  rw [nextChildRound, run_bind_ok (event_ok h)]
  rfl

theorem nextChild_text {bytes : Bytes} (h : c.next = .ok (.text bytes, c')) (parent : String) :
    nextChild r parent c =
      if r.strict && !Reader.isBlank bytes then
        Part.some (.error (.refused ⟨r.position c.offset, .textInside parent⟩))
      else nextChild r parent c' := by
  have hround : nextChildRound r parent c =
      (if r.strict && !Reader.isBlank bytes then lift (r.refuse c.offset (.textInside parent))
        else pure (.again ()) : Pull (Turn Unit (Option Child))) c' := by
    rw [nextChildRound, run_bind_ok (event_ok h)]
  split
  · next htext =>
    rw [if_pos htext] at hround
    exact loop_error hround
  · next htext =>
    rw [if_neg htext] at hround
    exact loop_again hround

theorem nextChild_cdata {bytes : Bytes} (h : c.next = .ok (.cdata bytes, c')) (parent : String) :
    nextChild r parent c =
      if r.strict then Part.some (.error (.refused ⟨r.position c.offset, .textInside parent⟩))
      else nextChild r parent c' := by
  have hround : nextChildRound r parent c =
      (if r.strict then lift (r.refuse c.offset (.textInside parent))
        else pure (.again ()) : Pull (Turn Unit (Option Child))) c' := by
    rw [nextChildRound, run_bind_ok (event_ok h)]
  split
  · next hstrict =>
    rw [if_pos hstrict] at hround
    exact loop_error hround
  · next hstrict =>
    rw [if_neg hstrict] at hround
    exact loop_again hround

theorem nextChild_emptyTag {e : Element} (h : c.next = .ok (.emptyTag e, c')) (parent : String) :
    nextChild r parent c =
      if Reader.isThemed c'.nesting.scope e then Part.some (.ok (some ⟨e, false⟩, c'))
      else nextChild r parent c' := by
  have hround : nextChildRound r parent c =
      (if Reader.isThemed c'.nesting.scope e then pure (.done (some ⟨e, false⟩))
        else pure (.again ()) : Pull (Turn Unit (Option Child))) c' := by
    rw [nextChildRound, run_bind_ok (event_ok h)]
    exact run_bind_ok (themed_eq e c')
  split
  · next hthemed =>
    rw [if_pos hthemed] at hround
    exact loop_done hround
  · next hthemed =>
    rw [if_neg hthemed] at hround
    exact loop_again hround

/-- One event of `nextChildRound` that begins an element of two tags. -/
theorem nextChildRound_startTag {e : Element} (h : c.next = .ok (.startTag e, c'))
    (parent : String) : nextChildRound r parent c =
      (if Reader.isThemed c'.nesting.scope e then pure (.done (some ⟨e, true⟩))
        else skip r e.tag.fullName 1 >>= fun _ => pure (.again ()) :
          Pull (Turn Unit (Option Child))) c' := by
  rw [nextChildRound, run_bind_ok (event_ok h)]
  exact run_bind_ok (themed_eq e c')

/-- **The next child is the one that the content left has next.** -/
theorem nextChild_finds (parent : String) (content : Content) {outer : List Content}
    (h : c.contents = content :: outer) :
    Finds r parent c.settled.scope content outer c (nextChild r parent c) := by
  induction content generalizing c outer with
  | closed =>
    obtain ⟨c', hnext, -⟩ := Cursor.meets h
    rw [nextChild_endTag hnext]
    exact .none ⟨c, .here c, hnext⟩ fun _ => rfl
  | ended offset =>
    obtain ⟨rfl, c', hnext⟩ := Cursor.meets h
    rw [nextChild_ended hnext]
    exact .refused fun _ => rfl
  | broken offset fault =>
    obtain ⟨rfl, hnext⟩ := Cursor.meets h
    rw [nextChild_error hnext]
    exact .refused fun _ => rfl
  | text offset bytes more ih =>
    obtain ⟨rfl, c₁, hnext, hmore⟩ := Cursor.meets h
    rw [nextChild_text hnext]
    split
    · next htext => exact .refused fun _ => by rw [Reader.children, if_pos htext]; rfl
    · next htext =>
      exact (ih hmore).flat hnext trivial fun _ => by rw [Reader.children, if_neg htext]
  | cdata offset bytes more ih =>
    obtain ⟨rfl, c₁, hnext, hmore⟩ := Cursor.meets h
    rw [nextChild_cdata hnext]
    split
    · next hstrict => exact .refused fun _ => by rw [Reader.children, if_pos hstrict]; rfl
    · next hstrict =>
      exact (ih hmore).flat hnext trivial fun _ => by rw [Reader.children, if_neg hstrict]
  | remark lexeme more ih =>
    obtain ⟨c₁, hnext, hmore⟩ := Cursor.meets h
    rw [nextChild_remark hnext]
    exact (ih hmore).flat hnext trivial fun _ => rfl
  | empty e more ih =>
    obtain ⟨hoffset, hmeets⟩ := Cursor.meets h
    cases henter : c.settled.scope.enter e.tag with
    | error fault =>
      rw [henter] at hmeets
      rw [nextChild_error hmeets]
      exact .refused fun _ => by
        rw [Reader.children, enter_error hoffset henter]
        rfl
    | ok inside =>
      rw [henter] at hmeets
      obtain ⟨c₁, hnext, rfl, hmore⟩ := hmeets
      rw [nextChild_emptyTag hnext]
      split
      · next hthemed =>
        exact .some ⟨e, false⟩ more (.here c) hnext hthemed hmore fun _ => by
          rw [Reader.children, enter_ok henter]
          exact if_pos hthemed
      · next hthemed =>
        exact (ih hmore).flat hnext trivial fun _ => by
          rw [Reader.children, enter_ok henter]
          exact if_neg hthemed
  | element e inner more _ ih =>
    obtain ⟨hoffset, hmeets⟩ := Cursor.meets h
    cases henter : c.settled.scope.enter e.tag with
    | error fault =>
      rw [henter] at hmeets
      rw [nextChild_error hmeets]
      exact .refused fun _ => by
        rw [Reader.children, enter_error hoffset henter]
        rfl
    | ok inside =>
      rw [henter] at hmeets
      obtain ⟨c₁, hnext, rfl, hinner⟩ := hmeets
      have hround := nextChildRound_startTag (r := r) hnext parent
      by_cases hthemed : Reader.isThemed c₁.nesting.scope e = true
      · rw [if_pos hthemed] at hround
        rw [nextChild, loop_done hround]
        refine .some ⟨e, true⟩ more (.here c) hnext hthemed ?_ fun _ => ?_
        · exact congrArg List.tail hinner
        · rw [Reader.children, enter_ok henter]
          have hcontent : Child.content ⟨e, true⟩ c₁ = some inner := congrArg List.head? hinner
          rw [hcontent]
          exact if_pos hthemed
      · rw [if_neg hthemed] at hround
        have hskip := skip_follows (r := r) e.tag.fullName inner hinner 0
        rw [(Cursor.settled_of_startTag hnext).2.2] at hskip
        -- what the tree has is passed over before the children behind it
        have hsame : ∀ {α : Type} (read : OfTree α),
            r.children parent read c.settled.scope (.element e inner more) =
              r.skip e.tag.fullName c₁.nesting.scope inner >>= fun _ =>
                r.children parent read c.settled.scope more := by
          intro α read
          rw [Reader.children, enter_ok henter]
          exact if_neg hthemed
        cases hresult : r.skip e.tag.fullName c₁.nesting.scope inner with
        | error failure =>
          rw [hresult] at hskip hsame
          rw [run_bind_error hskip] at hround
          rw [nextChild, loop_error hround]
          exact .refused hsame
        | ok a =>
          rw [hresult] at hskip hsame
          obtain ⟨c₂, hcloses, hskip⟩ := hskip
          rw [skip_zero] at hskip
          rw [run_bind_ok hskip] at hround
          have halong : Along c c₂ := .element hnext hcloses
          have hmore : c₂.contents = more :: outer := by rw [hcloses.contents_eq, hinner]; rfl
          have hlast := ih hmore
          rw [halong.frame.2] at hlast
          rw [nextChild, loop_again hround]
          exact hlast.after halong hsame

end Pull

end Livery.Overlay
