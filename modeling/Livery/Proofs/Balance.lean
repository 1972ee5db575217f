import Livery.Libraries
import Livery.Proofs.Pulling

/-!
# Balance of the event reader

The reader that pulls events never comes to rest inside an element: what it reads of an element
ends just behind the end tag of that element, with the declarations in force that were in force
before the start tag. It comes to an end on every text, and it reads what the reader of trees reads.

* `Pull.Reads`: an element is read as the reader of trees reads it, and the cursor is past it.
* `Pull.read_eq`: both readers make the same of every text.
* `Pull.reader_balanced`: balance and termination.
-/

namespace Livery.Overlay

open Markup (Content Cursor Element Event Fault Lexeme Scope)
open Markup.Cursor (Along Closes Leaves)

namespace Pull

variable {α β : Type} {r : Reader} {c c' : Cursor}

/-- What is read behind the list `as` and `a` more. -/
theorem map_append_cons (as : List α) (a : α) (result : Reader.Result (List α)) :
    (as ++ ·) <$> (result >>= fun more => pure (a :: more)) = (as ++ [a] ++ ·) <$> result := by
  cases result with
  | error failure => rfl
  | ok more => exact congrArg Except.ok (List.append_assoc as [a] more).symm

theorem run'_eq {x : Pull α} {result : Except Stop (α × Cursor)} (h : x c = Part.some result) :
    x.run' c = Part.some (result.map (·.1)) := by
  show ExceptT.map Prod.fst (x c : ExceptT Stop Part (α × Cursor)) = _
  simp only [ExceptT.map, ExceptT.mk, h, bind, Part.bind_some]
  cases result with
  | error stop => rfl
  | ok answer => rfl

/-! ## The readers of elements -/

section Readers

variable [Markup.Decoders]

namespace Past

variable {child : Child}

theorem contents_eq (h : Past child c c') : c'.contents = child.behind c := by
  unfold Past at h
  unfold Child.behind
  split at h
  · next hcontent => rw [if_pos hcontent, h.contents_eq]
  · next hcontent => rw [if_neg hcontent, h]

theorem along {c₀ : Cursor} (h : Past child c c') (opens : c₀.next = .ok (child.event, c)) :
    Along c₀ c' := by
  unfold Past at h
  unfold Child.event at opens
  split at h
  · next hcontent =>
    rw [if_pos hcontent] at opens
    exact .element opens h
  · next hcontent =>
    rw [if_neg hcontent] at opens
    rw [h]
    exact .past opens trivial (.here c)

theorem length_lt {c₀ : Cursor} (h : Past child c c') (opens : c₀.next = .ok (child.event, c)) :
    c'.rest.length < c₀.rest.length := by
  have hopens := Cursor.next_length_lt opens (by unfold Child.event; split <;> simp)
  unfold Past at h
  split at h
  · have hcloses := h.length_lt
    omega
  · rw [h]
    exact hopens

end Past

/-- Reading an element with `x` comes to an end with what the reader of trees makes of it, and an
answer is found past the element. -/
def Reads (x : Child → Pull α) (result : OfTree α) : Prop :=
  ∀ ⦃c₀ : Cursor⦄ ⦃child : Child⦄ ⦃c : Cursor⦄, c₀.next = .ok (child.event, c) →
    Follows (x child) c (result c.nesting.scope child.element (child.content c)) (Past child c)

section Children

variable {read : Child → Pull α} {child : OfTree α}

/-- **`each` reads the children that are left up to the end tag of their parent.** -/
theorem each_follows (hread : Reads read child) (parent : String) {content : Content}
    {outer : List Content} (h : c.contents = content :: outer) (as : List α) :
    Follows (each r parent read as) c
      ((as ++ ·) <$> r.children parent child c.settled.scope content) (Closes c) := by
  -- the text left gets shorter with every child
  induction hn : c.rest.length using Nat.strongRecOn generalizing c content as with
  | ind n ih =>
    have hfinds := nextChild_finds (r := r) parent content h
    generalize hresult : nextChild r parent c = result at hfinds
    cases hfinds with
    | refused same =>
      rw [same child]
      exact loop_error (run_bind_error hresult)
    | @none c' closes same =>
      have hround : eachRound r parent read as c = Part.some (.ok (.done as, c')) :=
        run_bind_ok hresult
      rw [same child]
      refine ⟨c', ?_, closes⟩
      rw [each, loop_done hround]
      simp
    | @some next before c₁ more along opens themed behind same =>
      have hround : eachRound r parent read as c =
          (read next >>= fun a => pure (.again (as ++ [a])) :
            Pull (Turn (List α) (List α))) c₁ := run_bind_ok hresult
      have hfirst := hread opens
      rw [same child]
      cases hchild : child c₁.nesting.scope next.element (next.content c₁) with
      | error failure =>
        rw [hchild] at hfirst
        rw [run_bind_error hfirst] at hround
        exact loop_error hround
      | ok a =>
        rw [hchild] at hfirst
        obtain ⟨c₂, hfirst, hpast⟩ := hfirst
        rw [run_bind_ok hfirst] at hround
        have halong : Along c c₂ := along.trans (hpast.along opens)
        have hlength := along.length_le
        have hlt := hpast.length_lt opens
        have hrest := ih c₂.rest.length (by omega) (hpast.contents_eq.trans behind) (as ++ [a]) rfl
        rw [halong.frame.2] at hrest
        show Follows _ c ((as ++ ·) <$> (r.children parent child c.settled.scope more >>=
          fun more => pure (a :: more))) (Closes c)
        rw [map_append_cons]
        exact (hrest.imp fun c' hcloses => halong.closes hcloses).congr (loop_again hround)

theorem eachOf_reads (hread : Reads read child) (parent : String) :
    Reads (eachOf r parent read) fun scope _ => r.childrenOf parent child scope := by
  intro c₀ e c opens
  unfold eachOf Child.content Past
  unfold Child.event at opens
  split
  · next hcontent =>
    rw [if_pos hcontent] at opens
    obtain ⟨content, outer, hcontents⟩ := c.exists_contents
    have heach := each_follows (r := r) hread parent hcontents []
    rw [(Cursor.settled_of_startTag opens).2.2] at heach
    have hnil : ([] ++ · : List α → List α) = id := rfl
    rw [hnil, id_map] at heach
    rw [hcontents]
    exact heach
  · exact .pure [] rfl

end Children

/-- A leaf has no children: the first one is refused. -/
theorem leaf_reads (name : String) : Reads (leaf r name) fun scope _ => r.leaf name scope := by
  intro c₀ child c opens
  unfold leaf Child.content Past
  unfold Child.event at opens
  split
  · next hcontent =>
    rw [if_pos hcontent] at opens
    obtain ⟨content, outer, hcontents⟩ := c.exists_contents
    have hfinds := nextChild_finds (r := r) name content hcontents
    rw [(Cursor.settled_of_startTag opens).2.2] at hfinds
    rw [hcontents]
    dsimp only [List.head?_cons]
    rw [Reader.leaf, Reader.childrenOf]
    generalize hresult : nextChild r name c = result at hfinds
    cases hfinds with
    | refused same =>
      rw [same]
      exact run_bind_error hresult
    | none closes same =>
      rw [same]
      exact ⟨_, run_bind_ok hresult, closes⟩
    | some inner more along inside themed behind same =>
      rw [same]
      exact run_bind_ok hresult
  · exact .pure () rfl

/-! ## Declarations -/

theorem color_reads : Reads (color r) r.color := by
  intro c₀ child c opens
  apply Follows.lift_bind
  intro vs
  apply Follows.lift_bind
  intro d
  exact (leaf_reads "Color" opens).bind fun _ _ hpast => .pure d hpast

theorem setChild_reads : Reads (setChild r) r.setChild := by
  intro c₀ child c opens
  unfold setChild Reader.setChild
  dsimp only
  split
  · exact color_reads opens
  · split
    · exact rfl
    · exact rfl

theorem colorSet_reads : Reads (colorSet r) r.colorSet := by
  intro c₀ child c opens
  apply Follows.lift_bind
  intro vs
  apply Follows.lift_bind
  intro name
  exact (eachOf_reads setChild_reads Cause.setName opens).bind fun _ _ hpast => .pure _ hpast

theorem property_reads : Reads (property r) r.property := by
  intro c₀ child c opens
  apply Follows.lift_bind
  intro vs
  apply Follows.lift_bind
  intro name
  exact (leaf_reads "Property" opens).bind fun _ _ hpast => .pure _ hpast

theorem globalStyle_reads : Reads (globalStyle r) r.globalStyle := by
  intro c₀ child c opens
  unfold globalStyle Reader.globalStyle
  dsimp only
  split
  · exact rfl
  · apply Follows.lift_bind
    intro vs
    apply Follows.lift_bind
    intro foreground
    apply Follows.lift_bind
    intro background
    apply Follows.lift_bind
    intro border
    exact (leaf_reads child.element.tag.localName opens).bind fun _ _ hpast => .pure _ hpast

theorem globalStyles_reads : Reads (globalStyles r) r.globalStyles := by
  intro c₀ child c opens
  apply Follows.lift_bind
  intro vs
  exact eachOf_reads globalStyle_reads "GlobalStyles" opens

theorem rootChild_reads : Reads (rootChild r) r.rootChild := by
  intro c₀ child c opens
  unfold rootChild Reader.rootChild
  dsimp only
  split
  · exact (colorSet_reads opens).bind fun _ _ hpast => .pure _ hpast
  · split
    · exact (property_reads opens).bind fun _ _ hpast => .pure _ hpast
    · split
      · exact (globalStyles_reads opens).bind fun _ _ hpast => .pure _ hpast
      · split
        · exact rfl
        · exact rfl

/-- What the `Reader` of trees makes of the root element, once it is inside its `scope`. -/
def rootInside (r : Reader) (scope : Scope) (e : Element) (content : Option Content) :
    Reader.Result Document :=
  if Reader.isThemed scope e && e.tag.localName == Cause.rootName then do
    let vs ← r.values e Reader.rootKeys
    let name ← r.requiredName e vs
    let groups ← r.childrenOf Cause.rootName r.rootChild scope content
    pure { name, declarations := groups.flatten }
  else r.refuse e.offset (.wrongRoot e.tag.localName)

theorem root_eq {scope : Scope} {e : Element} (h : Scope.initial.enter e.tag = .ok scope)
    (content : Option Content) : r.root e content = rootInside r scope e content := by
  rw [Reader.root, enter_ok h]
  rfl

theorem root_reads : Reads (root r) (rootInside r) := by
  intro c₀ child c opens
  unfold root rootInside
  refine Follows.congr ?_ (run_bind_ok (themed_eq child.element c))
  split
  · apply Follows.lift_bind
    intro vs
    apply Follows.lift_bind
    intro name
    exact (eachOf_reads rootChild_reads Cause.rootName opens).bind fun _ _ hpast => .pure _ hpast
  · exact rfl

/-! ## The whole text -/

theorem document_error {fault : Fault} (h : c.next = .error fault) :
    document r c = Part.some (.error (.refused ⟨r.position c.offset, .markup fault⟩)) := by
  apply loop_error
  rw [documentRound, run_bind_error (event_error h)]

theorem document_ended (h : c.next = .ok (.ended, c')) :
    document r c = Part.some (.error (.refused ⟨r.position c.offset, .noRoot⟩)) := by
  apply loop_error
  rw [documentRound, run_bind_ok (event_ok h)]
  rfl

theorem document_text {bytes : Bytes} (h : c.next = .ok (.text bytes, c')) :
    document r c = if Reader.isBlank bytes then document r c'
      else Part.some (.error (.refused ⟨r.position c.offset, .textBeforeRoot⟩)) := by
  have hround : documentRound r c =
      (if Reader.isBlank bytes then pure (.again ()) else lift (r.refuse c.offset .textBeforeRoot) :
        Pull (Turn Unit Document)) c' := by
    rw [documentRound, run_bind_ok (event_ok h)]
  split
  · next hblank =>
    rw [if_pos hblank] at hround
    exact loop_again hround
  · next hblank =>
    rw [if_neg hblank] at hround
    exact loop_error hround

theorem document_cdata {bytes : Bytes} (h : c.next = .ok (.cdata bytes, c')) :
    document r c = document r c' := by
  apply loop_again
  rw [documentRound, run_bind_ok (event_ok h)]
  rfl

theorem document_remark {lexeme : Lexeme} (h : c.next = .ok (.remark lexeme, c')) :
    document r c = document r c' := by
  apply loop_again
  rw [documentRound, run_bind_ok (event_ok h)]
  rfl

/-- The first element is the root. -/
theorem document_child (child : Child) {result : Reader.Result Document} {Q : Cursor → Prop}
    (h : c.next = .ok (child.event, c')) (hroot : Follows (root r child) c' result Q) :
    Follows (document r) c result Q := by
  have hround : documentRound r c =
      (root r child >>= fun d => pure (.done d) : Pull (Turn Unit Document)) c' := by
    rw [documentRound, run_bind_ok (event_ok h)]
    obtain ⟨e, hasContent⟩ := child
    cases hasContent <;> rfl
  cases result with
  | error failure =>
    rw [run_bind_error hroot] at hround
    exact loop_error hround
  | ok d =>
    obtain ⟨c'', hroot, hQ⟩ := hroot
    rw [run_bind_ok hroot] at hround
    exact ⟨c'', loop_done hround, hQ⟩

/-- **A text is read as its tree is.** -/
theorem document_follows {content : Content} (h : c.contents = [content])
    (hscope : c.settled.scope = Scope.initial) :
    Follows (document r) c (r.document content) fun _ => True := by
  induction content generalizing c with
  | closed =>
    -- nothing is open, so no end tag is found
    obtain ⟨c', hnext, hnil⟩ := Cursor.meets h
    obtain ⟨content, outer, hcontents⟩ := c'.exists_contents
    rw [hcontents] at hnil
    cases hnil
  | ended offset =>
    obtain ⟨rfl, c', hnext⟩ := Cursor.meets h
    exact document_ended hnext
  | broken offset fault =>
    obtain ⟨rfl, hnext⟩ := Cursor.meets h
    exact document_error hnext
  | text offset bytes more ih =>
    obtain ⟨rfl, c₁, hnext, hmore⟩ := Cursor.meets h
    have hsettled := (Cursor.settled_of_flat hnext trivial).2
    have hdocument := document_text (r := r) hnext
    rw [Reader.document]
    split at hdocument
    · next hblank =>
      rw [if_pos hblank]
      exact (ih hmore (by rw [hsettled, hscope])).congr hdocument
    · next hblank =>
      rw [if_neg hblank]
      exact hdocument
  | cdata offset bytes more ih =>
    obtain ⟨-, c₁, hnext, hmore⟩ := Cursor.meets h
    have hsettled := (Cursor.settled_of_flat hnext trivial).2
    exact (ih hmore (by rw [hsettled, hscope])).congr (document_cdata hnext)
  | remark lexeme more ih =>
    obtain ⟨c₁, hnext, hmore⟩ := Cursor.meets h
    have hsettled := (Cursor.settled_of_flat hnext trivial).2
    exact (ih hmore (by rw [hsettled, hscope])).congr (document_remark hnext)
  | empty e more _ =>
    obtain ⟨hoffset, hmeets⟩ := Cursor.meets h
    rw [hscope] at hmeets
    cases henter : Scope.initial.enter e.tag with
    | error fault =>
      rw [henter] at hmeets
      rw [Reader.document, Reader.root, enter_error hoffset henter]
      exact document_error hmeets
    | ok inside =>
      rw [henter] at hmeets
      obtain ⟨c₁, hnext, rfl, -⟩ := hmeets
      rw [Reader.document, root_eq henter]
      have hroot : Follows (root r ⟨e, false⟩) c₁ (rootInside r c₁.nesting.scope e none) _ :=
        root_reads hnext
      exact document_child ⟨e, false⟩ hnext (hroot.imp fun _ _ => trivial)
  | element e inner more _ _ =>
    obtain ⟨hoffset, hmeets⟩ := Cursor.meets h
    rw [hscope] at hmeets
    cases henter : Scope.initial.enter e.tag with
    | error fault =>
      rw [henter] at hmeets
      rw [Reader.document, Reader.root, enter_error hoffset henter]
      exact document_error hmeets
    | ok inside =>
      rw [henter] at hmeets
      obtain ⟨c₁, hnext, rfl, hinner⟩ := hmeets
      rw [Reader.document, root_eq henter]
      have hcontent : Child.content ⟨e, true⟩ c₁ = some inner := congrArg List.head? hinner
      have hroot : Follows (root r ⟨e, true⟩) c₁
          (rootInside r c₁.nesting.scope e (Child.content ⟨e, true⟩ c₁)) _ := root_reads hnext
      rw [hcontent] at hroot
      exact document_child ⟨e, true⟩ hnext (hroot.imp fun _ _ => trivial)

/-- What is left at the beginning of a text is all of it. -/
theorem contents_start (input : Bytes) :
    (Cursor.start input).contents = [Content.ofBytes input] := by
  obtain ⟨content, outer, hcontents⟩ := (Cursor.start input).exists_contents
  have hlength := (Cursor.start input).length_contents
  have hhead : Content.ofBytes input = (Cursor.start input).contents.headD (.ended 0) := rfl
  rw [hcontents] at hlength hhead ⊢
  obtain rfl : outer = [] := List.length_eq_zero_iff.1 (Nat.succ.inj hlength)
  rw [hhead]
  rfl

/-- **What the event reader makes of a text is what the reader of trees makes of it.** -/
theorem read_eq (input : Bytes) (strict : Bool) :
    read input strict = Part.some ((Overlay.read input strict).mapError .refused) := by
  have hdocument := document_follows (r := ⟨input, strict⟩) (contents_start input) rfl
  rw [read, Overlay.read]
  cases hresult : (Reader.mk input strict).document (.ofBytes input) with
  | error failure =>
    rw [hresult] at hdocument
    exact run'_eq hdocument
  | ok d =>
    rw [hresult] at hdocument
    obtain ⟨c', hdocument, -⟩ := hdocument
    exact run'_eq hdocument

/-! ## Balance -/

/-- Reading comes to an end, and not because of an `underflow`, where one was taken from zero. -/
def Ends (result : Part (Except Stop (α × Cursor))) : Prop :=
  ∃ outcome, result = Part.some outcome ∧ outcome ≠ .error .underflow

omit [Markup.Decoders] in
theorem Follows.ends {x : Pull α} {result : Reader.Result α} {Q : Cursor → Prop}
    (h : Follows x c result Q) : Ends (x c) := by
  cases result with
  | error failure => exact ⟨_, h, by simp⟩
  | ok a =>
    obtain ⟨c', hx, -⟩ := h
    exact ⟨_, hx, by simp⟩

theorem nextChild_ends (parent : String) (c : Cursor) : Ends (nextChild r parent c) := by
  obtain ⟨content, outer, hcontents⟩ := c.exists_contents
  have hfinds := nextChild_finds (r := r) parent content hcontents
  generalize nextChild r parent c = result at hfinds ⊢
  cases hfinds with
  | _ => exact ⟨_, rfl, by simp⟩

theorem skip_ends (name : String) (n : Nat) (c : Cursor) : Ends (skip r name n c) := by
  induction n generalizing c with
  | zero => exact ⟨_, skip_zero r name c, by simp⟩
  | succ n ih =>
    obtain ⟨content, outer, hcontents⟩ := c.exists_contents
    have hskip := skip_follows (r := r) name content hcontents n
    cases hresult : r.skip name c.settled.scope content with
    | error failure =>
      rw [hresult] at hskip
      exact ⟨_, hskip, by simp⟩
    | ok a =>
      rw [hresult] at hskip
      obtain ⟨c', -, hc'⟩ := hskip
      rw [hc']
      exact ih c'

/-- Reading an element with `x` comes to an end. If it has an answer, then an element with a start
tag is left through its end tag, and behind an element of one tag nothing is taken. -/
def Takes (x : Child → Pull α) : Prop :=
  ∀ ⦃c₀ : Cursor⦄ ⦃child : Child⦄ ⦃c : Cursor⦄, c₀.next = .ok (child.event, c) →
    Ends (x child c) ∧ ∀ (a : α) (c' : Cursor), x child c = Part.some (.ok (a, c')) →
      if child.hasContent then Leaves c₀ child.element c c' else c' = c ∧ c'.settled = c₀.settled

theorem Reads.takes {x : Child → Pull α} {result : OfTree α} (h : Reads x result) : Takes x := by
  intro c₀ child c opens
  refine ⟨(h opens).ends, fun a c' hx => ?_⟩
  have hpast := (h opens).of_ok hx
  have hsettled := (hpast.along opens).frame.2
  unfold Past at hpast
  unfold Child.event at opens
  split
  · next hcontent =>
    rw [if_pos hcontent] at hpast opens
    exact hpast.leaves opens
  · next hcontent =>
    rw [if_neg hcontent] at hpast
    exact ⟨hpast, hsettled⟩

theorem skip_closes {name : String} (h : skip r name 1 c = Part.some (.ok ((), c'))) :
    Closes c c' := by
  obtain ⟨content, outer, hcontents⟩ := c.exists_contents
  have hskip := skip_follows (r := r) name content hcontents 0
  cases hresult : r.skip name c.settled.scope content with
  | error failure =>
    rw [hresult] at hskip
    rw [show skip r name 1 c = _ from hskip] at h
    cases Part.some_inj.1 h
  | ok a =>
    rw [hresult] at hskip
    obtain ⟨c'', hcloses, hc''⟩ := hskip
    rw [hc'', skip_zero] at h
    cases Part.some_inj.1 h
    exact hcloses

theorem nextChild_closes {parent : String} (h : nextChild r parent c = Part.some (.ok (none, c'))) :
    Closes c c' := by
  obtain ⟨content, outer, hcontents⟩ := c.exists_contents
  have hfinds := nextChild_finds (r := r) parent content hcontents
  generalize nextChild r parent c = result at h hfinds
  cases hfinds with
  | none closes =>
    cases Part.some_inj.1 h
    exact closes
  | refused | some => cases Part.some_inj.1 h

theorem nextChild_along {parent : String} {child : Child}
    (h : nextChild r parent c = Part.some (.ok (some child, c'))) :
    ∃ before, Along c before ∧ before.next = .ok (child.event, c') := by
  obtain ⟨content, outer, hcontents⟩ := c.exists_contents
  have hfinds := nextChild_finds (r := r) parent content hcontents
  generalize nextChild r parent c = result at h hfinds
  cases hfinds with
  | some child more along opens =>
    cases Part.some_inj.1 h
    exact ⟨_, along, opens⟩
  | refused | none => cases Part.some_inj.1 h

/-- What the balance of the reader `r` consists in. -/
structure Balanced (r : Reader) : Prop where
  /-- Every event before `ended` takes at least one byte. -/
  consumes : ∀ {c c' : Cursor} {ev : Event}, c.next = .ok (ev, c') → ev ≠ .ended →
    c'.rest.length < c.rest.length
  /-- At the end of the text every `loop` stops with an error. -/
  ended : ∀ {c c' : Cursor}, c.next = .ok (.ended, c') →
    (∀ parent, nextChild r parent c =
      Part.some (.error (.refused ⟨r.position c.offset, .endInside parent⟩))) ∧
    (∀ name n, skip r name (n + 1) c =
      Part.some (.error (.refused ⟨r.position c.offset, .endInside name⟩))) ∧
    document r c = Part.some (.error (.refused ⟨r.position c.offset, .noRoot⟩))
  /-- Every `loop` comes to an end wherever it begins, and no count falls below zero. -/
  skipEnds : ∀ (name : String) (depth : Nat) (c : Cursor), Ends (skip r name depth c)
  nextChildEnds : ∀ (parent : String) (c : Cursor), Ends (nextChild r parent c)
  /-- A whole text is read as its tree is. -/
  reads : read r.input r.strict = Part.some ((Overlay.read r.input r.strict).mapError .refused)
  /-- A foreign element that is passed over is left through its end tag. -/
  skipLeaves : ∀ {name : String} {e : Element} {c₀ c c' : Cursor},
    c₀.next = .ok (.startTag e, c) → skip r name 1 c = Part.some (.ok ((), c')) → Leaves c₀ e c c'
  /-- The next child is behind whole elements, -/
  nextChildSome : ∀ {parent : String} {child : Child} {c c₁ : Cursor},
    nextChild r parent c = Part.some (.ok (some child, c₁)) →
      ∃ before, Along c before ∧ before.next = .ok (child.event, c₁)
  /-- and if there is none, then the element whose children they are is left through its end tag. -/
  nextChildNone : ∀ {parent : String} {e : Element} {c₀ c between c' : Cursor},
    c₀.next = .ok (.startTag e, c) → Along c between →
      nextChild r parent between = Part.some (.ok (none, c')) → Leaves c₀ e c c'
  leaf : ∀ name : String, Takes (leaf r name)
  color : Takes (color r)
  colorSet : Takes (colorSet r)
  property : Takes (property r)
  globalStyle : Takes (globalStyle r)
  globalStyles : Takes (globalStyles r)
  rootChild : Takes (rootChild r)
  root : Takes (root r)

/-- **The reader is balanced, and ends on every text.** Whatever it reads of an element that has a
start tag ends just behind the matching end tag, with the declarations in force that are in force
outside the element; behind an element of one tag it takes nothing. No loop runs forever, since
every event before the end of the text takes a byte and the end of the text stops each of them. -/
theorem reader_balanced (input : Bytes) (strict : Bool) : Balanced ⟨input, strict⟩ where
  consumes := Cursor.next_length_lt
  ended h := ⟨nextChild_ended h, skip_ended h, document_ended h⟩
  skipEnds := skip_ends
  nextChildEnds := nextChild_ends
  reads := read_eq input strict
  skipLeaves opens h := (skip_closes h).leaves opens
  nextChildSome h := nextChild_along h
  nextChildNone opens along h := (along.closes (nextChild_closes h)).leaves opens
  leaf name := (leaf_reads name).takes
  color := color_reads.takes
  colorSet := colorSet_reads.takes
  property := property_reads.takes
  globalStyle := globalStyle_reads.takes
  globalStyles := globalStyles_reads.takes
  rootChild := rootChild_reads.takes
  root := root_reads.takes

/-- `<m xmlns="u">;</m>` -/
def foreignText : Bytes := Text.Utf8.encode "<m xmlns=\"u\">;</m>"

end Readers

/-- The text `foreignText` is one element. -/
theorem contents_foreignText : (Cursor.start foreignText).contents =
    [.element ⟨0, .utf8, .ofContent (Text.Utf8.encode "m xmlns=\"u\"")⟩
      (.text 13 (Text.Utf8.encode ";") .closed) (.ended 18)] := by
  rw [contents_start]
  decide +kernel

/-- The element of `foreignText` declares a namespace. -/
theorem enter_foreignText :
    Scope.initial.enter (.ofContent (Text.Utf8.encode "m xmlns=\"u\"")) =
      .ok ⟨([], Text.Utf8.encode "u") :: Scope.initial.bindings⟩ := by
  decide +kernel

theorem reader_balanced_foreign : ∃ e c c',
    (Cursor.start foreignText).next = .ok (.startTag e, c) ∧
      c.settled.scope ≠ (Cursor.start foreignText).settled.scope ∧
        skip ⟨foreignText, true⟩ "m" 1 c = Part.some (.ok ((), c')) ∧
          Leaves (Cursor.start foreignText) e c c' := by
  have hstart : (Cursor.start foreignText).settled.scope = Scope.initial := rfl
  obtain ⟨-, hmeets⟩ := Cursor.meets contents_foreignText
  rw [hstart, enter_foreignText] at hmeets
  obtain ⟨c, hnext, hscope, hinner⟩ := hmeets
  rw [← (Cursor.settled_of_startTag hnext).2.2] at hscope
  have hskip := skip_follows (r := ⟨foreignText, true⟩) "m" _ hinner 0
  rw [hscope] at hskip
  obtain ⟨c', -, hc'⟩ := hskip
  rw [skip_zero] at hc'
  refine ⟨_, c, c', hnext, ?_, hc', (reader_balanced foreignText true).skipLeaves hnext hc'⟩
  rw [hscope, hstart]
  decide

end Pull

end Livery.Overlay
