import Livery.Markup.Cursor
import Livery.Overlay.Reading
import Mathlib.Data.PFun

/-!
# Reading overlays event by event

The same reader as one that pulls events from a cursor and never sees the text as a tree. Its loops
go on for as many rounds as they take; one that does not come to an end has no result. The content
of a foreign element is passed over by counting the elements that are open in it. That count is a
number without sign, and it would be an outcome of its own if it fell below zero.

- `Pull.loop` goes round after round until there is a result;
- `Pull.skip` passes over the content of a foreign element;
- `Pull.nextChild` finds the next child of an element;
- `Pull.read` reads a whole text.
-/

namespace Livery.Overlay

open Markup (Cursor Element Event Scope)

/-- How reading with a `Cursor` can stop early. -/
inductive Stop where
  | refused (failure : Failure)
  /-- One was taken from zero. -/
  | underflow
  deriving DecidableEq, Repr

/-- Reading with a `Cursor`. There is no result where reading does not come to an end. -/
abbrev Pull (α : Type) := StateT Cursor (ExceptT Stop Part) α

namespace Pull

/-- What a round of a `loop` comes to: one more round, or the result. -/
inductive Turn (σ α : Type) where
  | again (s : σ)
  | done (a : α)

/-- What a round comes to, told apart by whether the `loop` goes on from there. -/
def Turn.next {σ α : Type} : Except Stop (Turn σ α × Cursor) → Except Stop (α × Cursor) ⊕ σ × Cursor
  | .error stop => .inl (.error stop)
  | .ok (.done a, c) => .inl (.ok (a, c))
  | .ok (.again s, c) => .inr (s, c)

/-- Goes `round` after `round`, beginning with `s`, until there is a result. -/
def loop {σ α : Type} (round : σ → Pull (Turn σ α)) (s : σ) : Pull α := fun c =>
  PFun.fix (fun place : σ × Cursor => (round place.1 place.2).run.map Turn.next) (s, c)

/-- A child element, and whether it has content or is one tag. -/
structure Child where
  element : Element
  hasContent : Bool
  deriving DecidableEq, Repr

/-- The event that opens the element of `child`. -/
def Child.event (child : Child) : Event :=
  if child.hasContent then .startTag child.element else .emptyTag child.element

/-- A `Reader.Result`, which does not touch the cursor. -/
def lift {α : Type} (result : Reader.Result α) : Pull α := fun c =>
  match result with
  | .ok a => Part.some (.ok (a, c))
  | .error failure => Part.some (.error (.refused failure))

/-- One less; an `underflow` at zero. -/
def less : Nat → Pull Nat
  | 0 => throw .underflow
  | n + 1 => pure n

variable [Markup.Decoders] (r : Reader)

/-- The `next` event, and the offset it is reported at. -/
def event : Pull (Nat × Event) := fun c =>
  match c.next with
  | .ok (event, c') => Part.some (.ok ((c.offset, event), c'))
  | .error fault => Part.some (.error (.refused ⟨r.position c.offset, .markup fault⟩))

/-- Whether the element `e`, which was just opened, is in the theme namespace. -/
def themed (e : Element) : Pull Bool := fun c =>
  Part.some (.ok (Reader.isThemed c.nesting.scope e, c))

/-- One more event of the foreign element `name` is passed over, with `depth` elements open, itself
among them. -/
def skipRound (name : String) (depth : Nat) : Pull (Turn Nat Unit) := do
  if depth = 0 then pure (.done ())
  else
    let (offset, event) ← event r
    match event with
    | .startTag _ => pure (.again (depth + 1))
    | .endTag =>
      let depth ← less depth
      pure (.again depth)
    | .ended => lift (r.refuse offset (.endInside name))
    | _ => pure (.again depth)

/-- Passes over the rest of the foreign element `name` in which so many elements are open, itself
among them. -/
def skip (name : String) : Nat → Pull Unit := loop (skipRound r name)

/-- One event on the way to the next child of `parent`. A foreign element is passed over with its
content. -/
def nextChildRound (parent : String) : Pull (Turn Unit (Option Child)) := do
  let (offset, event) ← event r
  match event with
  | .startTag e =>
    if ← themed e then pure (.done (some ⟨e, true⟩))
    else
      skip r e.tag.fullName 1
      pure (.again ())
  | .emptyTag e => if ← themed e then pure (.done (some ⟨e, false⟩)) else pure (.again ())
  | .endTag => pure (.done none)
  | .text bytes =>
    if r.strict && !Reader.isBlank bytes then lift (r.refuse offset (.textInside parent))
    else pure (.again ())
  | .cdata _ => if r.strict then lift (r.refuse offset (.textInside parent)) else pure (.again ())
  | .remark _ => pure (.again ())
  | .ended => lift (r.refuse offset (.endInside parent))

/-- The next child element in the theme namespace, or `none` at the end tag of `parent`. -/
def nextChild (parent : String) : Pull (Option Child) := loop (fun _ => nextChildRound r parent) ()

/-- Reads one child of `parent` more, behind those in `as`. -/
def eachRound {α : Type} (parent : String) (read : Child → Pull α) (as : List α) :
    Pull (Turn (List α) (List α)) := do
  match ← nextChild r parent with
  | none => pure (.done as)
  | some child =>
    let a ← read child
    pure (.again (as ++ [a]))

/-- Reads the children that are left, each by `read`, behind those that were read. -/
def each {α : Type} (parent : String) (read : Child → Pull α) : List α → Pull (List α) :=
  loop (eachRound r parent read)

/-- Reads the children of `child`, none if it is one tag. -/
def eachOf {α : Type} (parent : String) (read : Child → Pull α) (child : Child) : Pull (List α) :=
  if child.hasContent then each r parent read [] else pure []

/-- Checks that the element `child`, called `name`, has no children. -/
def leaf (name : String) (child : Child) : Pull Unit :=
  if child.hasContent then do
    match ← nextChild r name with
    | none => pure ()
    | some inner => lift (r.refuse inner.element.offset (.childInside name))
  else pure ()

/-! ## Declarations -/

/-- Reads a colour. Its name must be a `colorName` and it may have no children. -/
def color (child : Child) : Pull ColorDeclaration := do
  let vs ← lift (r.values child.element Reader.colorKeys)
  let d ← lift (r.colorOfValues child.element vs)
  leaf r "Color" child
  pure d

/-- Reads a child of a colour set. -/
def setChild (child : Child) : Pull ColorDeclaration :=
  let name := child.element.tag.localName
  if name = "Color" then color r child
  else if name ∈ [Cause.rootName, Cause.setName, "Property", "GlobalStyles"] then
    lift (r.refuse child.element.offset (.misplaced name))
  else lift (r.refuse child.element.offset (.unknownElement name))

/-- Reads a colour set. -/
def colorSet (child : Child) : Pull SetDeclaration := do
  let vs ← lift (r.values child.element Reader.setKeys)
  let name ← lift (r.requiredName child.element vs)
  let colors ← eachOf r Cause.setName (setChild r) child
  pure { name, extensions := ((vs.lookup "extensions").map Extension.split).getD [], colors,
         position := some (r.position child.element.offset) }

/-- Reads a property. -/
def property (child : Child) : Pull PropertyDeclaration := do
  let vs ← lift (r.values child.element Reader.propertyKeys)
  let name ← lift (r.requiredName child.element vs)
  leaf r "Property" child
  pure { name, value := (vs.lookup "value").getD "",
         position := some (r.position child.element.offset) }

/-- Reads the global style `child`. -/
def globalStyle (child : Child) : Pull StyleDeclaration :=
  let typeName := child.element.tag.localName
  if r.strict && (StyleKind.ofName? typeName).isNone then
    lift (r.refuse child.element.offset (.unsupportedStyle typeName))
  else do
    let vs ← lift (r.values child.element Reader.styleKeys)
    let foreground ← lift (r.brush child.element (vs.lookup "foreground"))
    let background ← lift (r.brush child.element (vs.lookup "background"))
    let border ← lift (r.brush child.element (vs.lookup "border"))
    leaf r typeName child
    pure { typeName, foreground, background, border,
           position := some (r.position child.element.offset) }

/-- Reads a group of global styles. -/
def globalStyles (child : Child) : Pull (List StyleDeclaration) := do
  let _ ← lift (r.values child.element [])
  eachOf r "GlobalStyles" (globalStyle r) child

/-- Reads a child of the root: the declarations it makes. -/
def rootChild (child : Child) : Pull (List Declaration) :=
  let name := child.element.tag.localName
  if name = Cause.setName then do
    let d ← colorSet r child
    pure [.colorSet d]
  else if name = "Property" then do
    let d ← property r child
    pure [.property d]
  else if name = "GlobalStyles" then do
    let ds ← globalStyles r child
    pure (ds.map .globalStyle)
  else if name = "Color" then lift (r.refuse child.element.offset .colorOutsideSet)
  else lift (r.refuse child.element.offset (.unknownElement name))

/-- Reads the root element, which must be called `rootName` and lie in the theme namespace. -/
def root (child : Child) : Pull Document := do
  let inTheme ← themed child.element
  if inTheme && child.element.tag.localName == Cause.rootName then
    let vs ← lift (r.values child.element Reader.rootKeys)
    let name ← lift (r.requiredName child.element vs)
    let groups ← eachOf r Cause.rootName (rootChild r) child
    pure { name, declarations := groups.flatten }
  else lift (r.refuse child.element.offset (.wrongRoot child.element.tag.localName))

/-- One event on the way to the root element, or the `root` element. -/
def documentRound : Pull (Turn Unit Document) := do
  let (offset, event) ← event r
  match event with
  | .startTag e =>
    let d ← root r ⟨e, true⟩
    pure (.done d)
  | .emptyTag e =>
    let d ← root r ⟨e, false⟩
    pure (.done d)
  | .text bytes =>
    if Reader.isBlank bytes then pure (.again ()) else lift (r.refuse offset .textBeforeRoot)
  | .ended => lift (r.refuse offset .noRoot)
  | _ => pure (.again ())

/-- Reads up to the end of the `root` element. -/
def document : Pull Document := loop (fun _ => documentRound r) ()

/-- Reads an overlay, with the whole schema enforced if `strict` says so. -/
def read (input : Bytes) (strict : Bool) : Part (Except Stop Document) :=
  (document ⟨input, strict⟩).run' (.start input)

end Pull

end Livery.Overlay
