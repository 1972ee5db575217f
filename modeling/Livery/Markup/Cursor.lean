import Livery.Markup.Content
import Livery.Markup.Scope

/-!
# Cursors

A cursor goes through a text event by event. It keeps what a reader of events has to keep: the bytes
it has not read, the names of the elements that are open, and the namespace declarations in force,
each with the depth at which it was made. The declarations of an element are dropped when the event
behind its end is asked for.

- `Cursor.next` reads one event;
- `Cursor.settled` is what the next event finds in force.
-/

namespace Livery.Markup

/-- The declarations in force at the depth `depth`, the latest first, each with the depth of the
element that makes it. -/
@[ext]
structure Nesting where
  depth : Nat
  bindings : List (Nat × Bytes × Bytes)
  /-- No declaration comes from further down than `depth`. -/
  bounded : ∀ b ∈ bindings, b.1 ≤ depth

namespace Nesting

/-- What is in force outside all elements. -/
def initial : Nesting where
  depth := 0
  bindings := Scope.initial.bindings.map (0, ·)
  bounded b hb := by
    obtain ⟨_, -, rfl⟩ := List.mem_map.1 hb
    exact Nat.le_refl _

/-- The declarations as a `Scope`, without their depths. -/
def scope (n : Nesting) : Scope := ⟨n.bindings.map (·.2)⟩

/-- One element further down, with the declarations `own` of its own. -/
def enter (n : Nesting) (own : Scope) : Nesting where
  depth := n.depth + 1
  bindings := own.bindings.map (n.depth + 1, ·) ++ n.bindings
  bounded b hb := by
    rcases List.mem_append.1 hb with h | h
    · obtain ⟨_, -, rfl⟩ := List.mem_map.1 h
      exact Nat.le_refl _
    · exact Nat.le_succ_of_le (n.bounded b h)

/-- One element further up: what was declared below is dropped. -/
def leave (n : Nesting) : Nesting where
  depth := n.depth - 1
  bindings := n.bindings.filter (·.1 ≤ n.depth - 1)
  bounded b hb := by simpa using (List.mem_filter.1 hb).2

theorem leave_enter (n : Nesting) (own : Scope) : (n.enter own).leave = n := by
  ext1
  · exact Nat.add_sub_cancel n.depth 1
  · have hown : (own.bindings.map (n.depth + 1, ·)).filter (·.1 ≤ n.depth) = [] := by
      rw [List.filter_eq_nil_iff]
      intro b hb
      obtain ⟨_, -, rfl⟩ := List.mem_map.1 hb
      simp
    have hold : n.bindings.filter (·.1 ≤ n.depth) = n.bindings := by
      rw [List.filter_eq_self]
      intro b hb
      simpa using n.bounded b hb
    simp only [leave, enter, Nat.add_sub_cancel, List.filter_append, hown, hold, List.nil_append]

end Nesting

/-- What a `Cursor` comes upon. -/
inductive Event where
  | startTag (element : Element)
  | emptyTag (element : Element)
  | endTag
  | text (bytes : Bytes)
  | cdata (bytes : Bytes)
  /-- A comment, an instruction, a declaration or a document type. -/
  | remark (lexeme : Lexeme)
  /-- The end of the text. -/
  | ended
  deriving DecidableEq, Repr

/-- A place in a text, with what was read before it as far as `next` needs it. -/
structure Cursor where
  /-- The bytes that are not read yet. -/
  rest : Bytes
  /-- The offset at which the next event is reported. -/
  offset : Nat
  charset : CharsetState
  /-- The names of the elements that are open, the innermost first. -/
  opened : List Bytes
  nesting : Nesting
  /-- The last event was the end of an element, whose declarations are still in `nesting`. -/
  leaving : Bool

namespace Cursor

/-- The beginning of the text `input`, behind a byte-order mark. -/
def start (input : Bytes) : Cursor :=
  let (charset, markup) := withoutMark input
  ⟨markup, 0, ⟨charset, false⟩, [], .initial, false⟩

/-- The declarations in force for the next event: those of an element that is left do not count. -/
def settled (c : Cursor) : Nesting := if c.leaving then c.nesting.leave else c.nesting

/-- The offset behind `lexeme`, where `rest` follows. The end of a text behind a run of text is
reported at the last byte of that run. -/
def offsetBehind (c : Cursor) : (lexeme : Lexeme) → (rest : Bytes) → Nat
  | .text bytes, [] => c.offset + bytes.length - 1
  | _, rest => c.offset + (c.rest.length - rest.length)

/-- The place behind `lexeme`, with the declarations of an element that has ended dropped. -/
def behind (c : Cursor) (lexeme : Lexeme) (rest : Bytes) : Cursor :=
  { c with rest, offset := c.offsetBehind lexeme rest, nesting := c.settled, leaving := false }

/-- The element that `tag` opens at the cursor `c`. -/
def element (c : Cursor) (tag : Tag) : Element := ⟨c.offset, c.charset.charset, tag⟩

/-- Reads one `Event`, and gives back the cursor behind it. -/
def next [Decoders] (c : Cursor) : Except Fault (Event × Cursor) :=
  match Lexeme.scan c.rest with
  | .finished => .ok (.ended, { c with nesting := c.settled, leaving := false })
  | .broken fault => .error fault
  | .found lexeme rest =>
    let c' := c.behind lexeme rest
    match lexeme with
    | .text bytes => .ok (.text bytes, c')
    | .cdata bytes => .ok (.cdata bytes, c')
    | .declaration inside =>
      .ok (.remark lexeme, { c' with charset := c.charset.afterDeclaration inside })
    | .startTag tag =>
      match Scope.enter ⟨[]⟩ tag with
      | .error fault => .error fault
      | .ok own =>
        .ok (.startTag (c.element tag),
          { c' with opened := tag.name :: c.opened, nesting := c'.nesting.enter own })
    | .emptyTag tag =>
      match Scope.enter ⟨[]⟩ tag with
      | .error fault => .error fault
      | .ok own =>
        .ok (.emptyTag (c.element tag),
          { c' with nesting := c'.nesting.enter own, leaving := true })
    | .endTag name =>
      match c.opened with
      | [] => .error (.mismatchedEnd "" (shownName c.charset.charset name))
      | expected :: outer =>
        if endName name = expected then .ok (.endTag, { c' with opened := outer, leaving := true })
        else
          .error (.mismatchedEnd (shownName c.charset.charset expected)
            (shownName c.charset.charset (endName name)))
    | lexeme => .ok (.remark lexeme, c')

end Cursor

end Livery.Markup
