import Livery.Markup.Scope
import Livery.Proofs.Scanning

/-!
# Attributes are read as they are written

* `Source.Tag.attributes_tag`: the attributes of a tag, if no key comes twice.
* `Source.Tag.enter_tag`: the namespace declarations among them.
-/

namespace Livery.Markup.Source

variable {a : Assignment} {as : List Assignment}

theorem Blanks.isSpace_of_mem (s : Blanks) : ∀ b ∈ s.bytes, isSpace b = true :=
  List.all_eq_true.1 s.blank

theorem not_isSpace_of_isNameByte {b : UInt8} (h : isNameByte b = true) : isSpace b = false := by
  simp only [isNameByte, isBlankByte, Bool.and_eq_true, Bool.not_eq_true', Bool.or_eq_false_iff]
    at h
  exact h.1.1

theorem equals_ne_of_isNameByte {b : UInt8} (h : isNameByte b = true) : b ≠ 0x3D := by
  rintro rfl
  exact absurd h (by decide)

/-- What stands behind `=`. -/
def Assignment.rest (a : Assignment) (more : Bytes) : Bytes :=
  a.right.bytes ++ a.quote :: (a.value ++ a.quote :: more)

theorem Assignment.written_append (a : Assignment) (more : Bytes) :
    a.written ++ more =
      a.space.bytes ++ (a.key.bytes ++ (a.left.bytes ++ 0x3D :: a.rest more)) := by
  simp [written, rest]

theorem quotedValue_rest (a : Assignment) (offset : Nat) (more : Bytes) :
    quotedValue offset (a.rest more) = .ok (a.value, more) := by
  have hstop : ∀ b, (a.quote :: (a.value ++ a.quote :: more)).head? = some b →
      isSpace b = false := by
    intro b hb
    obtain rfl := Option.some.inj hb
    rcases a.quotes with hq | hq <;> rw [hq] <;> decide
  have hvalue : ∀ b ∈ a.value, (b != a.quote) = true := fun b hb =>
    bne_iff_ne.2 fun heq => a.closes (heq ▸ hb)
  have hquote : ∀ b, (a.quote :: more).head? = some b → (b != a.quote) = false := by
    intro b hb
    simp [Option.some.inj hb]
  unfold quotedValue Assignment.rest
  simp only [dropWhile_upTo a.right.isSpace_of_mem hstop, if_pos a.quotes,
    dropWhile_upTo hvalue hquote, takeWhile_upTo hvalue hquote]

/-- The blanks before the key of `a` end where it begins. -/
theorem Assignment.space_upTo (a : Assignment) (more : Bytes) :
    (a.written ++ more).takeWhile isSpace = a.space.bytes ∧
      (a.written ++ more).dropWhile isSpace =
        a.key.bytes ++ (a.left.bytes ++ 0x3D :: a.rest more) := by
  obtain ⟨k, ks, hk⟩ := List.exists_cons_of_ne_nil a.key.nonempty
  have hstop : ∀ b, (a.key.bytes ++ (a.left.bytes ++ 0x3D :: a.rest more)).head? = some b →
      isSpace b = false := by
    intro b hb
    rw [hk] at hb
    obtain rfl := Option.some.inj hb
    exact not_isSpace_of_isNameByte (a.key.isNameByte_of_mem (by simp [hk]))
  rw [a.written_append]
  exact ⟨takeWhile_upTo a.space.isSpace_of_mem hstop, dropWhile_upTo a.space.isSpace_of_mem hstop⟩

/-- A key ends at the first blank or `=` behind it. -/
theorem Assignment.key_upTo (a : Assignment) (more : Bytes) {k : UInt8} {ks : Bytes}
    (hk : a.key.bytes = k :: ks) :
    keyOf k (ks ++ (a.left.bytes ++ 0x3D :: a.rest more)) = a.key.bytes ∧
      afterKey (ks ++ (a.left.bytes ++ 0x3D :: a.rest more)) =
        a.left.bytes ++ 0x3D :: a.rest more := by
  have hks : ∀ b ∈ ks, (b != 0x3D && !isSpace b) = true := by
    intro b hb
    have hb : isNameByte b = true := a.key.isNameByte_of_mem (by simp [hk, hb])
    simp [equals_ne_of_isNameByte hb, not_isSpace_of_isNameByte hb]
  have hstop : ∀ b, (a.left.bytes ++ 0x3D :: a.rest more).head? = some b →
      (b != 0x3D && !isSpace b) = false := by
    intro b hb
    cases hl : a.left.bytes with
    | nil => rw [hl] at hb; simp [← Option.some.inj hb]
    | cons c cs =>
      rw [hl] at hb
      simp [← Option.some.inj hb, a.left.isSpace_of_mem c (by simp [hl])]
  rw [keyOf, takeWhile_upTo hks hstop, hk]
  exact ⟨rfl, dropWhile_upTo hks hstop⟩

/-- The attribute `a` is read, and then what follows it. -/
theorem attributeItems_written (a : Assignment) (offset : Nat) (more : Bytes) :
    attributeItems offset (a.written ++ more) =
      .found (offset + a.space.bytes.length) a.entry ::
        attributeItems (offset + a.written.length) more := by
  obtain ⟨k, ks, hk⟩ := List.exists_cons_of_ne_nil a.key.nonempty
  obtain ⟨hblanks, hbytes⟩ := a.space_upTo more
  obtain ⟨hkey, hafter⟩ := a.key_upTo more hk
  have hequals : (a.left.bytes ++ 0x3D :: a.rest more).dropWhile isSpace = 0x3D :: a.rest more :=
    dropWhile_upTo a.left.isSpace_of_mem (by rintro b ⟨⟩; decide)
  rw [hk, List.cons_append] at hbytes
  rw [attributeItems]
  -- every other way to go on contradicts what has been written
  split
  · next h => rw [hbytes] at h; cases h
  next b r h =>
  rw [hbytes] at h
  obtain ⟨rfl, rfl⟩ := List.cons.inj h
  split
  · next h => rw [hafter, hequals] at h; cases h
  next e v h =>
  rw [hafter, hequals] at h
  obtain ⟨rfl, rfl⟩ := List.cons.inj h
  simp only [if_pos]
  split
  · next h => rw [quotedValue_rest] at h; cases h
  next value after h =>
  rw [quotedValue_rest] at h
  cases h
  rw [hblanks, hkey, List.length_append, Nat.add_sub_cancel]
  rfl

/-- The attributes of a tag with the places of their keys, as `attributeItems` gives them. -/
def items (offset : Nat) : List Assignment → List AttributeItem
  | [] => []
  | a :: as =>
    .found (offset + a.space.bytes.length) a.entry :: items (offset + a.written.length) as

theorem attributeItems_assignments (as : List Assignment) (space : Blanks) (offset : Nat) :
    attributeItems offset (as.flatMap Assignment.written ++ space.bytes) = items offset as := by
  induction as generalizing offset with
  | nil =>
    have hspace : space.bytes.dropWhile isSpace = [] :=
      (Text.dropWhile_eq_nil_iff_all isSpace space.bytes).2 space.blank
    rw [List.flatMap_nil, List.nil_append, attributeItems]
    split
    · rfl
    · next h => rw [hspace] at h; cases h
  | cons a as ih =>
    rw [List.flatMap_cons, List.append_assoc, attributeItems_written, ih, items]

theorem unchecked_items (offset : Nat) (as : List Assignment) :
    AttributeList.unchecked (items offset as) = ⟨as.map Assignment.entry, none⟩ := by
  induction as generalizing offset with
  | nil => rfl
  | cons a as ih => simp only [items, AttributeList.unchecked, ih, List.map_cons]

/-- Keys that differ are no fault for `AttributeList.checked`. -/
theorem checked_items {seen : List (Bytes × Nat)} (offset : Nat)
    (hnd : (as.map (·.key.bytes)).Nodup) (hseen : ∀ a ∈ as, seen.lookup a.key.bytes = none) :
    AttributeList.checked seen (items offset as) = ⟨as.map Assignment.entry, none⟩ := by
  induction as generalizing offset seen with
  | nil => rfl
  | cons a as ih =>
    obtain ⟨hfresh, hnd⟩ := List.nodup_cons.1 hnd
    rw [List.forall_mem_cons] at hseen
    have hseen' : ∀ b ∈ as,
        ((a.entry.key, offset + a.space.bytes.length) :: seen).lookup b.key.bytes = none := by
      intro b hb
      have hne : b.key.bytes ≠ a.key.bytes := fun heq =>
        hfresh (List.mem_map.2 ⟨b, hb, heq⟩)
      rw [List.lookup_cons, show (b.key.bytes == a.entry.key) = false from beq_false_of_ne hne]
      exact hseen.2 b hb
    simp only [items, AttributeList.checked, show a.entry.key = a.key.bytes from rfl, hseen.1]
    rw [show a.key.bytes = a.entry.key from rfl, ih _ hnd hseen']
    rfl

/-- **The attributes of the tag `t` are the ones that are written**, if no key comes twice. -/
theorem Tag.attributes_tag (t : Tag) (hnd : (t.assignments.map (·.key.bytes)).Nodup) :
    t.tag.attributes = ⟨t.assignments.map Assignment.entry, none⟩ := by
  rw [Markup.Tag.attributes, tag, attributeItems_assignments]
  exact checked_items _ hnd (by simp)

/-- The tag `t` declares what its attributes do, whether or not keys come twice. -/
theorem Tag.enter_tag (t : Tag) (scope : Scope) :
    scope.enter t.tag = (t.assignments.map Assignment.entry).foldlM Scope.declare scope := by
  rw [Scope.enter, Markup.Tag.uncheckedAttributes, tag, attributeItems_assignments,
    unchecked_items]

end Livery.Markup.Source
