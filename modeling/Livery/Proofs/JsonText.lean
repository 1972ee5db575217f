import Livery.Json.Reading
import Livery.Json.Value

/-!
# JSON read back

What is written as JSON is read as it was: every text with its quotes, backslashes and control
characters, every list and every record, at whatever depth and whatever follows it.

* `codes?_quoted`, `text?_map`: a text between quotes.
* `ReadsBack`: values, items and members, as far as the steps of the reader reach.
* `read_text`: a whole written value, with steps to spare and nothing left over.
-/

namespace Livery.Json

/-! ## Texts -/

/-- A control character `c` without a letter of its own is written by its number. -/
theorem codes?_control {c : Char} (h : c.toNat < 0x20) (rest : List Char) :
    codes? (['\\', 'u', '0', '0', Text.Hex.lowerDigit (c.toNat / 16),
      Text.Hex.lowerDigit (c.toNat % 16)] ++ rest) = before c.toNat (codes? rest) := by
  have hzero : Text.Hex.digit? '0' = some 0 := by decide
  have hcode : code? '0' '0' (Text.Hex.lowerDigit (c.toNat / 16))
      (Text.Hex.lowerDigit (c.toNat % 16)) = some c.toNat := by
    simp only [code?, hzero, Text.Hex.digit?_lowerDigit (show c.toNat / 16 < 16 by omega),
      Text.Hex.digit?_lowerDigit (show c.toNat % 16 < 16 by omega)]
    simp
    omega
  simp only [List.cons_append, List.nil_append, codes?, hcode]

theorem codes?_plain {c : Char} (hquote : c ≠ '"') (hslash : c ≠ '\\') (h : ¬ c.toNat < 0x20)
    (rest : List Char) : codes? (c :: rest) = before c.toNat (codes? rest) := by
  rw [codes?.eq_def]
  split
  · next heq => cases heq
  · next heq => exact absurd (List.cons.inj heq).1 hquote
  · next heq => exact absurd (List.cons.inj heq).1 hslash
  · next heq => exact absurd (List.cons.inj heq).1 hslash
  · next heq =>
    obtain ⟨rfl, rfl⟩ := List.cons.inj heq
    exact if_neg h

/-- The character `c` is read as it was written, escaped or not. -/
theorem codes?_escape (c : Char) (rest : List Char) :
    codes? (Value.escape c ++ rest) = before c.toNat (codes? rest) := by
  unfold Value.escape
  split
  · rfl
  · rfl
  · rfl
  · rfl
  · rfl
  · rfl
  · rfl
  · next hquote hslash _ _ _ _ _ =>
    split
    · next h => exact codes?_control h rest
    · next h => exact codes?_plain hquote hslash h rest

theorem codes?_quoted (cs rest : List Char) :
    codes? (cs.flatMap Value.escape ++ '"' :: rest) = some (cs.map Char.toNat, rest) := by
  induction cs with
  | nil => rfl
  | cons c cs ih =>
    rw [List.flatMap_cons, List.append_assoc, codes?_escape, ih]
    rfl

/-- No character is half of a surrogate pair: neither `isHigh` nor `isLow`. -/
theorem not_surrogate (c : Char) : isHigh c.toNat = false ∧ isLow c.toNat = false := by
  have h : c.toNat.isValidChar := c.valid
  unfold Nat.isValidChar at h
  constructor <;> simp [isHigh, isLow] <;> omega

theorem chars?_map (cs : List Char) : chars? (cs.map Char.toNat) = some cs := by
  induction cs with
  | nil => rfl
  | cons c cs ih =>
    obtain ⟨hhigh, hlow⟩ := not_surrogate c
    cases cs with
    | nil => simp [chars?, hhigh, hlow]
    | cons d cs =>
      rw [List.map_cons] at ih
      simp only [List.map_cons, chars?, hhigh, hlow, ih]
      simp

theorem text?_map (s : String) : text? (s.toList.map Char.toNat) = some s := by
  rw [text?, chars?_map, Option.map_some, String.ofList_toList]

/-! ## What is to be read -/

mutual

/-- What is read of a written `Value`. -/
def Value.reading : Value → Reading
  | .string text => .string (some text)
  | .array items => .array (readings items)
  | .object members => .object (memberReadings members)

/-- What is read of written items. -/
def Value.readings : List Value → List Reading
  | [] => []
  | item :: rest => item.reading :: readings rest

/-- What is read of written members. -/
def Value.memberReadings : List (String × Value) → List (Option String × Reading)
  | [] => []
  | (key, item) :: rest => (some key, item.reading) :: memberReadings rest

end

theorem Value.readings_eq (items : List Value) : readings items = items.map Value.reading := by
  induction items with
  | nil => rfl
  | cons item rest ih => rw [readings, ih, List.map_cons]

/-- The written form of the value `v` begins with a quote or an opening bracket. -/
theorem Value.write_head (v : Value) (depth : Nat) :
    ∃ c cs, v.write depth = c :: cs ∧ isBlank c = false ∧ c ≠ ']' := by
  cases v with
  | string text => exact ⟨_, _, rfl, by decide, by decide⟩
  | array items => cases items <;> exact ⟨_, _, rfl, by decide, by decide⟩
  | object members =>
    cases members with
    | nil => exact ⟨_, _, rfl, by decide, by decide⟩
    | cons member rest => exact ⟨_, _, rfl, by decide, by decide⟩

/-! ## Blanks -/

theorem dropWhile_newline (depth : Nat) (cs : List Char) :
    (Value.newline depth ++ cs).dropWhile isBlank = cs.dropWhile isBlank := by
  rw [Value.newline, List.cons_append, List.dropWhile_cons_of_pos (by decide)]
  induction 2 * depth with
  | zero => rfl
  | succ n ih =>
    rwa [List.replicate_succ, List.cons_append, List.dropWhile_cons_of_pos (by decide)]

/-- Blanks before a value do not count. -/
theorem value_congr {cs ds : List Char} (h : cs.dropWhile isBlank = ds.dropWhile isBlank)
    (fuel : Nat) : value fuel cs = value fuel ds := by
  cases fuel with
  | zero => rfl
  | succ fuel => rw [value, value, h]

theorem items_newline (fuel depth : Nat) (cs : List Char) :
    items fuel (Value.newline depth ++ cs) = items fuel cs := by
  cases fuel with
  | zero => rfl
  | succ fuel => rw [items, items, value_congr (dropWhile_newline depth cs)]

theorem members_newline (fuel depth : Nat) (cs : List Char) :
    members fuel (Value.newline depth ++ cs) = members fuel cs := by
  cases fuel with
  | zero => rfl
  | succ fuel => rw [members, members, dropWhile_newline]

/-! ## Values, items and members -/

/-- What is written in no more characters than `fuel` has steps is read back, whatever follows it:
values, and the items and members of a list or a record up to its closing bracket. -/
structure ReadsBack (fuel : Nat) : Prop where
  value (v : Value) (depth : Nat) (rest : List Char) (h : (v.write depth).length ≤ fuel) :
    value fuel (v.write depth ++ rest) = (v.reading, rest)
  items (v : Value) (vs : List Value) (depth outer : Nat) (rest : List Char)
    (h : (v.write depth ++ Value.writeItems depth vs).length < fuel) :
    items fuel (v.write depth ++ (Value.writeItems depth vs ++
      (Value.newline outer ++ ']' :: rest))) = (Value.readings (v :: vs), rest)
  members (key : String) (v : Value) (ms : List (String × Value)) (depth outer : Nat)
    (rest : List Char) (h : (v.write depth ++ Value.writeMembers depth ms).length < fuel) :
    members fuel (Value.quote key ++ (':' :: ' ' :: (v.write depth ++
      (Value.writeMembers depth ms ++ (Value.newline outer ++ '\x7d' :: rest))))) =
      (Value.memberReadings ((key, v) :: ms), rest)

namespace ReadsBack

theorem zero : ReadsBack 0 where
  value v depth rest h := by
    obtain ⟨c, cs, heq, -⟩ := v.write_head depth
    simp [heq] at h
  items v vs depth outer rest h := absurd h (Nat.not_lt_zero _)
  members key v ms depth outer rest h := absurd h (Nat.not_lt_zero _)

-- the reader spends a step on every value, item and member, and each has a character of its own
variable {fuel : Nat} (ih : ReadsBack fuel)
include ih

theorem value_succ (v : Value) (depth : Nat) (rest : List Char)
    (h : (v.write depth).length ≤ fuel + 1) :
    Json.value (fuel + 1) (v.write depth ++ rest) = (v.reading, rest) := by
  have hdrop : (v.write depth ++ rest).dropWhile isBlank = v.write depth ++ rest := by
    obtain ⟨c, cs, heq, hblank, -⟩ := v.write_head depth
    rw [heq, List.cons_append, List.dropWhile_cons_of_neg (by simp [hblank])]
  rw [Json.value, hdrop]
  cases v with
  | string text =>
    simp only [Value.write, Value.quote, List.cons_append, List.append_assoc, List.nil_append,
      codes?_quoted, text?_map, Value.reading]
  | array items =>
    cases items with
    | nil =>
      simp only [Value.write, List.cons_append, List.nil_append]
      rw [List.dropWhile_cons_of_neg (by decide)]
      rfl
    | cons v vs =>
      obtain ⟨c, cs, heq, hblank, hclose⟩ := v.write_head (depth + 1)
      have hitems := ih.items v vs (depth + 1) depth rest (by
        simp only [Value.write, Value.newline, List.length_cons, List.length_append] at h ⊢
        omega)
      simp only [Value.write, List.cons_append, List.append_assoc, List.nil_append]
      rw [dropWhile_newline, heq, List.cons_append, List.dropWhile_cons_of_neg (by simp [hblank])]
      rw [heq, List.cons_append] at hitems
      rw [Value.reading]
      split
      · next heq => exact absurd (List.cons.inj heq).1 hclose
      · rw [hitems]
  | object members =>
    cases members with
    | nil =>
      simp only [Value.write, List.cons_append, List.nil_append]
      rw [List.dropWhile_cons_of_neg (by decide)]
      rfl
    | cons member ms =>
      obtain ⟨key, v⟩ := member
      have hmembers := ih.members key v ms (depth + 1) depth rest (by
        simp only [Value.write, Value.newline, List.length_cons, List.length_append] at h ⊢
        omega)
      simp only [Value.write, List.cons_append, List.append_assoc, List.nil_append]
      rw [dropWhile_newline, Value.quote, List.cons_append,
        List.dropWhile_cons_of_neg (by decide)]
      rw [Value.quote, List.cons_append] at hmembers
      rw [Value.reading]
      split
      · next heq => exact absurd (List.cons.inj heq).1 (by decide)
      · rw [hmembers]

theorem items_succ (v : Value) (vs : List Value) (depth outer : Nat) (rest : List Char)
    (h : (v.write depth ++ Value.writeItems depth vs).length < fuel + 1) :
    Json.items (fuel + 1) (v.write depth ++ (Value.writeItems depth vs ++
      (Value.newline outer ++ ']' :: rest))) = (Value.readings (v :: vs), rest) := by
  rw [List.length_append] at h
  rw [Json.items, ih.value v depth _ (by omega)]
  cases vs with
  | nil =>
    simp only [Value.writeItems, List.nil_append]
    rw [dropWhile_newline, List.dropWhile_cons_of_neg (by decide)]
    rfl
  | cons w ws =>
    have hitems := ih.items w ws depth outer rest (by
      simp only [Value.writeItems, List.length_cons, List.length_append] at h ⊢
      omega)
    simp only [Value.writeItems, List.cons_append, List.append_assoc]
    rw [List.dropWhile_cons_of_neg (by decide)]
    simp only [items_newline, hitems, Value.readings]

theorem members_succ (key : String) (v : Value) (ms : List (String × Value)) (depth outer : Nat)
    (rest : List Char) (h : (v.write depth ++ Value.writeMembers depth ms).length < fuel + 1) :
    Json.members (fuel + 1) (Value.quote key ++ (':' :: ' ' :: (v.write depth ++
      (Value.writeMembers depth ms ++ (Value.newline outer ++ '\x7d' :: rest))))) =
      (Value.memberReadings ((key, v) :: ms), rest) := by
  rw [List.length_append] at h
  have hvalue : ∀ cs, Json.value fuel (' ' :: (v.write depth ++ cs)) = (v.reading, cs) := by
    intro cs
    rw [value_congr (List.dropWhile_cons_of_pos (by decide))]
    exact ih.value v depth cs (by omega)
  rw [Json.members, Value.quote, List.cons_append, List.dropWhile_cons_of_neg (by decide)]
  simp only [List.append_assoc, List.cons_append, List.nil_append, codes?_quoted, text?_map]
  rw [List.dropWhile_cons_of_neg (by decide)]
  simp only [hvalue]
  cases ms with
  | nil =>
    simp only [Value.writeMembers, List.nil_append]
    rw [dropWhile_newline, List.dropWhile_cons_of_neg (by decide)]
    rfl
  | cons member ms =>
    obtain ⟨key', w⟩ := member
    have hmembers := ih.members key' w ms depth outer rest (by
      simp only [Value.writeMembers, List.length_cons, List.length_append] at h ⊢
      omega)
    simp only [Value.writeMembers, List.cons_append, List.append_assoc]
    rw [List.dropWhile_cons_of_neg (by decide)]
    simp only [members_newline, hmembers, Value.memberReadings]

end ReadsBack

theorem readsBack (fuel : Nat) : ReadsBack fuel := by
  induction fuel with
  | zero => exact .zero
  | succ fuel ih => exact ⟨ih.value_succ, ih.items_succ, ih.members_succ⟩

/-- **What is written is read**, and nothing is left over. -/
theorem read_text (v : Value) : read v.text = (v.reading, []) := by
  have h := (readsBack (2 * v.text.length + 1)).value v 0 [] (by
    rw [Value.text, String.length_ofList]
    omega)
  rw [List.append_nil] at h
  rwa [read, Value.text, String.toList_ofList]

end Livery.Json
