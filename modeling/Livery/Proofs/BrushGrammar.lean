import Mathlib.Data.List.Chain
import Livery.Color.InPlace
import Livery.Proofs.Literals
import Livery.Proofs.Search

/-!
# The language of brush literals

* `Color.Spells`: the digits of a colour; `Color.Reads` and `Brush.Reads`: every literal with the
  outcome of reading it.
* `Color.InPlace.read_eq`: digits read where they stand give the same colour or the same refusal,
  and no range or product goes wrong on the way.
* `Brush.parse_grammar`: the reader of brushes decides the language and reads back what is written.
-/

namespace Livery

/-! ## Digits -/

namespace Text.Hex

/-- The character `c` stands for the number `n`, which is below sixteen. -/
def IsDigit (c : Char) (n : Nat) : Prop :=
  n < 16 ∧ (c = upperDigit n ∨ c = lowerDigit n)

theorem digit?_eq_some_iff {c : Char} {n : Nat} : digit? c = some n ↔ IsDigit c n := by
  constructor
  · intro h
    refine ⟨digit?_lt h, ?_⟩
    simp only [digit?] at h
    have hc := Char.ofNat_toNat c
    split at h
    · obtain rfl := Option.some.inj h
      left
      rw [upperDigit, if_pos (by omega), Nat.add_sub_cancel' (by omega), hc]
    · split at h
      · obtain rfl := Option.some.inj h
        left
        rw [upperDigit, if_neg (by omega), Nat.add_sub_cancel, Nat.add_sub_cancel' (by omega), hc]
      · split at h
        · obtain rfl := Option.some.inj h
          right
          rw [lowerDigit, if_neg (by omega), Nat.add_sub_cancel, Nat.add_sub_cancel' (by omega),
            hc]
        · cases h
  · rintro ⟨hn, rfl | rfl⟩
    · exact digit?_upperDigit hn
    · exact digit?_lowerDigit hn

theorem digit?_eq_none_iff {c : Char} : digit? c = none ↔ ∀ n, ¬ IsDigit c n := by
  simp only [Option.eq_none_iff_forall_ne_some, ne_eq, digit?_eq_some_iff]

/-- Digits are read one by one. -/
theorem mapM_digit?_eq_some_iff {cs : List Char} {values : List Nat} :
    cs.mapM digit? = some values ↔ cs.map digit? = values.map some := by
  induction cs generalizing values with
  | nil => cases values <;> simp
  | cons c cs ih =>
    cases values <;> simp [List.mapM_cons, Option.bind_eq_some_iff, ih]

theorem mapM_digit?_eq_none_iff {cs : List Char} :
    cs.mapM digit? = none ↔ ∃ c ∈ cs, digit? c = none := by
  induction cs with
  | nil => simp
  | cons c cs ih =>
    simp only [List.mapM_cons, List.exists_mem_cons_iff, ← ih]
    cases digit? c <;> cases cs.mapM digit? <;> simp

theorem exists_of_mapM_digit? {cs : List Char} {values : List Nat}
    (h : cs.mapM digit? = some values) {c : Char} (hc : c ∈ cs) : ∃ n, digit? c = some n := by
  cases hdigit : digit? c with
  | some n => exact ⟨n, rfl⟩
  | none =>
    have hnone := mapM_digit?_eq_none_iff.2 ⟨c, hc, hdigit⟩
    rw [h] at hnone
    cases hnone

theorem length_of_mapM_digit? {cs : List Char} {values : List Nat}
    (h : cs.mapM digit? = some values) : values.length = cs.length := by
  simpa using (congrArg List.length (mapM_digit?_eq_some_iff.1 h)).symm

end Text.Hex

/-! ## The digits of a colour -/

namespace Color

open Text.Hex

/-- Two digits, `high` and `low`, that write the byte `b`. -/
def SpellsByte (high low : Char) (b : UInt8) : Prop :=
  ∃ h l, IsDigit high h ∧ IsDigit low l ∧ b.toNat = 16 * h + l

/-- Every entry of `l` written twice. -/
def doubled {α : Type} (l : List α) : List α := l.flatMap fun a => [a, a]

/-- The digits behind a `#` that write a colour. -/
inductive Spells : List Char → Color → Prop
  | rgb {r r' g g' b b' : Char} {red green blue : UInt8} :
      SpellsByte r r' red → SpellsByte g g' green → SpellsByte b b' blue →
      Spells [r, r', g, g', b, b'] ⟨255, red, green, blue⟩
  /-- Alpha first. -/
  | argb {a a' r r' g g' b b' : Char} {alpha red green blue : UInt8} :
      SpellsByte a a' alpha → SpellsByte r r' red → SpellsByte g g' green →
      SpellsByte b b' blue → Spells [a, a', r, r', g, g', b, b'] ⟨alpha, red, green, blue⟩
  | short {digits : List Char} {color : Color} :
      digits.length = 3 ∨ digits.length = 4 → Spells (doubled digits) color →
      Spells digits color

theorem spellsByte_iff {high low : Char} {b : UInt8} :
    SpellsByte high low b ↔
      ∃ h l, digit? high = some h ∧ digit? low = some l ∧ b = pair h l := by
  simp only [SpellsByte, ← digit?_eq_some_iff]
  refine exists_congr fun h => exists_congr fun l => and_congr_right fun hh => ?_
  refine and_congr_right fun hl => ?_
  have := digit?_lt hh
  have := digit?_lt hl
  rw [← UInt8.toNat_inj, pair, UInt8.toNat_ofNat_of_lt' (by simp [UInt8.size]; omega)]
  omega

theorem spellsByte_pair {high low : Char} {h l : Nat} (hh : digit? high = some h)
    (hl : digit? low = some l) : SpellsByte high low (pair h l) :=
  spellsByte_iff.2 ⟨h, l, hh, hl, rfl⟩

theorem length_doubled {α : Type} (l : List α) : (doubled l).length = 2 * l.length := by
  induction l with
  | nil => rfl
  | cons a l ih =>
    rw [doubled, List.flatMap_cons, ← doubled, List.length_append, ih, List.length_cons]
    simp only [List.length_cons, List.length_nil]
    omega

theorem mapM_doubled (digits : List Char) :
    (doubled digits).mapM digit? = (digits.mapM digit?).map doubled := by
  induction digits with
  | nil => rfl
  | cons c cs ih =>
    rw [doubled, List.flatMap_cons, ← doubled, List.mapM_append, ih]
    simp only [List.mapM_cons, List.mapM_nil]
    cases digit? c <;> cases cs.mapM digit? <;> rfl

theorem ofHex_of_none {digits : List Char} (h : digits.mapM digit? = none) :
    ofHex digits = .error .invalidHex := by
  rw [ofHex, h]

theorem ofHex_of_some {digits : List Char} {values : List Nat}
    (h : digits.mapM digit? = some values) :
    ofHex digits = (ofDigits? values).elim (.error .invalidLength) .ok := by
  rw [ofHex, h]
  cases hcolor : ofDigits? values <;> simp [hcolor]

theorem isSome_ofDigits? (values : List Nat) :
    (ofDigits? values).isSome = true ↔ values.length ∈ [3, 4, 6, 8] := by
  match values with
  | [] | [_] | [_, _] | [_, _, _] | [_, _, _, _] | [_, _, _, _, _] | [_, _, _, _, _, _]
  | [_, _, _, _, _, _, _] | [_, _, _, _, _, _, _, _] => simp [ofDigits?]
  | _ :: _ :: _ :: _ :: _ :: _ :: _ :: _ :: _ :: _ => simp [ofDigits?]

/-- **A short form is the long form with every digit `doubled`.** -/
theorem ofHex_doubled {digits : List Char} (h : digits.length = 3 ∨ digits.length = 4) :
    ofHex (doubled digits) = ofHex digits := by
  have hmap := mapM_doubled digits
  cases hvalues : digits.mapM digit? with
  | none => rw [ofHex_of_none hvalues, ofHex_of_none (by rw [hmap, hvalues]; rfl)]
  | some values =>
    have hdoubled : ofDigits? (doubled values) = ofDigits? values := by
      rcases length_of_mapM_digit? hvalues ▸ h with h | h
      · obtain ⟨r, g, b, rfl⟩ := List.length_eq_three.1 h
        rfl
      · obtain ⟨a, r, g, b, rfl⟩ := List.length_eq_four.1 h
        rfl
    rw [ofHex_of_some hvalues, ofHex_of_some (by rw [hmap, hvalues]; rfl), hdoubled]

theorem spells_of_long {digits : List Char} {color : Color} (h : ofHex digits = .ok color)
    (hlength : digits.length = 6 ∨ digits.length = 8) : Spells digits color := by
  cases hvalues : digits.mapM digit? with
  | none => simp [ofHex_of_none hvalues] at h
  | some values =>
    rw [ofHex_of_some hvalues] at h
    rw [← length_of_mapM_digit? hvalues] at hlength
    rw [mapM_digit?_eq_some_iff] at hvalues
    -- the values have one of two shapes, and the digits have the same
    match values, hlength with
    | [_, _, _, _, _, _], _ =>
      cases h
      simp only [List.map_cons, List.map_nil, List.map_eq_cons_iff, List.map_eq_nil_iff] at hvalues
      obtain ⟨r, _, rfl, hr, r', _, rfl, hr', g, _, rfl, hg, g', _, rfl, hg', b, _, rfl, hb,
        b', _, rfl, hb', rfl⟩ := hvalues
      exact .rgb (spellsByte_pair hr hr') (spellsByte_pair hg hg') (spellsByte_pair hb hb')
    | [_, _, _, _, _, _, _, _], _ =>
      cases h
      simp only [List.map_cons, List.map_nil, List.map_eq_cons_iff, List.map_eq_nil_iff] at hvalues
      obtain ⟨a, _, rfl, ha, a', _, rfl, ha', r, _, rfl, hr, r', _, rfl, hr', g, _, rfl, hg,
        g', _, rfl, hg', b, _, rfl, hb, b', _, rfl, hb', rfl⟩ := hvalues
      exact .argb (spellsByte_pair ha ha') (spellsByte_pair hr hr') (spellsByte_pair hg hg')
        (spellsByte_pair hb hb')

theorem length_of_ofHex {digits : List Char} {color : Color} (h : ofHex digits = .ok color) :
    digits.length ∈ [3, 4, 6, 8] := by
  cases hvalues : digits.mapM digit? with
  | none => simp [ofHex_of_none hvalues] at h
  | some values =>
    rw [← length_of_mapM_digit? hvalues, ← isSome_ofDigits?]
    rw [ofHex_of_some hvalues] at h
    cases hcolor : ofDigits? values with
    | none => simp [hcolor] at h
    | some _ => rfl

/-- **The colours of digits** that `ofHex` reads are exactly those that the digits write. -/
theorem ofHex_eq_ok_iff {digits : List Char} {color : Color} :
    ofHex digits = .ok color ↔ Spells digits color := by
  constructor
  · intro h
    have hlength : (digits.length = 3 ∨ digits.length = 4) ∨
        (digits.length = 6 ∨ digits.length = 8) := by
      simpa [or_assoc] using length_of_ofHex h
    rcases hlength with hshort | hlong
    -- a short form has its colour from the long one
    · refine .short hshort (spells_of_long (ofHex_doubled hshort ▸ h) ?_)
      rw [length_doubled]
      omega
    · exact spells_of_long h hlong
  · intro h
    induction h with
    | rgb hred hgreen hblue =>
      obtain ⟨_, _, hr, hr', rfl⟩ := spellsByte_iff.1 hred
      obtain ⟨_, _, hg, hg', rfl⟩ := spellsByte_iff.1 hgreen
      obtain ⟨_, _, hb, hb', rfl⟩ := spellsByte_iff.1 hblue
      simp [ofHex, hr, hr', hg, hg', hb, hb', ofDigits?, Color.rgb]
    | argb halpha hred hgreen hblue =>
      obtain ⟨_, _, ha, ha', rfl⟩ := spellsByte_iff.1 halpha
      obtain ⟨_, _, hr, hr', rfl⟩ := spellsByte_iff.1 hred
      obtain ⟨_, _, hg, hg', rfl⟩ := spellsByte_iff.1 hgreen
      obtain ⟨_, _, hb, hb', rfl⟩ := spellsByte_iff.1 hblue
      simp [ofHex, ha, ha', hr, hr', hg, hg', hb, hb', ofDigits?]
    | short hlength _ ih => rw [← ofHex_doubled hlength, ih]

theorem ofHex_eq_invalidHex_iff {digits : List Char} :
    ofHex digits = .error .invalidHex ↔ ∃ c ∈ digits, ∀ n, ¬ IsDigit c n := by
  simp only [← digit?_eq_none_iff, ← mapM_digit?_eq_none_iff]
  cases hvalues : digits.mapM digit? with
  | none => simp [ofHex_of_none hvalues]
  | some values =>
    rw [ofHex_of_some hvalues]
    cases ofDigits? values <;> simp

theorem ofHex_eq_invalidLength_iff {digits : List Char} :
    ofHex digits = .error .invalidLength ↔
      (∀ c ∈ digits, ∃ n, IsDigit c n) ∧ digits.length ∉ [3, 4, 6, 8] := by
  have hall : (∀ c ∈ digits, ∃ n, IsDigit c n) ↔ digits.mapM digit? ≠ none := by
    rw [ne_eq, mapM_digit?_eq_none_iff]
    simp only [digit?_eq_none_iff, not_exists, not_and, not_forall, not_not]
  rw [hall]
  cases hvalues : digits.mapM digit? with
  | none => simp [ofHex_of_none hvalues]
  | some values =>
    rw [ofHex_of_some hvalues, ← length_of_mapM_digit? hvalues, ← isSome_ofDigits?]
    cases ofDigits? values <;> simp

/-! ## Read in place -/

namespace InPlace

theorem utf8Size_of_digit {c : Char} {n : Nat} (h : digit? c = some n) : c.utf8Size = 1 := by
  have hle : c.toNat ≤ 0x7F := by
    simp only [digit?] at h
    grind
  exact Char.utf8Size_eq_one_iff.2 hle

section Slices

variable {cs : List Char} (hcs : ∀ c ∈ cs, c.utf8Size = 1)
include hcs

theorem utf8Length_eq : Markup.utf8Length cs = cs.length := by
  induction cs with
  | nil => rfl
  | cons c cs ih =>
    rw [List.forall_mem_cons] at hcs
    rw [Markup.utf8Length, List.foldr_cons, ← Markup.utf8Length, ih hcs.2, hcs.1,
      List.length_cons, Nat.add_comm]

theorem takeBytes?_eq {n : Nat} (hn : n ≤ cs.length) : takeBytes? n cs = some (cs.take n) := by
  induction n generalizing cs with
  | zero => simp [takeBytes?]
  | succ n ih =>
    cases cs with
    | nil => cases hn
    | cons c cs =>
      rw [List.forall_mem_cons] at hcs
      rw [takeBytes?, hcs.1, if_pos (by omega), Nat.add_sub_cancel,
        ih hcs.2 (Nat.le_of_succ_le_succ hn)]
      rfl

theorem dropBytes?_eq {n : Nat} (hn : n ≤ cs.length) : dropBytes? n cs = some (cs.drop n) := by
  induction n generalizing cs with
  | zero => simp [dropBytes?]
  | succ n ih =>
    cases cs with
    | nil => cases hn
    | cons c cs =>
      rw [List.forall_mem_cons] at hcs
      rw [dropBytes?, hcs.1, if_pos (by omega), Nat.add_sub_cancel,
        ih hcs.2 (Nat.le_of_succ_le_succ hn), List.drop_succ_cons]

/-- **No range of characters of one byte is off their boundaries.** -/
theorem slice?_eq {start stop : Nat} (h : start ≤ stop) (hstop : stop ≤ cs.length) :
    slice? start stop cs = some ((cs.take stop).drop start) := by
  rw [slice?, takeBytes?_eq hcs hstop, Option.bind_some]
  exact dropBytes?_eq (fun c hc => hcs c (List.mem_of_mem_take hc)) (by simp; omega)

end Slices

-- a range can be off: the first character has two bytes
example : slice? 1 2 ['é', '1'] = none := by decide

theorem byteOf?_one {c : Char} {v : Nat} (h : digit? c = some v) :
    byteOf? [c] = some (UInt8.ofNat v) := by
  have hplus : c ≠ '+' := by
    rintro rfl
    cases h
  have := digit?_lt h
  simp only [byteOf?, unsigned, if_neg hplus, Markup.numeral, h]
  rw [if_pos (by omega), Nat.zero_mul, Nat.zero_add]

theorem byteOf?_two {c d : Char} {v w : Nat} (hc : digit? c = some v) (hd : digit? d = some w) :
    byteOf? [c, d] = some (pair v w) := by
  have hplus : c ≠ '+' := by
    rintro rfl
    cases hc
  have := digit?_lt hc
  have := digit?_lt hd
  simp only [byteOf?, unsigned, if_neg hplus, Markup.numeral, hc, hd]
  rw [if_pos (by omega), Nat.zero_mul, Nat.zero_add, pair]

/-- **No digit `v` written twice is too large for a byte.** -/
theorem twice_eq {v : Nat} (h : v < 16) :
    (UInt8.ofNat v).toNat * 17 < 256 ∧ UInt8.ofNat v * 17 = pair v v := by
  have hall : ∀ k : Fin 16, (UInt8.ofNat k.val).toNat * 17 < 256 ∧
      UInt8.ofNat k.val * 17 = pair k.val k.val := by decide
  exact hall ⟨v, h⟩

section Channels

variable {cs : List Char} {values : List Nat} (hvalues : cs.mapM digit? = some values)
include hvalues

theorem getElem?_of_mapM {i v : Nat} (h : values[i]? = some v) :
    ∃ hi : i < cs.length, digit? cs[i] = some v := by
  have hmap := congrArg (·[i]?) (mapM_digit?_eq_some_iff.1 hvalues)
  simp only [List.getElem?_map, h, Option.map_some, Option.map_eq_some_iff] at hmap
  obtain ⟨c, hc, hdigit⟩ := hmap
  obtain ⟨hi, rfl⟩ := List.getElem?_eq_some_iff.1 hc
  exact ⟨hi, hdigit⟩

theorem utf8Size_of_mapM : ∀ c ∈ cs, c.utf8Size = 1 := by
  intro c hc
  obtain ⟨n, hdigit⟩ := exists_of_mapM_digit? hvalues hc
  exact utf8Size_of_digit hdigit

theorem nibble_eq {i v : Nat} (h : values[i]? = some v) : nibble cs i = .ok (pair v v) := by
  obtain ⟨hi, hdigit⟩ := getElem?_of_mapM hvalues h
  have hslice : slice? i (i + 1) cs = some [cs[i]] := by
    rw [slice?_eq (utf8Size_of_mapM hvalues) (Nat.le_succ i) hi, List.drop_take,
      List.drop_eq_getElem_cons hi, Nat.succ_sub (Nat.le_refl i), Nat.sub_self]
    rfl
  obtain ⟨hfits, htwice⟩ := twice_eq (digit?_lt hdigit)
  simp only [nibble, numeralAt, hslice, byteOf?_one hdigit, if_pos hfits, htwice]

theorem byte_eq {i v w : Nat} (hv : values[i * 2]? = some v) (hw : values[i * 2 + 1]? = some w) :
    byte cs i = .ok (pair v w) := by
  obtain ⟨hi, hhigh⟩ := getElem?_of_mapM hvalues hv
  obtain ⟨hi', hlow⟩ := getElem?_of_mapM hvalues hw
  have hslice : slice? (i * 2) (i * 2 + 2) cs = some [cs[i * 2], cs[i * 2 + 1]] := by
    rw [slice?_eq (utf8Size_of_mapM hvalues) (by omega) (by omega), List.drop_take,
      List.drop_eq_getElem_cons hi, List.drop_eq_getElem_cons hi', Nat.add_sub_cancel_left]
    rfl
  simp only [byte, numeralAt, hslice, byteOf?_two hhigh hlow]

end Channels

theorem rgb_eq {channel : Nat → Except Failure UInt8} {r g b : UInt8} (h₀ : channel 0 = .ok r)
    (h₁ : channel 1 = .ok g) (h₂ : channel 2 = .ok b) : rgb channel = .ok (.rgb r g b) := by
  rw [rgb, h₀, h₁, h₂]
  rfl

theorem argb_eq {channel : Nat → Except Failure UInt8} {a r g b : UInt8}
    (h₀ : channel 0 = .ok a) (h₁ : channel 1 = .ok r) (h₂ : channel 2 = .ok g)
    (h₃ : channel 3 = .ok b) : argb channel = .ok ⟨a, r, g, b⟩ := by
  rw [argb, h₀, h₁, h₂, h₃]
  rfl

/-- **`read` gives the colour or the refusal of the digits**, and nothing else: no range is off the
boundaries of the characters and no product too large. -/
theorem read_eq (digits : List Char) : read digits = (ofHex digits).mapError .refused := by
  cases hvalues : digits.mapM digit? with
  | none =>
    -- a character that is no digit is refused before anything is cut
    obtain ⟨c, hc, hdigit⟩ := mapM_digit?_eq_none_iff.1 hvalues
    have hall : (digits.all fun c => (digit? c).isSome) = false :=
      List.all_eq_false.2 ⟨c, hc, by simp [hdigit]⟩
    rw [read, hall, ofHex_of_none hvalues]
    rfl
  | some values =>
    have hall : (digits.all fun c => (digit? c).isSome) = true := by
      refine List.all_eq_true.2 fun c hc => ?_
      obtain ⟨n, hdigit⟩ := exists_of_mapM_digit? hvalues hc
      simp [hdigit]
    rw [read, hall, if_pos rfl, utf8Length_eq (utf8Size_of_mapM hvalues),
      ← length_of_mapM_digit? hvalues, ofHex_of_some hvalues]
    -- one byte for each digit, so that the forms are told apart by the same number
    split
    case h_1 h =>
      obtain ⟨r, g, b, rfl⟩ := List.length_eq_three.1 h
      rw [rgb_eq (nibble_eq hvalues rfl) (nibble_eq hvalues rfl) (nibble_eq hvalues rfl)]
      rfl
    case h_2 h =>
      obtain ⟨a, r, g, b, rfl⟩ := List.length_eq_four.1 h
      rw [argb_eq (nibble_eq hvalues rfl) (nibble_eq hvalues rfl) (nibble_eq hvalues rfl)
        (nibble_eq hvalues rfl)]
      rfl
    case h_3 h =>
      match values, h with
      | [r, r', g, g', b, b'], _ =>
        rw [rgb_eq (byte_eq hvalues rfl rfl) (byte_eq hvalues rfl rfl) (byte_eq hvalues rfl rfl)]
        rfl
    case h_4 h =>
      match values, h with
      | [a, a', r, r', g, g', b, b'], _ =>
        rw [argb_eq (byte_eq hvalues rfl rfl) (byte_eq hvalues rfl rfl)
          (byte_eq hvalues rfl rfl) (byte_eq hvalues rfl rfl)]
        rfl
    case h_5 h3 h4 h6 h8 =>
      have hnone : (ofDigits? values).isSome = false := by
        rw [Bool.eq_false_iff, ne_eq, isSome_ofDigits?]
        rintro h
        simp only [List.mem_cons, List.not_mem_nil, or_false] at h
        rcases h with h | h | h | h
        exacts [h3 h, h4 h, h6 h, h8 h]
      rw [Option.isSome_eq_false_iff.1 hnone |> Option.isNone_iff_eq_none.1]
      rfl

end InPlace

/-! ## Names -/

/-- A name with `A`–`Z` in lower case. -/
def folded (name : List Char) : List Char := name.map Char.toLower

theorem folded_ascending :
    (named.map fun entry => folded entry.1.toList).IsChain (· < ·) := by
  decide +kernel

/-- **No two entries of `named` differ in the case of their letters alone.** -/
theorem named_distinct : (named.map fun entry => Text.lower entry.1).Nodup := by
  -- the table ascends even without regard to case
  have hfolded : (named.map fun entry => folded entry.1.toList).Nodup :=
    (List.isChain_iff_pairwise.1 folded_ascending).imp fun {a b} (h : a < b) (heq : a = b) =>
      List.lt_irrefl b (heq ▸ h)
  refine List.Nodup.of_map String.toList ?_
  rw [List.map_map]
  simpa only [folded, Function.comp_def, Text.lower_toList] using hfolded

theorem lower_eq_lower_iff {entry : String} {name : List Char} :
    Text.lower entry = Text.lower (String.ofList name) ↔ folded entry.toList = folded name := by
  rw [← String.toList_inj, Text.lower_toList, Text.lower_toList, String.toList_ofList]
  rfl

theorem named?_eq_some_iff {name : List Char} {color : Color} :
    named? (String.ofList name) = some color ↔
      ∃ entry, (entry, color) ∈ named ∧ folded entry.toList = folded name := by
  simp only [named?, Option.map_eq_some_iff, find?_key_eq_some_iff named_distinct,
    lower_eq_lower_iff]
  constructor
  · rintro ⟨⟨entry, color⟩, h, rfl⟩
    exact ⟨entry, h⟩
  · rintro ⟨entry, h⟩
    exact ⟨(entry, color), h, rfl⟩

theorem named?_eq_none_iff {name : List Char} :
    named? (String.ofList name) = none ↔
      ∀ entry ∈ named, folded entry.1.toList ≠ folded name := by
  simp only [named?, Option.map_eq_none_iff, find?_key_eq_none_iff, List.mem_map, not_exists,
    not_and, lower_eq_lower_iff, ne_eq]

/-! ## Colour literals -/

/-- The text of a colour literal without the white space at its ends, and the outcome of `parse`. -/
inductive Reads : List Char → Except ParseError Color → Prop
  | empty : Reads [] (.error .empty)
  /-- Whatever the number of characters. -/
  | invalidHex {digits : List Char} : (∃ c ∈ digits, ∀ n, ¬ IsDigit c n) →
      Reads ('#' :: digits) (.error .invalidHex)
  | invalidLength {digits : List Char} : (∀ c ∈ digits, ∃ n, IsDigit c n) →
      digits.length ∉ [3, 4, 6, 8] → Reads ('#' :: digits) (.error .invalidLength)
  | digits {digits : List Char} {color : Color} : Spells digits color →
      Reads ('#' :: digits) (.ok color)
  | named {name : List Char} {entry : String} {color : Color} : name ≠ [] →
      name.head? ≠ some '#' → (entry, color) ∈ named → folded entry.toList = folded name →
      Reads name (.ok color)
  | unknownName {name : List Char} : name ≠ [] → name.head? ≠ some '#' →
      (∀ entry ∈ named, folded entry.1.toList ≠ folded name) → Reads name (.error .unknownName)

theorem ofHex_reads (digits : List Char) : Reads ('#' :: digits) (ofHex digits) := by
  cases hvalues : digits.mapM digit? with
  | none =>
    have h := ofHex_of_none hvalues
    rw [h]
    exact .invalidHex (ofHex_eq_invalidHex_iff.1 h)
  | some values =>
    have h := ofHex_of_some hvalues
    cases hcolor : ofDigits? values with
    | none =>
      rw [hcolor, Option.elim_none] at h
      obtain ⟨hall, hlength⟩ := ofHex_eq_invalidLength_iff.1 h
      rw [h]
      exact .invalidLength hall hlength
    | some color =>
      rw [hcolor, Option.elim_some] at h
      rw [h]
      exact .digits (ofHex_eq_ok_iff.1 h)

theorem parse_of_name {s : String} {name : List Char} (h : Text.trimmed s.toList = name)
    (hne : name ≠ []) (hhash : name.head? ≠ some '#') :
    parse s = (named? (String.ofList name)).elim (.error .unknownName) .ok := by
  subst h
  unfold parse
  split
  · next h => exact absurd h hne
  · next h => exact absurd (by rw [h]; rfl) hhash
  · cases named? (String.ofList (Text.trimmed s.toList)) <;> rfl

/-- **The outcome of `parse`** is the one the language gives the literal. -/
theorem parse_reads (s : String) : Reads (Text.trimmed s.toList) (parse s) := by
  cases h : Text.trimmed s.toList with
  | nil =>
    rw [parse, h]
    exact .empty
  | cons c cs =>
    by_cases hhash : c = '#'
    · rw [parse, h, hhash]
      exact ofHex_reads cs
    · have hhead : (c :: cs).head? ≠ some '#' := by simpa using hhash
      rw [parse_of_name h (List.cons_ne_nil c cs) hhead]
      cases hcolor : named? (String.ofList (c :: cs)) with
      | none => exact .unknownName (List.cons_ne_nil c cs) hhead (named?_eq_none_iff.1 hcolor)
      | some color =>
        obtain ⟨entry, hmem, hname⟩ := named?_eq_some_iff.1 hcolor
        exact .named (List.cons_ne_nil c cs) hhead hmem hname

/-- **The language gives a literal no other outcome** than that of `parse`. -/
theorem Reads.parse_eq {s : String} {result : Except ParseError Color}
    (h : Reads (Text.trimmed s.toList) result) : parse s = result := by
  generalize hcs : Text.trimmed s.toList = cs at h
  cases h with
  | empty => rw [parse, hcs]
  | invalidHex h =>
    rw [parse, hcs]
    exact ofHex_eq_invalidHex_iff.2 h
  | invalidLength hall hlength =>
    rw [parse, hcs]
    exact ofHex_eq_invalidLength_iff.2 ⟨hall, hlength⟩
  | digits h =>
    rw [parse, hcs]
    exact ofHex_eq_ok_iff.2 h
  | named hne hhash hmem hname =>
    rw [parse_of_name hcs hne hhash, named?_eq_some_iff.2 ⟨_, hmem, hname⟩, Option.elim_some]
  | unknownName hne hhash h =>
    rw [parse_of_name hcs hne hhash, named?_eq_none_iff.2 h, Option.elim_none]

end Color

/-! ## Brush literals -/

theorem SystemColor.ofName?_eq_some_iff {name : String} {entry : SystemColor} :
    ofName? name = some entry ↔ entry.name = name := by
  constructor
  · exact fun h => (of_find?_key h).2
  · rintro rfl
    exact ofName?_name entry

namespace Brush

/-- The text of a brush literal without the white space at its ends, and the outcome of `parse`. -/
inductive Reads : List Char → Except ParseError Brush → Prop
  | system (entry : SystemColor) :
      Reads (SystemColor.marker.toList ++ entry.name.toList) (.ok (.system entry))
  | unknownReference {name : List Char} : (∀ entry : SystemColor, entry.name.toList ≠ name) →
      Reads (SystemColor.marker.toList ++ name)
        (.error (.unknownReference (String.ofList (SystemColor.marker.toList ++ name))))
  | fixed {cs : List Char} {color : Color} : ¬ SystemColor.marker.toList <+: cs →
      Color.Reads cs (.ok color) → Reads cs (.ok (.fixed color))
  | color {cs : List Char} {reason : Color.ParseError} : ¬ SystemColor.marker.toList <+: cs →
      Color.Reads cs (.error reason) → Reads cs (.error (.color reason))

theorem behind?_eq_some_iff {lead cs rest : List Char} :
    behind? lead cs = some rest ↔ cs = lead ++ rest := by
  constructor
  · intro h
    fun_induction behind? lead cs with
    | case1 cs => rw [← Option.some.inj h, List.nil_append]
    | case2 => cases h
    | case3 p ps cs ih => rw [ih h, List.cons_append]
    | case4 => cases h
  · rintro rfl
    exact behind?_append lead rest

theorem behind?_eq_none_iff {lead cs : List Char} :
    behind? lead cs = none ↔ ¬ lead <+: cs := by
  simp only [Option.eq_none_iff_forall_ne_some, ne_eq, behind?_eq_some_iff, List.IsPrefix,
    not_exists, eq_comm (a := cs)]

theorem parse_of_marker {s : String} {name : List Char}
    (h : Text.trimmed s.toList = SystemColor.marker.toList ++ name) :
    parse s = (SystemColor.ofName? (String.ofList name)).elim
      (.error (.unknownReference (String.ofList (SystemColor.marker.toList ++ name))))
      (fun entry => .ok (.system entry)) := by
  rw [parse, h, behind?_append, Text.trim, h]
  cases hentry : SystemColor.ofName? (String.ofList name) <;> simp [hentry]

theorem parse_of_unmarked {s : String}
    (h : ¬ SystemColor.marker.toList <+: Text.trimmed s.toList) :
    parse s = ((Color.parse s).mapError .color).map .fixed := by
  rw [parse, behind?_eq_none_iff.2 h]
  cases Color.parse s <;> rfl

theorem parse_reads (s : String) : Reads (Text.trimmed s.toList) (parse s) := by
  by_cases hprefix : SystemColor.marker.toList <+: Text.trimmed s.toList
  · obtain ⟨name, h⟩ := hprefix
    rw [parse_of_marker h.symm, ← h]
    cases hentry : SystemColor.ofName? (String.ofList name) with
    | none =>
      -- the name of an entry would have been found
      refine .unknownReference fun entry hname => ?_
      rw [SystemColor.ofName?_eq_some_iff.2 (by rw [← hname, String.ofList_toList])] at hentry
      cases hentry
    | some entry =>
      have hname : entry.name.toList = name := by
        rw [SystemColor.ofName?_eq_some_iff.1 hentry, String.toList_ofList]
      rw [← hname]
      exact .system entry
  · rw [parse_of_unmarked hprefix]
    have hreads := Color.parse_reads s
    cases h : Color.parse s with
    | ok color => exact .fixed hprefix (h ▸ hreads)
    | error reason => exact .color hprefix (h ▸ hreads)

theorem Reads.parse_eq {s : String} {result : Except ParseError Brush}
    (h : Reads (Text.trimmed s.toList) result) : parse s = result := by
  generalize hcs : Text.trimmed s.toList = cs at h
  cases h with
  | system entry =>
    rw [parse_of_marker hcs, String.ofList_toList, SystemColor.ofName?_name, Option.elim_some]
  | @unknownReference name hname =>
    rw [parse_of_marker hcs]
    cases hentry : SystemColor.ofName? (String.ofList name) with
    | none => rfl
    | some entry =>
      have hspelled : entry.name.toList = name := by
        rw [SystemColor.ofName?_eq_some_iff.1 hentry, String.toList_ofList]
      exact absurd hspelled (hname entry)
  | fixed hprefix h =>
    subst hcs
    rw [parse_of_unmarked hprefix, h.parse_eq]
    rfl
  | color hprefix h =>
    subst hcs
    rw [parse_of_unmarked hprefix, h.parse_eq]
    rfl

/-- **Brush literals.** Every text has the one outcome that the language gives it, what a brush is
written as has that brush, and the digits of a colour can be read in place: the same colours and
refusals, with no range off the boundaries of the characters and no product too large for a
byte. -/
theorem parse_grammar :
    (∀ s result, parse s = result ↔ Reads (Text.trimmed s.toList) result) ∧
    (∀ brush : Brush, parse brush.text = .ok brush) ∧
    ∀ digits, Color.InPlace.read digits = (Color.ofHex digits).mapError .refused :=
  ⟨fun s _ => ⟨fun h => h ▸ parse_reads s, Reads.parse_eq⟩, isLiteral.reads,
    Color.InPlace.read_eq⟩

end Brush

end Livery
