import Livery.Font.Word
import Mathlib.Data.Nat.Digits.Defs
import Mathlib.Tactic.Ring

/-!
# The language of font weights

* `Text.Decimal.IsNumeral`: the numerals and their values; `FontWeight.Reads`: every text with the
  outcome of reading it.
* `FontWeight.IsBest.nearer`, `FontWeight.IsBest.scan`: one step of the search for the nearest
  weight, and the whole of it.
* `FontWeight.IsNearest.mono`: a greater number is not nearest to a lighter weight.
* `FontWeight.Word.parse_eq`: with the number in a word of sixteen bits, nothing changes.
* `FontWeight.parse_language`: the reader of weights decides the language.
-/

namespace Livery

theorem Markup.length_le_utf8Length (cs : List Char) : cs.length ≤ utf8Length cs := by
  induction cs with
  | nil => exact le_rfl
  | cons c cs ih =>
    have := c.utf8Size_pos
    rw [utf8Length, List.foldr_cons, ← utf8Length, List.length_cons]
    omega

/-! ## Numerals -/

namespace Text.Decimal

/-- The number that the decimal digits `ds` write. -/
def number (ds : List Char) : Nat := Nat.ofDigits 10 (ds.map fun c => c.toNat - '0'.toNat).reverse

/-- A numeral of a number: one or more digits, behind at most one `+`. -/
def IsNumeral (cs : List Char) (n : Nat) : Prop :=
  ∃ ds, ds ≠ [] ∧ (∀ c ∈ ds, c.isDigit = true) ∧ (cs = ds ∨ cs = '+' :: ds) ∧ n = number ds

theorem digit?_eq_some_iff {c : Char} {d : Nat} :
    digit? c = some d ↔ c.isDigit = true ∧ d = c.toNat - '0'.toNat := by
  rw [digit?, Char.isDigit_iff_toNat]
  have hzero : '0'.toNat = 0x30 := rfl
  have hnine : '9'.toNat = 0x39 := rfl
  split_ifs with h
  · simp [hzero, hnine, h, eq_comm]
  · simp [hzero, hnine, h]

theorem digit?_le {c : Char} {d : Nat} (h : digit? c = some d) : d ≤ 9 := by
  unfold digit? at h
  split_ifs at h
  obtain rfl := Option.some.inj h
  omega

theorem number_cons (c : Char) (ds : List Char) :
    number (c :: ds) = (c.toNat - '0'.toNat) * 10 ^ ds.length + number ds := by
  rw [number, List.map_cons, List.reverse_cons, Nat.ofDigits_append, Nat.ofDigits_singleton,
    List.length_reverse, List.length_map, number]
  ring

theorem number_lt {ds : List Char} (h : ∀ c ∈ ds, c.isDigit = true) :
    number ds < 10 ^ ds.length := by
  have hlt := Nat.ofDigits_lt_base_pow_length (b := 10)
    (l := (ds.map fun c => c.toNat - '0'.toNat).reverse) (by decide) fun d hd => by
      obtain ⟨c, hc, rfl⟩ := List.mem_map.1 (List.mem_reverse.1 hd)
      have hle : c.toNat ≤ 57 := (Char.isDigit_iff_toNat.1 (h c hc)).2
      have hzero : '0'.toNat = 48 := rfl
      omega
  rwa [List.length_reverse, List.length_map] at hlt

/-- **Digits behind a number** go on with it: `valueFrom?` begins with `n`. -/
theorem valueFrom?_eq_some_iff {n m : Nat} {cs : List Char} : valueFrom? n cs = some m ↔
    (∀ c ∈ cs, c.isDigit = true) ∧ m = n * 10 ^ cs.length + number cs := by
  induction cs generalizing n with
  | nil => simpa [valueFrom?, number] using eq_comm
  | cons c cs ih =>
    simp only [valueFrom?, Option.bind_eq_some_iff, digit?_eq_some_iff, ih, List.forall_mem_cons,
      number_cons, List.length_cons]
    constructor
    · rintro ⟨d, ⟨hc, rfl⟩, hcs, rfl⟩
      exact ⟨⟨hc, hcs⟩, by ring⟩
    · rintro ⟨⟨hc, hcs⟩, rfl⟩
      exact ⟨_, ⟨hc, rfl⟩, hcs, by ring⟩

theorem unsigned?_eq_some_iff {cs : List Char} {n : Nat} :
    unsigned? cs = some n ↔ cs ≠ [] ∧ (∀ c ∈ cs, c.isDigit = true) ∧ n = number cs := by
  cases cs with
  | nil => simp [unsigned?]
  | cons c cs => simp [unsigned?, valueFrom?_eq_some_iff]

/-- **What `read?` reads are the numerals.** -/
theorem read?_eq_some_iff {cs : List Char} {n : Nat} : read? cs = some n ↔ IsNumeral cs n := by
  unfold read?
  split
  · next cs =>
    rw [unsigned?_eq_some_iff]
    constructor
    · rintro ⟨hne, hall, rfl⟩
      exact ⟨cs, hne, hall, .inr rfl, rfl⟩
    · rintro ⟨ds, hne, hall, rfl | hcs, rfl⟩
      · -- a plus is no digit
        exact absurd (hall '+' List.mem_cons_self) (by decide)
      · obtain rfl := (List.cons.inj hcs).2
        exact ⟨hne, hall, rfl⟩
  · next hplus =>
    rw [unsigned?_eq_some_iff]
    constructor
    · rintro ⟨hne, hall, rfl⟩
      exact ⟨cs, hne, hall, .inl rfl, rfl⟩
    · rintro ⟨ds, hne, hall, rfl | rfl, rfl⟩
      · exact ⟨hne, hall, rfl⟩
      · exact absurd rfl (hplus ds)

theorem read?_eq_none_iff {cs : List Char} : read? cs = none ↔ ∀ n, ¬ IsNumeral cs n := by
  simp only [Option.eq_none_iff_forall_ne_some, ne_eq, read?_eq_some_iff]

theorem IsNumeral.unique {cs : List Char} {m n : Nat} (hm : IsNumeral cs m) (hn : IsNumeral cs n) :
    m = n :=
  Option.some.inj ((read?_eq_some_iff.2 hm).symm.trans (read?_eq_some_iff.2 hn))

end Text.Decimal

namespace FontWeight

open Text.Decimal (IsNumeral)

/-! ## Names -/

/-- The names of a weight beside its `FontWeight.name`. -/
def aliases : FontWeight → List String
  | .extraLight => ["ultralight"]
  | .normal => ["regular"]
  | .semiBold => ["demibold"]
  | .extraBold => ["ultrabold"]
  | .black => ["heavy"]
  | .extraBlack => ["ultrablack"]
  | _ => []

/-- The text `text` is the name of `weight` in lower case, or one of its `aliases`. -/
def IsCalled (weight : FontWeight) (text : String) : Prop :=
  text = Text.lower weight.name ∨ text ∈ weight.aliases

instance (weight : FontWeight) (text : String) : Decidable (weight.IsCalled text) :=
  inferInstanceAs (Decidable (_ ∨ _))

theorem mem_all (weight : FontWeight) : weight ∈ all := by
  cases weight <;> decide

/-- The `keywords` are found under which a weight is called. -/
theorem lookup_keywords_eq_some_iff {text : String} {weight : FontWeight} :
    keywords.lookup text = some weight ↔ weight.IsCalled text := by
  constructor
  · intro h
    have hall : ∀ p ∈ keywords, p.2.IsCalled p.1 := by decide
    obtain ⟨before, after, hkeywords, -⟩ := List.lookup_eq_some_iff.1 h
    exact hall (text, weight) (by simp [hkeywords])
  · have hname : ∀ w ∈ all, keywords.lookup (Text.lower w.name) = some w := by decide
    have haliases : ∀ w ∈ all, ∀ a ∈ w.aliases, keywords.lookup a = some w := by decide
    rintro (rfl | h)
    · exact hname weight weight.mem_all
    · exact haliases weight weight.mem_all text h

theorem lookup_keywords_eq_none_iff {text : String} :
    keywords.lookup text = none ↔ ∀ weight : FontWeight, ¬ weight.IsCalled text := by
  simp only [Option.eq_none_iff_forall_ne_some, ne_eq, lookup_keywords_eq_some_iff]

/-- No name of a weight is a numeral. -/
theorem IsCalled.not_isNumeral {weight : FontWeight} {text : String} (h : weight.IsCalled text)
    (n : Nat) : ¬ IsNumeral text.toList n := by
  have hall : ∀ p ∈ keywords, Text.Decimal.read? p.1.toList = none := by decide
  obtain ⟨before, after, hkeywords, -⟩ :=
    List.lookup_eq_some_iff.1 (lookup_keywords_eq_some_iff.2 h)
  exact Text.Decimal.read?_eq_none_iff.1 (hall (text, weight) (by simp [hkeywords])) n

/-! ## The nearest weight -/

/-- How far the value of `weight` is from `n`. -/
def gap (n : Nat) (weight : FontWeight) : Nat := ((weight.value : Int) - n).natAbs

/-- No weight is nearer to `n`, and none that is as near is lighter. -/
structure IsNearest (n : Nat) (weight : FontWeight) : Prop where
  near : ∀ w : FontWeight, weight.gap n ≤ w.gap n
  light : ∀ w : FontWeight, w.gap n = weight.gap n → weight.value ≤ w.value

theorem distance_eq (n : Nat) (weight : FontWeight) : distance weight.value n = weight.gap n := by
  unfold distance gap
  omega

/-- The best of the weights `seen` for `n`: none of them is nearer, and none that is as near is
lighter. -/
structure IsBest (n : Nat) (seen : List FontWeight) (best : FontWeight) : Prop where
  mem : best ∈ seen
  near : ∀ w ∈ seen, best.gap n ≤ w.gap n
  light : ∀ w ∈ seen, w.gap n = best.gap n → best.value ≤ w.value

namespace IsBest

variable {n : Nat} {seen : List FontWeight} {best : FontWeight}

/-- **One weight more**, which is not lighter than the `best` so far. -/
theorem nearer (h : IsBest n seen best) {w : FontWeight} (hw : best.value ≤ w.value) :
    IsBest n (seen ++ [w]) (nearer n best w) := by
  rw [FontWeight.nearer, distance_eq, distance_eq]
  split_ifs with hcloser
  · refine ⟨by simp, ?_, ?_⟩
    · simp only [List.forall_mem_append, List.forall_mem_singleton, le_refl, and_true]
      exact fun v hv => hcloser.le.trans (h.near v hv)
    · simp only [List.forall_mem_append, List.forall_mem_singleton, le_refl, implies_true, and_true]
      -- all that were passed are farther away
      exact fun v hv heq => absurd (h.near v hv) (by omega)
  · refine ⟨by simp [h.mem], ?_, ?_⟩
    · simp only [List.forall_mem_append, List.forall_mem_singleton]
      exact ⟨h.near, not_lt.1 hcloser⟩
    · simp only [List.forall_mem_append, List.forall_mem_singleton]
      exact ⟨h.light, fun _ => hw⟩

/-- **Any number of weights `ws` more**, where all of them ascend. -/
theorem scan (h : IsBest n seen best) {ws : List FontWeight}
    (hascending : (seen ++ ws).Pairwise (·.value ≤ ·.value)) :
    IsBest n (seen ++ ws) (ws.foldl (FontWeight.nearer n) best) := by
  induction ws generalizing seen best with
  | nil => simpa using h
  | cons w ws ih =>
    have hw : best.value ≤ w.value :=
      (List.pairwise_append.1 hascending).2.2 best h.mem w List.mem_cons_self
    rw [List.append_cons] at hascending ⊢
    exact ih (h.nearer hw) hascending

end IsBest

theorem isNearest_nearest (n : Nat) : IsNearest n (nearest n) := by
  have hthin : IsBest n [thin] thin := ⟨by simp, by simp, by simp⟩
  have hbest : IsBest n ([thin] ++ all) (nearest n) := hthin.scan (by decide)
  exact ⟨fun w => hbest.near w (List.mem_append_right _ w.mem_all),
    fun w => hbest.light w (List.mem_append_right _ w.mem_all)⟩

namespace IsNearest

variable {m n : Nat} {v w : FontWeight}

/-- **A greater number is not nearest to a lighter weight.** -/
theorem mono (hv : IsNearest m v) (hw : IsNearest n w) (h : m ≤ n) : v.value ≤ w.value := by
  by_contra hlt
  -- the smaller number would be above the middle between the weights, and the greater one not
  have hvw := hv.near w
  have hne : w.gap m ≠ v.gap m := fun heq => hlt (hv.light w heq)
  have hwv := hw.near v
  unfold gap at hvw hne hwv
  omega

theorem unique (hv : IsNearest n v) (hw : IsNearest n w) : v = w := by
  have hvalue : v.value = w.value := le_antisymm (hv.mono hw le_rfl) (hw.mono hv le_rfl)
  have hall : ∀ v ∈ all, ∀ w ∈ all, v.value = w.value → v = w := by decide
  exact hall v v.mem_all w w.mem_all hvalue

end IsNearest

theorem isNearest_iff {n : Nat} {weight : FontWeight} : IsNearest n weight ↔ nearest n = weight :=
  ⟨(isNearest_nearest n).unique, fun h => h ▸ isNearest_nearest n⟩

/-! ## Weights -/

/-- A text without the white space at its ends, and the outcome of `parse`. -/
inductive Reads : String → Except StyleError FontWeight → Prop
  | name {t : String} {weight : FontWeight} : weight.IsCalled (Text.lower t) → Reads t (.ok weight)
  | number {t : String} {n : Nat} {weight : FontWeight} : IsNumeral (Text.lower t).toList n →
      1 ≤ n → n ≤ 999 → IsNearest n weight → Reads t (.ok weight)
  | refused {t : String} : (∀ weight : FontWeight, ¬ weight.IsCalled (Text.lower t)) →
      (∀ n, IsNumeral (Text.lower t).toList n → ¬ (1 ≤ n ∧ n ≤ 999)) →
      Reads t (.error (.fontWeight t))

/-- **The outcome of reading** is the one the language gives the text. -/
theorem parse_reads (s : String) : Reads (Text.trim s) (parse s) := by
  simp only [parse]
  cases hname : keywords.lookup (Text.lower (Text.trim s)) with
  | some weight => exact .name (lookup_keywords_eq_some_iff.1 hname)
  | none =>
    have hnone := lookup_keywords_eq_none_iff.1 hname
    cases hnumber : Text.Decimal.read? (Text.lower (Text.trim s)).toList with
    | none =>
      exact .refused hnone fun n hn => absurd hn (Text.Decimal.read?_eq_none_iff.1 hnumber n)
    | some n =>
      have hn := Text.Decimal.read?_eq_some_iff.1 hnumber
      show Reads _ (if 1 ≤ n ∧ n ≤ 999 then _ else _)
      split_ifs with hrange
      · exact .number hn hrange.1 hrange.2 (isNearest_nearest n)
      · exact .refused hnone fun m hm => hn.unique hm ▸ hrange

/-- **The language gives a text no other outcome.** -/
theorem Reads.parse_eq {s : String} {result : Except StyleError FontWeight}
    (h : Reads (Text.trim s) result) : parse s = result := by
  generalize ht : Text.trim s = t at h
  simp only [parse, ht]
  cases h with
  | name hcalled => rw [lookup_keywords_eq_some_iff.2 hcalled]
  | @number n weight hn hmin hmax hnear =>
    have hnone : keywords.lookup (Text.lower t) = none :=
      lookup_keywords_eq_none_iff.2 fun w hw => hw.not_isNumeral n hn
    simp only [hnone, Text.Decimal.read?_eq_some_iff.2 hn]
    rw [if_pos ⟨hmin, hmax⟩, isNearest_iff.1 hnear]
  | refused hnone hrange =>
    simp only [lookup_keywords_eq_none_iff.2 hnone]
    cases hnumber : Text.Decimal.read? (Text.lower t).toList with
    | none => rfl
    | some n => exact if_neg (hrange n (Text.Decimal.read?_eq_some_iff.1 hnumber))

/-- A numeral is read as a weight nearest to its number. -/
theorem isNearest_of_parse {s : String} {n : Nat} {weight : FontWeight}
    (hn : IsNumeral (Text.lower (Text.trim s)).toList n) (h : parse s = .ok weight) :
    IsNearest n weight := by
  have hreads := parse_reads s
  rw [h] at hreads
  cases hreads with
  | name hcalled => exact absurd hn (hcalled.not_isNumeral n)
  | number hm _ _ hnear => exact hm.unique hn ▸ hnear

/-! ## Words -/

namespace Word

/-- The word of `n`, if it fits. -/
def fits? (n : Nat) : Option UInt16 := if n < UInt16.size then some (UInt16.ofNat n) else none

theorem fits?_toNat (w : UInt16) : fits? w.toNat = some w := by
  rw [fits?, if_pos w.toNat_lt, UInt16.ofNat_toNat]

theorem mul?_eq (a b : UInt16) : mul? a b = fits? (a.toNat * b.toNat) := by
  rw [mul?, fits?, UInt16.ofNat_mul, UInt16.ofNat_toNat, UInt16.ofNat_toNat]

theorem add?_eq (a b : UInt16) : add? a b = fits? (a.toNat + b.toNat) := by
  rw [add?, fits?, UInt16.ofNat_add, UInt16.ofNat_toNat, UInt16.ofNat_toNat]

theorem toNat_of_fits? {n : Nat} {w : UInt16} (h : fits? n = some w) : w.toNat = n := by
  unfold fits? at h
  split_ifs at h with hlt
  rw [← Option.some.inj h, UInt16.toNat_ofNat_of_lt' hlt]

theorem le_of_fits?_eq_none {n : Nat} (h : fits? n = none) : UInt16.size ≤ n := by
  unfold fits? at h
  split_ifs at h with hlt
  exact not_lt.1 hlt

/-- **What is unchecked wraps around**: `wrapped?` gives the number as a word. -/
theorem wrapped?_eq (n : Nat) (cs : List Char) :
    wrapped? (UInt16.ofNat n) cs = (Text.Decimal.valueFrom? n cs).map UInt16.ofNat := by
  induction cs generalizing n with
  | nil => rfl
  | cons c cs ih =>
    rw [wrapped?, digit?, Text.Decimal.valueFrom?]
    cases Text.Decimal.digit? c with
    | none => rfl
    | some d =>
      have hstep : UInt16.ofNat n * 10 + UInt16.ofNat d = UInt16.ofNat (n * 10 + d) := by
        rw [UInt16.ofNat_add, UInt16.ofNat_mul]
        rfl
      simp only [Option.map_some, Option.bind_some, hstep, ih]

/-- Digits behind a number that does not fit have no word. -/
theorem bind_fits?_of_le {n : Nat} (h : UInt16.size ≤ n) (cs : List Char) :
    (Text.Decimal.valueFrom? n cs).bind fits? = none := by
  rw [Option.bind_eq_none_iff]
  intro m hm
  rw [Text.Decimal.valueFrom?_eq_some_iff] at hm
  have hle : n ≤ m := by
    rw [hm.2]
    exact (Nat.le_mul_of_pos_right n (by positivity)).trans (Nat.le_add_right _ _)
  exact if_neg (by omega)

/-- One digit `d` more, if it fits. -/
theorem step_eq {n : UInt16} {d : Nat} (hd : d ≤ 9) :
    (mul? n 10).bind (add? · (UInt16.ofNat d)) = fits? (n.toNat * 10 + d) := by
  have hdigit : (UInt16.ofNat d).toNat = d :=
    UInt16.toNat_ofNat_of_lt' (lt_of_le_of_lt hd (by decide))
  have hmul : mul? n 10 = fits? (n.toNat * 10) := mul?_eq n 10
  rw [hmul]
  by_cases h : n.toNat * 10 < UInt16.size
  · have htens : fits? (n.toNat * 10) = some (UInt16.ofNat (n.toNat * 10)) := if_pos h
    rw [htens, Option.bind_some, add?_eq, toNat_of_fits? htens, hdigit]
  · -- the product is too large, and so is the sum
    rw [fits?, fits?, if_neg h, if_neg (by omega), Option.bind_none]

/-- **What is checked has the value of the digits**, if `fits?` has a word for that. -/
theorem checked?_eq (n : UInt16) (cs : List Char) :
    checked? n cs = (Text.Decimal.valueFrom? n.toNat cs).bind fits? := by
  induction cs generalizing n with
  | nil => exact (fits?_toNat n).symm
  | cons c cs ih =>
    rw [checked?, digit?, Text.Decimal.valueFrom?]
    cases hdigit : Text.Decimal.digit? c with
    | none => rfl
    | some d =>
      have hstep := step_eq (n := n) (Text.Decimal.digit?_le hdigit)
      simp only [Option.map_some, Option.bind_some, ← Option.bind_assoc, hstep]
      cases hnext : fits? (n.toNat * 10 + d) with
      | some next => rw [Option.bind_some, ih, toNat_of_fits? hnext]
      | none =>
        rw [Option.bind_none, bind_fits?_of_le (le_of_fits?_eq_none hnext)]

/-- **No numeral of up to four bytes is too large**, so that `wrapped?` loses nothing by not
checking. -/
theorem wrapped?_of_short {cs : List Char} (h : Markup.utf8Length cs ≤ 4) :
    wrapped? 0 cs = (Text.Decimal.valueFrom? 0 cs).bind fits? := by
  have hwrapped : wrapped? 0 cs = (Text.Decimal.valueFrom? 0 cs).map UInt16.ofNat :=
    wrapped?_eq 0 cs
  rw [hwrapped]
  cases hvalue : Text.Decimal.valueFrom? 0 cs with
  | none => rfl
  | some m =>
    obtain ⟨hall, hm⟩ := Text.Decimal.valueFrom?_eq_some_iff.1 hvalue
    have hlength : cs.length ≤ 4 := (Markup.length_le_utf8Length cs).trans h
    have hlt : m < 10 ^ 4 := by
      rw [hm, Nat.zero_mul, Nat.zero_add]
      exact (Text.Decimal.number_lt hall).trans_le (Nat.pow_le_pow_right (by decide) hlength)
    have hfits : fits? m = some (UInt16.ofNat m) := if_pos (hlt.trans (by decide))
    rw [Option.map_some, Option.bind_some, hfits]

theorem unsigned?_eq (cs : List Char) : unsigned? cs = (Text.Decimal.unsigned? cs).bind fits? := by
  cases cs with
  | nil => rfl
  | cons c cs =>
    have hdigits : Text.Decimal.unsigned? (c :: cs) = Text.Decimal.valueFrom? 0 (c :: cs) := rfl
    have hword : unsigned? (c :: cs) = if Markup.utf8Length (c :: cs) ≤ 4 then
        wrapped? 0 (c :: cs) else checked? 0 (c :: cs) := rfl
    rw [hdigits, hword]
    split_ifs with hshort
    · exact wrapped?_of_short hshort
    · exact checked?_eq 0 (c :: cs)

theorem read?_eq (cs : List Char) : read? cs = (Text.Decimal.read? cs).bind fits? := by
  by_cases hplus : ∃ ds, cs = '+' :: ds
  · obtain ⟨ds, rfl⟩ := hplus
    exact unsigned?_eq ds
  · have hword : read? cs = unsigned? cs := by
      unfold read?
      split
      · exact absurd ⟨_, rfl⟩ hplus
      · rfl
    have hnumber : Text.Decimal.read? cs = Text.Decimal.unsigned? cs := by
      unfold Text.Decimal.read?
      split
      · exact absurd ⟨_, rfl⟩ hplus
      · rfl
    rw [hword, hnumber, unsigned?_eq]

theorem toNat_value (weight : FontWeight) : (value weight).toNat = weight.value := by
  cases weight <;> rfl

theorem toNat_distance (a b : UInt16) :
    (distance a b).toNat = FontWeight.distance a.toNat b.toNat := by
  unfold distance FontWeight.distance
  split_ifs with h
  · rw [UInt16.toNat_sub_of_le _ _ (UInt16.le_of_lt h)]
    have := UInt16.lt_iff_toNat_lt.1 h
    omega
  · have hle := UInt16.not_lt.1 h
    rw [UInt16.toNat_sub_of_le _ _ hle]
    have := UInt16.le_iff_toNat_le.1 hle
    omega

/-- **The scan over words** is the scan over numbers. -/
theorem nearest_eq (n : UInt16) : nearest n = FontWeight.nearest n.toNat := by
  have hnearer : nearer n = FontWeight.nearer n.toNat := by
    funext best candidate
    simp only [nearer, FontWeight.nearer, UInt16.lt_iff_toNat_lt, toNat_distance, toNat_value]
  rw [nearest, FontWeight.nearest, hnearer]

/-- **Weights are read in words as they are in numbers.** -/
theorem parse_eq (s : String) : parse s = FontWeight.parse s := by
  simp only [parse, FontWeight.parse, read?_eq]
  cases keywords.lookup (Text.lower (Text.trim s)) with
  | some weight => rfl
  | none =>
    cases hnumber : Text.Decimal.read? (Text.lower (Text.trim s)).toList with
    | none => rfl
    | some n =>
      simp only [Option.bind_some]
      cases hfits : fits? n with
      | none =>
        -- what does not fit is no class, either
        have hlarge : UInt16.size ≤ n := le_of_fits?_eq_none hfits
        have hrange : ¬ (1 ≤ n ∧ n ≤ 999) := fun h => absurd (hlarge.trans h.2) (by decide)
        rw [if_neg hrange]
      | some w =>
        have hw := toNat_of_fits? hfits
        have hrange : (1 ≤ w ∧ w ≤ 999) ↔ 1 ≤ n ∧ n ≤ 999 := by
          rw [← hw, UInt16.le_iff_toNat_le, UInt16.le_iff_toNat_le]
          rfl
        simp only [hrange, nearest_eq, hw]

end Word

/-- **Font weights.** Every text has the one outcome that the language gives it: the weight that is
called so, or the one nearest to the number from 1 to 999 whose numeral it is, of two the lighter
one, or else a refusal with the text as it was written. A greater number has no lighter weight. In a
word of sixteen bits, numerals of any length are read alike: nothing that counts wraps around. -/
theorem parse_language :
    (∀ s result, parse s = result ↔ Reads (Text.trim s) result) ∧
    (∀ s t m n v w, IsNumeral (Text.lower (Text.trim s)).toList m →
      IsNumeral (Text.lower (Text.trim t)).toList n → m ≤ n →
      parse s = .ok v → parse t = .ok w → v.value ≤ w.value) ∧
    ∀ s, Word.parse s = parse s := by
  refine ⟨fun s result => ⟨fun h => h ▸ parse_reads s, Reads.parse_eq⟩, ?_, Word.parse_eq⟩
  intro s t m n v w hm hn hle hv hw
  exact (isNearest_of_parse hm hv).mono (isNearest_of_parse hn hw) hle

/-- A number as far from one weight as from another, and one that would wrap around to a class. -/
example : parse " +000000925 " = .ok .black ∧ parse "65636" = .error (.fontWeight "65636") := by
  decide +kernel

end FontWeight

end Livery
