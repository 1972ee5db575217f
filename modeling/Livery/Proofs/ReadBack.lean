import Livery.Markup.Entity
import Livery.Proofs.Scanning

/-!
# Characters read back

* `Text.Utf8.decode?_encode`: a text is read from its bytes as it was.
* `Markup.unescape_escape`: so is a text from its escaped form, which has no quotes.
-/

namespace Livery

namespace Text.Utf8

/-! ## Bytes -/

theorem toNat_ofNat {n : Nat} (h : n < 256) : (UInt8.ofNat n).toNat = n := by
  rw [UInt8.toNat_ofNat']
  exact Nat.mod_eq_of_lt h

section Pending

variable {low high bits taken n : Nat} (h : low ≤ n ∧ n ≤ high) (hn : n < 256) (rest : Bytes)
include h hn

/-- A byte in the range that is owed is taken into the character. -/
theorem segmentsFrom_owed (k : Nat) :
    segmentsFrom (some ⟨k + 2, low, high, bits, taken⟩) (UInt8.ofNat n :: rest) =
      segmentsFrom (some ⟨k + 1, 0x80, 0xBF, bits * 64 + (n - 0x80), taken + 1⟩) rest := by
  rw [segmentsFrom, step]
  simp only [toNat_ofNat hn]
  rw [if_pos h]
  rfl

/-- The last byte that is owed completes the character. -/
theorem segmentsFrom_last :
    segmentsFrom (some ⟨1, low, high, bits, taken⟩) (UInt8.ofNat n :: rest) =
      .char (Char.ofNat (bits * 64 + (n - 0x80))) :: segmentsFrom none rest := by
  rw [segmentsFrom, step]
  simp only [toNat_ofNat hn]
  rw [if_pos h]
  rfl

end Pending

section Lead

variable {n : Nat} (rest : Bytes)

/-- The first byte `n` of a character of two. -/
theorem segmentsFrom_lead_two (h : 0xC2 ≤ n ∧ n < 0xE0) :
    segmentsFrom none (UInt8.ofNat n :: rest) =
      segmentsFrom (some ⟨1, 0x80, 0xBF, n - 0xC0, 1⟩) rest := by
  rw [segmentsFrom, step, lead]
  simp only [toNat_ofNat (show n < 256 by omega)]
  rw [if_neg (by omega), if_neg (by omega), if_pos h.2]
  rfl

/-- The first byte `n` of a character of three: the second one, `m`, is in range unless it would
make the character one of two, or a surrogate. -/
theorem segmentsFrom_lead_three (h : 0xE0 ≤ n ∧ n < 0xF0) {m : Nat} (hm : 0x80 ≤ m ∧ m ≤ 0xBF)
    (hlow : n = 0xE0 → 0xA0 ≤ m) (hhigh : n = 0xED → m ≤ 0x9F) :
    ∃ low high, (low ≤ m ∧ m ≤ high) ∧ segmentsFrom none (UInt8.ofNat n :: rest) =
      segmentsFrom (some ⟨2, low, high, n - 0xE0, 1⟩) rest := by
  rw [segmentsFrom, step, lead]
  simp only [toNat_ofNat (show n < 256 by omega)]
  rw [if_neg (by omega), if_neg (by omega), if_neg (by omega)]
  by_cases h0 : n = 0xE0
  · subst h0
    exact ⟨0xA0, 0xBF, ⟨hlow rfl, hm.2⟩, rfl⟩
  rw [if_neg h0]
  by_cases hD : n = 0xED
  · subst hD
    exact ⟨0x80, 0x9F, ⟨hm.1, hhigh rfl⟩, rfl⟩
  rw [if_neg hD, if_pos h.2]
  exact ⟨0x80, 0xBF, hm, rfl⟩

/-- The first byte `n` of a character of four: the second one, `m`, is in range unless it would make
the character one of three, or one beyond the last. -/
theorem segmentsFrom_lead_four (h : 0xF0 ≤ n ∧ n ≤ 0xF4) {m : Nat} (hm : 0x80 ≤ m ∧ m ≤ 0xBF)
    (hlow : n = 0xF0 → 0x90 ≤ m) (hhigh : n = 0xF4 → m ≤ 0x8F) :
    ∃ low high, (low ≤ m ∧ m ≤ high) ∧ segmentsFrom none (UInt8.ofNat n :: rest) =
      segmentsFrom (some ⟨3, low, high, n - 0xF0, 1⟩) rest := by
  rw [segmentsFrom, step, lead]
  simp only [toNat_ofNat (show n < 256 by omega)]
  rw [if_neg (by omega), if_neg (by omega), if_neg (by omega), if_neg (by omega),
    if_neg (by omega), if_neg (by omega)]
  by_cases h0 : n = 0xF0
  · subst h0
    exact ⟨0x90, 0xBF, ⟨hlow rfl, hm.2⟩, rfl⟩
  rw [if_neg h0]
  by_cases h4 : n < 0xF4
  · rw [if_pos h4]
    exact ⟨0x80, 0xBF, hm, rfl⟩
  obtain rfl : n = 0xF4 := by omega
  exact ⟨0x80, 0x8F, ⟨hm.1, hhigh rfl⟩, rfl⟩

end Lead

/-! ## Characters -/

theorem scalar (c : Char) : c.toNat < 0xD800 ∨ (0xDFFF < c.toNat ∧ c.toNat < 0x110000) := c.valid

theorem segmentsFrom_encodeChar (c : Char) (rest : Bytes) :
    segmentsFrom none (String.utf8EncodeChar c ++ rest) = .char c :: segmentsFrom none rest := by
  have hc := scalar c
  have hchar : Segment.char c = .char (Char.ofNat c.toNat) := by rw [Char.ofNat_toNat]
  rw [String.utf8EncodeChar, hchar]
  simp only [Char.toNat_val]
  generalize c.toNat = v at hc ⊢
  -- the number of bytes is a matter of the code point, and each byte holds six bits of it
  split
  · next h1 =>
    rw [List.singleton_append, segmentsFrom, step, lead]
    simp only [toNat_ofNat (show v < 256 by omega)]
    rw [if_pos (by omega)]
    rfl
  next h1 =>
  split
  · next h2 =>
    have hv : (v / 64 % 32 + 192 - 0xC0) * 64 + (v % 64 + 128 - 0x80) = v := by omega
    rw [List.cons_append, List.singleton_append, segmentsFrom_lead_two _ (by omega),
      segmentsFrom_last (by omega) (by omega), hv]
  next h2 =>
  split
  · next h3 =>
    obtain ⟨low, high, hsecond, hlead⟩ := segmentsFrom_lead_three
      (UInt8.ofNat (v / 64 % 64 + 128) :: UInt8.ofNat (v % 64 + 128) :: rest)
      (n := v / 4096 % 16 + 224) (m := v / 64 % 64 + 128) (by omega) (by omega) (by omega)
      (by omega)
    have hv : ((v / 4096 % 16 + 224 - 0xE0) * 64 + (v / 64 % 64 + 128 - 0x80)) * 64 +
        (v % 64 + 128 - 0x80) = v := by omega
    rw [List.cons_append, List.cons_append, List.singleton_append, hlead,
      segmentsFrom_owed hsecond (by omega), segmentsFrom_last (by omega) (by omega), hv]
  next h3 =>
  obtain ⟨low, high, hsecond, hlead⟩ := segmentsFrom_lead_four
    (UInt8.ofNat (v / 4096 % 64 + 128) :: UInt8.ofNat (v / 64 % 64 + 128) ::
      UInt8.ofNat (v % 64 + 128) :: rest)
    (n := v / 262144 % 8 + 240) (m := v / 4096 % 64 + 128) (by omega) (by omega) (by omega)
    (by omega)
  have hv : (((v / 262144 % 8 + 240 - 0xF0) * 64 + (v / 4096 % 64 + 128 - 0x80)) * 64 +
      (v / 64 % 64 + 128 - 0x80)) * 64 + (v % 64 + 128 - 0x80) = v := by omega
  rw [List.cons_append, List.cons_append, List.cons_append, List.singleton_append, hlead,
    segmentsFrom_owed hsecond (by omega), segmentsFrom_owed (by omega) (by omega),
    segmentsFrom_last (by omega) (by omega), hv]

/-- The segments of a text are its characters. -/
theorem segments_encode (s : String) : segments (encode s) = s.toList.map .char := by
  rw [segments, encode]
  induction s.toList with
  | nil => rfl
  | cons c cs ih => rw [List.flatMap_cons, segmentsFrom_encodeChar, ih, List.map_cons]

/-- **A text is read from its bytes as it was.** -/
theorem decode?_encode (s : String) : decode? (encode s) = some s := by
  have hchars : ∀ cs : List Char, (cs.map Segment.char).mapM Segment.char? = some cs := by
    intro cs
    induction cs with
    | nil => rfl
    | cons c cs ih => simp [List.mapM_cons, ih, Segment.char?]
  rw [decode?, segments_encode, hchars, Option.map_some, String.ofList_toList]

theorem decodeLossy_encode (s : String) : decodeLossy (encode s) = s := by
  rw [decodeLossy, segments_encode, List.map_map]
  exact (congrArg String.ofList s.toList.map_id).trans String.ofList_toList

/-- An ASCII byte `b` comes from the character that it is. -/
theorem eq_of_mem_encodeChar {c : Char} {b : UInt8} (hb : b.toNat < 0x80)
    (h : b ∈ String.utf8EncodeChar c) : c.toNat = b.toNat := by
  have hc := scalar c
  have hof : ∀ n, n < 256 → b = UInt8.ofNat n → b.toNat = n := by
    rintro n hn rfl
    exact toNat_ofNat hn
  rw [String.utf8EncodeChar] at h
  simp only [Char.toNat_val] at h
  generalize c.toNat = v at hc h ⊢
  split at h
  · exact (hof v (by omega) (List.mem_singleton.1 h)).symm
  next h1 =>
  -- all bytes of a longer character are beyond ASCII
  split at h
  · simp only [List.mem_cons, List.not_mem_nil, or_false] at h
    rcases h with h | h
    all_goals have := hof _ (by omega) h; omega
  next h2 =>
  split at h
  · simp only [List.mem_cons, List.not_mem_nil, or_false] at h
    rcases h with h | h | h
    all_goals have := hof _ (by omega) h; omega
  · simp only [List.mem_cons, List.not_mem_nil, or_false] at h
    rcases h with h | h | h | h
    all_goals have := hof _ (by omega) h; omega

end Text.Utf8

/-! ## References -/

namespace Markup

theorem unescapeFrom_plain {c : Char} (h : c ≠ '&') (offset : Nat) (cs : List Char) :
    unescapeFrom offset (c :: cs) = (unescapeFrom (offset + c.utf8Size) cs).map (c :: ·) := by
  rw [unescapeFrom, if_neg h]

/-- A reference by `name` is read as the character of that name. -/
theorem unescapeFrom_named (name : List Char) {c : Char}
    (hname : namedEntity? name = some c) (hall : name.all isEntityBody = true)
    (hnumber : name.head? ≠ some '#') (offset : Nat) (cs : List Char) :
    unescapeFrom offset ('&' :: (name ++ ';' :: cs)) =
      (unescapeFrom (offset + utf8Length name + 2) cs).map (c :: ·) := by
  have hbody : ∀ d ∈ name, isEntityBody d = true := List.all_eq_true.1 hall
  have hstop : ∀ d, (';' :: cs).head? = some d → isEntityBody d = false := by
    rintro d ⟨⟩
    rfl
  have hentity : entity offset name = .ok c := by
    unfold entity
    split
    · exact absurd rfl hnumber
    · rw [hname]
  rw [unescapeFrom, if_pos rfl]
  simp only [takeWhile_upTo hbody hstop]
  split
  · next rest h =>
    rw [dropWhile_upTo hbody hstop] at h
    obtain ⟨-, rfl⟩ := List.cons.inj h
    simp only [hentity]
  · next h => exact absurd (dropWhile_upTo hbody hstop) (h cs)

/-- What `escapedChar` writes for a character is read as that character, wherever it stands. -/
theorem unescapeFrom_escapedChar (c : Char) (offset : Nat) (cs : List Char) :
    ∃ next, unescapeFrom offset (escapedChar c ++ cs) =
      (unescapeFrom next cs).map (c :: ·) := by
  unfold escapedChar
  -- five characters have names, every other one stands for itself
  split
  · exact ⟨_, unescapeFrom_named "amp".toList rfl rfl (by decide) offset cs⟩
  · exact ⟨_, unescapeFrom_named "lt".toList rfl rfl (by decide) offset cs⟩
  · exact ⟨_, unescapeFrom_named "gt".toList rfl rfl (by decide) offset cs⟩
  · exact ⟨_, unescapeFrom_named "quot".toList rfl rfl (by decide) offset cs⟩
  · exact ⟨_, unescapeFrom_named "apos".toList rfl rfl (by decide) offset cs⟩
  · next h _ _ _ _ => exact ⟨_, unescapeFrom_plain h offset cs⟩

theorem unescapeFrom_escaped (cs : List Char) (offset : Nat) :
    unescapeFrom offset (cs.flatMap escapedChar) = .ok cs := by
  induction cs generalizing offset with
  | nil => rw [List.flatMap_nil, unescapeFrom]
  | cons c cs ih =>
    obtain ⟨next, h⟩ := unescapeFrom_escapedChar c offset (cs.flatMap escapedChar)
    rw [List.flatMap_cons, h, ih]
    rfl

/-- **A text is read from its escaped form as it was.** -/
theorem unescape_escape (s : String) : unescape (escape s) = .ok s := by
  rw [unescape, escape, String.toList_ofList, unescapeFrom_escaped]
  exact congrArg Except.ok String.ofList_toList

/-- An escaped text can be put in quotes. -/
theorem quote_not_mem_escape (s : String) : 0x22 ∉ Text.Utf8.encode (escape s) := by
  intro h
  obtain ⟨d, hd, hbyte⟩ := List.mem_flatMap.1 h
  have hquote : d.toNat = 0x22 := Text.Utf8.eq_of_mem_encodeChar (by decide) hbyte
  obtain rfl : d = '"' := by rw [← Char.ofNat_toNat d, hquote]
  rw [escape, String.toList_ofList] at hd
  obtain ⟨c, -, hc⟩ := List.mem_flatMap.1 hd
  unfold escapedChar at hc
  split at hc
  all_goals try exact absurd hc (by decide)
  next hne _ => exact hne (List.mem_singleton.1 hc).symm

end Markup

end Livery
