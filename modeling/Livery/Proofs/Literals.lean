import Livery.Overlay.Writing
import Livery.Proofs.Format

/-!
# Attribute values read back

* `IsLiteral`: a reader and a writer of values where what is written is read as it was. Brushes,
  font weights, font styles and flags have such a pair.
* `Extension.split_join`: the entries of an extension list are found in the written list.
-/

namespace Livery

/-! ## Colours -/

namespace Text.Hex

theorem isBlank_upperDigit {n : Nat} (h : n < 16) : isBlank (upperDigit n) = false := by
  have hall : ∀ k : Fin 16, isBlank (upperDigit k) = false := by decide
  exact hall ⟨n, h⟩

theorem isBlank_of_mem_byte {b : UInt8} {c : Char} (h : c ∈ byte b) : isBlank c = false := by
  have hb := b.toNat_lt
  simp only [byte, List.mem_cons, List.not_mem_nil, or_false] at h
  rcases h with rfl | rfl
  · exact isBlank_upperDigit (by omega)
  · exact isBlank_upperDigit (by omega)

theorem digits_byte (b : UInt8) : (byte b).mapM digit? = some [b.toNat / 16, b.toNat % 16] := by
  have hb := b.toNat_lt
  simp [byte, digit?_upperDigit (show b.toNat / 16 < 16 by omega),
    digit?_upperDigit (show b.toNat % 16 < 16 by omega)]

end Text.Hex

/-- Without white space there is nothing to trim. -/
theorem Text.trimmed_of_forall {cs : List Char} (h : ∀ c ∈ cs, isBlank c = false) :
    trimmed cs = cs := by
  have hdrop : ∀ ds : List Char, (∀ c ∈ ds, isBlank c = false) → ds.dropWhile isBlank = ds := by
    intro ds hds
    cases ds with
    | nil => rfl
    | cons d ds => exact List.dropWhile_cons_of_neg (by simp [hds d (by simp)])
  rw [trimmed, hdrop cs h, hdrop cs.reverse (fun c hc => h c (List.mem_reverse.1 hc)),
    List.reverse_reverse]

namespace Color

theorem isBlank_of_mem_written {c : Color} {d : Char} (h : d ∈ c.written) :
    Text.isBlank d = false := by
  simp only [written, List.mem_cons, List.mem_append] at h
  rcases h with rfl | ((ha | hr) | hg) | hb
  · rfl
  · split at ha
    · exact absurd ha List.not_mem_nil
    · exact Text.Hex.isBlank_of_mem_byte ha
  · exact Text.Hex.isBlank_of_mem_byte hr
  · exact Text.Hex.isBlank_of_mem_byte hg
  · exact Text.Hex.isBlank_of_mem_byte hb

theorem trimmed_text (c : Color) : Text.trimmed c.text.toList = c.written := by
  rw [text, String.toList_ofList]
  exact Text.trimmed_of_forall fun _ => isBlank_of_mem_written

theorem pair_digits (b : UInt8) : pair (b.toNat / 16) (b.toNat % 16) = b := by
  rw [pair, Nat.div_add_mod', UInt8.ofNat_toNat]

theorem parse_text (c : Color) : parse c.text = .ok c := by
  rw [parse, trimmed_text, written]
  simp only [ofHex, List.mapM_append, Text.Hex.digits_byte]
  -- the alpha of an opaque colour is left out
  by_cases h : c.isOpaque = true
  · have ha : c.a = 0xFF := beq_iff_eq.1 h
    rw [if_pos h]
    simp [ofDigits?, rgb, pair_digits, ← ha]
  · rw [if_neg h]
    simp [Text.Hex.digits_byte, ofDigits?, pair_digits]

end Color

/-! ## System colours -/

namespace SystemColor

theorem isBlank_of_mem_text {entry : SystemColor} {c : Char} (h : c ∈ entry.text.toList) :
    Text.isBlank c = false := by
  have hmarker : marker.toList.all (! Text.isBlank ·) = true := rfl
  have hname : entry.name.toList.all (! Text.isBlank ·) = true := by cases entry <;> rfl
  rw [text, String.toList_append, List.mem_append] at h
  rcases h with h | h
  · simpa using List.all_eq_true.1 hmarker c h
  · simpa using List.all_eq_true.1 hname c h

theorem ofName?_name (entry : SystemColor) : ofName? entry.name = some entry := by
  cases entry <;> rfl

end SystemColor

theorem Brush.behind?_append (lead cs : List Char) : behind? lead (lead ++ cs) = some cs := by
  induction lead with
  | nil => rfl
  | cons c lead ih => rw [List.cons_append, behind?, if_pos rfl, ih]

/-! ## Literals -/

/-- What `text` writes is read by `parse` as it was, and is not blank. -/
structure IsLiteral {α ε : Type} (parse : String → Except ε α) (text : α → String) : Prop where
  reads : ∀ a, parse (text a) = .ok a
  visible : ∀ a, Text.isAllBlank (text a) = false

theorem Brush.isLiteral : IsLiteral Brush.parse Brush.text where
  reads b := by
    cases b with
    | system entry =>
      have htrimmed : Text.trimmed entry.text.toList =
          SystemColor.marker.toList ++ entry.name.toList := by
        rw [Text.trimmed_of_forall fun _ => SystemColor.isBlank_of_mem_text, SystemColor.text,
          String.toList_append]
      rw [text, parse, htrimmed, behind?_append]
      simp only [String.ofList_toList, SystemColor.ofName?_name]
    | fixed c =>
      -- the marker of a system colour does not begin with `#`
      have hmarker : behind? SystemColor.marker.toList c.written = none := rfl
      rw [text, parse, c.trimmed_text, hmarker, c.parse_text]
  visible b := by
    cases b with
    | system entry =>
      rw [Text.isAllBlank, text, SystemColor.text, String.toList_append]
      rfl
    | fixed c =>
      rw [Text.isAllBlank, text, Color.text, String.toList_ofList]
      rfl

theorem FontWeight.isLiteral : IsLiteral FontWeight.parse FontWeight.name where
  reads w := by cases w <;> rfl
  visible w := by cases w <;> rfl

theorem FontStyle.isLiteral : IsLiteral FontStyle.parse FontStyle.name where
  reads s := by cases s <;> rfl
  visible s := by cases s <;> rfl

theorem Underline.isLiteral : IsLiteral Underline.parse Underline.text where
  reads b := by cases b <;> rfl
  visible b := by cases b <;> rfl

namespace IsLiteral

variable {α ε : Type} {parse : String → Except ε α} {text : α → String}

theorem isOptional (h : IsLiteral parse text) (value : Option α) :
    Overlay.IsOptional parse (value.map text) := by
  intro v hv _
  obtain ⟨a, -, rfl⟩ := Option.map_eq_some_iff.1 hv
  exact ⟨a, h.reads a⟩

/-- A value that may be unset is read by `parse` as it was. -/
theorem optionalValue (h : IsLiteral parse text) (value : Option α) :
    Overlay.optionalValue parse (value.map text) = value := by
  cases value with
  | none => rfl
  | some a => simp [Overlay.optionalValue, h.visible a, h.reads a, Except.toOption]

end IsLiteral

/-! ## Extension lists -/

namespace Text

variable {separator : Char} {cs : List Char}

theorem pieces_of_not_mem (h : separator ∉ cs) : pieces separator cs = [cs] := by
  induction cs with
  | nil => rfl
  | cons c cs ih =>
    rw [List.mem_cons, not_or] at h
    rw [pieces, if_neg (Ne.symm h.1), ih h.2]

theorem pieces_append (h : separator ∉ cs) (rest : List Char) :
    pieces separator (cs ++ separator :: rest) = cs :: pieces separator rest := by
  induction cs with
  | nil => rw [List.nil_append, pieces, if_pos rfl]
  | cons c cs ih =>
    rw [List.mem_cons, not_or] at h
    rw [List.cons_append, pieces, if_neg (Ne.symm h.1), ih h.2]

/-- Pieces without the `separator` are found between the separators. -/
theorem pieces_intercalate {css : List (List Char)} (hne : css ≠ [])
    (h : ∀ cs ∈ css, separator ∉ cs) : pieces separator ([separator].intercalate css) = css := by
  induction css with
  | nil => exact absurd rfl hne
  | cons cs css ih =>
    rw [List.forall_mem_cons] at h
    cases css with
    | nil => rw [List.intercalate_singleton, pieces_of_not_mem h.1]
    | cons ds css =>
      have ih := ih (List.cons_ne_nil ds css) h.2
      rw [List.intercalate_cons_cons, List.append_assoc, List.singleton_append,
        pieces_append h.1, ih]

end Text

namespace Extension

/-- An entry that can be told in a list: no white space at its ends and no `;`. -/
structure IsEntry (entry : String) : Prop where
  nonempty : entry ≠ ""
  trimmed : Text.trim entry = entry
  undivided : ';' ∉ entry.toList

/-- **The entries of a list are found in the written list.** -/
theorem split_join {entries : List String} (h : ∀ e ∈ entries, IsEntry e) :
    split (join entries) = entries := by
  cases entries with
  | nil => rfl
  | cons entry more =>
    have hpieces : Text.pieces ';' (join (entry :: more)).toList =
        (entry :: more).map String.toList := by
      rw [join, String.toList_intercalate]
      refine Text.pieces_intercalate (by simp) ?_
      intro cs hcs
      obtain ⟨e, he, rfl⟩ := List.mem_map.1 hcs
      exact (h e he).undivided
    rw [split, hpieces]
    -- each piece is an entry already, so trimming and filtering leave it
    generalize entry :: more = entries at h ⊢
    induction entries with
    | nil => rfl
    | cons e es ih =>
      rw [List.forall_mem_cons] at h
      have htrim : Text.trimmed e.toList = e.toList := by
        rw [← Text.trim_toList, h.1.trimmed]
      have hne : e.toList.isEmpty = false := by
        simpa using h.1.nonempty
      rw [List.map_cons, List.map_cons, htrim, List.filter_cons_of_pos (by simp [hne]),
        List.map_cons, ih h.2, String.ofList_toList]

end Extension

end Livery
