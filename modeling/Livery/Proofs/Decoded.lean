import Livery.Proofs.Offsets

/-!
# What is read in a charset

Markup is scanned as bytes, and only some stretches of it are read in the charset of the text: the
names and the values of its tags. These stretches stand in the text, so two charsets are alike on a
text if they are so on its stretches; and on ASCII most charsets are.

* `Lexeme.scan_decoded`: what is read of a lexeme stands in the text that it was scanned from.
* `Lexeme.scan_declaration`: so does the opener of a declaration.
* `Charset.decode?_ascii`: ASCII is read as it stands.
-/

namespace Livery

namespace Markup

/-! ## What is read stands in the text -/

variable {bs : Bytes}

theorem closeTag_isPrefix {quote : Option UInt8} {content rest : Bytes}
    (h : closeTag quote bs = some (content, rest)) : content <+: bs := by
  induction bs generalizing quote content with
  | nil => simp [closeTag] at h
  | cons b bs ih =>
    -- whatever the quote, a byte before the end belongs to the content
    have hmore : ∀ {q : Option UInt8},
        (closeTag q bs).map (fun r => (b :: r.1, r.2)) = some (content, rest) →
          content <+: b :: bs := by
      intro q hq
      obtain ⟨⟨c, r⟩, hr, heq⟩ := Option.map_eq_some_iff.1 hq
      obtain ⟨rfl, rfl⟩ := Prod.mk.inj heq
      exact List.cons_prefix_cons.2 ⟨rfl, ih hr⟩
    unfold closeTag at h
    cases quote with
    | none =>
      simp only at h
      split at h
      · obtain ⟨rfl, -⟩ := Prod.mk.inj (Option.some.inj h)
        exact List.nil_prefix
      · exact hmore h
    | some q => exact hmore h

/-- The value that `quotedValue` reads, and what follows it. -/
theorem quotedValue_isInfix {offset : Nat} {value after : Bytes}
    (h : quotedValue offset bs = .ok (value, after)) : value <:+: bs ∧ after <:+ bs := by
  unfold quotedValue at h
  have hsuffix : bs.dropWhile isSpace <:+ bs := List.dropWhile_suffix _
  cases hopen : bs.dropWhile isSpace with
  | nil => simp [hopen] at h
  | cons q inside =>
    rw [hopen] at hsuffix
    have hinside : inside <:+ bs := (List.suffix_cons q inside).trans hsuffix
    simp only [hopen] at h
    split at h
    · have hclose : inside.dropWhile (· != q) <:+ inside := List.dropWhile_suffix _
      cases hlast : inside.dropWhile (· != q) with
      | nil => simp [hlast] at h
      | cons c rest =>
        rw [hlast] at hclose
        simp only [hlast, Except.ok.injEq, Prod.mk.injEq] at h
        obtain ⟨rfl, rfl⟩ := h
        exact ⟨(List.takeWhile_prefix _).isInfix.trans hinside.isInfix,
          ((List.suffix_cons c rest).trans hclose).trans hinside⟩
    · cases h

theorem attributeItems_isInfix {offset start : Nat} {a : Attribute}
    (h : .found start a ∈ attributeItems offset bs) : a.value <:+: bs := by
  -- by induction on what is left of the tag
  induction hn : bs.length using Nat.strongRecOn generalizing offset bs with
  | ind n ih =>
    subst hn
    rw [attributeItems] at h
    split at h
    · cases h
    · next b r hd =>
      have hkey : r <:+ bs := (List.suffix_cons b r).trans (hd ▸ List.dropWhile_suffix _)
      split at h
      · cases List.mem_singleton.1 h
      · next e v he =>
        have hgap : (afterKey r).dropWhile isSpace <:+ r :=
          (List.dropWhile_suffix _).trans (List.dropWhile_suffix _)
        have hv : v <:+ bs := ((List.suffix_cons e v).trans (he ▸ hgap)).trans hkey
        split at h
        · dsimp only at h
          split at h
          · cases List.mem_singleton.1 h
          · next value after hvalue =>
            obtain ⟨hstretch, hafter⟩ := quotedValue_isInfix hvalue
            rcases List.mem_cons.1 h with hfirst | hmore
            · obtain ⟨-, rfl⟩ := AttributeItem.found.inj hfirst
              exact hstretch.trans hv.isInfix
            · have hlt : after.length < bs.length :=
                Nat.lt_of_lt_of_le (quotedValue_length_lt hvalue) hv.length_le
              exact (ih _ hlt hmore rfl).trans (hafter.trans hv).isInfix
        · cases List.mem_singleton.1 h

theorem AttributeList.of_mem_checked {seen : List (Bytes × Nat)} {items : List AttributeItem}
    {a : Attribute} (h : a ∈ (checked seen items).attributes) :
    ∃ start, .found start a ∈ items := by
  induction items generalizing seen with
  | nil => cases h
  | cons item items ih =>
    cases item with
    | found start b =>
      simp only [checked] at h
      split at h
      · cases h
      · rcases List.mem_cons.1 h with rfl | hmore
        · exact ⟨start, List.mem_cons_self⟩
        · obtain ⟨start', hmem⟩ := ih hmore
          exact ⟨start', List.mem_cons_of_mem _ hmem⟩
    | faulty start key fault =>
      simp only [checked] at h
      split at h
      · cases h
      · cases h
    | keyless fault => cases h

/-- The values of the tag with the inside `content` stand in it. -/
theorem Tag.value_isInfix {content : Bytes} {a : Attribute}
    (h : a ∈ (Tag.ofContent content).attributes.attributes) : a.value <:+: content := by
  obtain ⟨start, hitem⟩ := AttributeList.of_mem_checked h
  exact (attributeItems_isInfix hitem).trans (List.dropWhile_suffix _).isInfix

theorem endName_isPrefix (name : Bytes) : endName name <+: name := by
  unfold endName
  split
  · exact List.prefix_rfl
  · rw [← List.reverse_suffix, List.reverse_reverse]
    exact List.dropWhile_suffix _

theorem scanTag_decoded {rest value : Bytes} {l : Lexeme} (h : scanTag bs = .found l rest)
    (hvalue : l.Decoded value) : value <:+: bs := by
  obtain ⟨content, hclose, rfl | rfl⟩ := scanTag_kind h
  · have htag : content.dropLast <:+: bs :=
      (List.dropLast_prefix content).isInfix.trans (closeTag_isPrefix hclose).isInfix
    cases hvalue with
    | emptyValue ha => exact (Tag.value_isInfix ha).trans htag
  · have htag : content <:+: bs := (closeTag_isPrefix hclose).isInfix
    cases hvalue with
    | startName => exact (List.takeWhile_prefix _).isInfix.trans htag
    | startValue ha => exact (Tag.value_isInfix ha).trans htag

/-- **What is read in the charset of a text stands in that text.** -/
theorem Lexeme.scan_decoded {rest value : Bytes} {l : Lexeme} (h : Lexeme.scan bs = .found l rest)
    (hvalue : l.Decoded value) : value <:+: bs := by
  cases scan_found h with
  | bang h =>
    obtain ⟨_, rfl | rfl | rfl⟩ := scanBang_kind h
    all_goals cases hvalue
  | endTag bs =>
    have hname : beforeClose bs <:+: 0x3C :: 0x2F :: bs :=
      (List.takeWhile_prefix _).isInfix.trans (List.IsSuffix.isInfix ⟨[0x3C, 0x2F], rfl⟩)
    cases hvalue with
    | endName => exact hname
    | trimmedName => exact (endName_isPrefix _).isInfix.trans hname
  | instruction h =>
    obtain ⟨_, rfl⟩ | ⟨_, rfl, -⟩ := scanInstruction_kind h
    all_goals cases hvalue
  | tag h => exact (scanTag_decoded h hvalue).trans (List.suffix_cons _ _).isInfix
  | text bs hb => cases hvalue

/-- The beginning of an XML declaration, in which the `declarationName` follows. -/
def declarationOpener : Bytes := 0x3C :: 0x3F :: declarationName

/-- A declaration that `scan` finds has its opener. -/
theorem Lexeme.scan_declaration {rest : Bytes} {tag : Tag}
    (h : Lexeme.scan bs = .found (.declaration tag) rest) : declarationOpener <+: bs := by
  cases scan_found h with
  | bang h =>
    obtain ⟨_, heq | heq | heq⟩ := scanBang_kind h
    all_goals cases heq
  | instruction h =>
    obtain ⟨_, heq⟩ | ⟨_, -, hname⟩ := scanInstruction_kind h
    · cases heq
    · exact List.cons_prefix_cons.2 ⟨rfl, List.cons_prefix_cons.2 ⟨rfl, hname⟩⟩
  | tag h =>
    obtain ⟨_, -, heq | heq⟩ := scanTag_kind h
    all_goals cases heq

/-! ## ASCII -/

/-- A `Charset` in which bytes below `0x80` are ASCII. -/
def Charset.readsAscii : Charset → Bool
  | .utf8 => true
  | .codePage _ => true
  | .userDefined => true
  | _ => false

theorem segments_ascii (h : ∀ b ∈ bs, b.toNat < 0x80) :
    Text.Utf8.segments bs = bs.map fun b => .char (Char.ofNat b.toNat) := by
  induction bs with
  | nil => rfl
  | cons b bs ih =>
    rw [List.forall_mem_cons] at h
    have hlead : Text.Utf8.step none b = ([.char (Char.ofNat b.toNat)], none) := if_pos h.1
    rw [Text.Utf8.segments, Text.Utf8.segmentsFrom, hlead, List.map_cons, ← ih h.2]
    rfl

/-- What `f` gives for every byte, it gives for all of them. -/
theorem mapM_eq_some {α β : Type} {f : α → Option β} {g : α → β} {l : List α}
    (h : ∀ a ∈ l, f a = some (g a)) : l.mapM f = some (l.map g) := by
  induction l with
  | nil => rfl
  | cons a l ih =>
    rw [List.forall_mem_cons] at h
    rw [List.mapM_cons, h.1, ih h.2]
    rfl

/-- **ASCII is read as it stands.** -/
theorem Charset.decode?_ascii [Decoders] {c : Charset} (hc : c.readsAscii = true)
    (h : ∀ b ∈ bs, b.toNat < 0x80) :
    c.decode? bs = some (String.ofList (bs.map fun b => Char.ofNat b.toNat)) := by
  cases c with
  | utf8 =>
    have hchars : (Text.Utf8.segments bs).mapM Text.Utf8.Segment.char? =
        some (bs.map fun b => Char.ofNat b.toNat) := by
      rw [segments_ascii h, List.mapM_map]
      exact mapM_eq_some fun _ _ => rfl
    rw [decode?, Text.Utf8.decode?, hchars]
    rfl
  | codePage page =>
    have hpage : ∀ b ∈ bs, page.char? b = some (Char.ofNat b.toNat) := fun b hb => if_pos (h b hb)
    rw [decode?, mapM_eq_some hpage]
    rfl
  | userDefined =>
    rw [decode?, List.map_congr_left fun b hb => if_pos (h b hb)]
  | utf16 _ => cases hc
  | multibyte => cases hc
  | refused => cases hc

theorem Charset.agree_ascii [Decoders] {c c' : Charset} (hc : c.readsAscii = true)
    (hc' : c'.readsAscii = true) (h : ∀ b ∈ bs, b.toNat < 0x80) : c.Agree (· <:+: bs) c' := by
  intro part hpart
  have hascii : ∀ b ∈ part, b.toNat < 0x80 := fun b hb => h b (hpart.subset hb)
  rw [decode?_ascii hc hascii, decode?_ascii hc' hascii]

end Markup

end Livery
