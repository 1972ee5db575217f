import Livery.Proofs.Scanning

/-!
# Where lexemes end

Whether a lexeme is closed is seen from its own bytes. What stands behind it decides neither where
it ends nor what it is; only a run of text reaches as far as the next markup.

* `Lexeme.Ends`: how a lexeme ends.
* `Lexeme.scan_split`: every lexeme that is scanned ends in one of these ways, and is scanned again
  in front of anything else.
-/

namespace Livery.Markup

variable {bs rest : Bytes} {l : Lexeme}

/-! ## Constructs up to their ends -/

/-- The first end of a construct that `closeWhen` finds is found whatever stands behind it. -/
theorem closeWhen_split {ends : Bytes → Bool} {reversed inside : Bytes}
    (h : closeWhen ends reversed bs = some (inside, rest)) :
    ∃ part, bs = part ++ 0x3E :: rest ∧
      ∀ more, closeWhen ends reversed (part ++ 0x3E :: more) = some (inside, more) := by
  induction bs generalizing reversed with
  | nil => simp [closeWhen] at h
  | cons b bs ih =>
    rw [closeWhen] at h
    split at h
    · next hb =>
      obtain ⟨rfl, rfl⟩ := Prod.mk.inj (Option.some.inj h)
      refine ⟨[], by rw [hb.1]; rfl, fun more => ?_⟩
      simp [closeWhen, hb.2]
    · next hb =>
      obtain ⟨part, rfl, hmore⟩ := ih h
      refine ⟨b :: part, rfl, fun more => ?_⟩
      rw [List.cons_append, closeWhen, if_neg hb]
      exact hmore more

/-- So is the end of a tag that `closeTag` finds. -/
theorem closeTag_split {quote : Option UInt8} {content : Bytes}
    (h : closeTag quote bs = some (content, rest)) :
    bs = content ++ 0x3E :: rest ∧
      ∀ more, closeTag quote (content ++ 0x3E :: more) = some (content, more) := by
  induction bs generalizing quote content with
  | nil => simp [closeTag] at h
  | cons b bs ih =>
    -- a byte that does not end the tag, with the quote that is open behind it
    have hstep : ∀ {q : Option UInt8},
        (closeTag q bs).map (fun r => (b :: r.1, r.2)) = some (content, rest) →
        (∀ cs, closeTag quote (b :: cs) = (closeTag q cs).map fun r => (b :: r.1, r.2)) →
        b :: bs = content ++ 0x3E :: rest ∧
          ∀ more, closeTag quote (content ++ 0x3E :: more) = some (content, more) := by
      intro q hq hcons
      obtain ⟨⟨c, r⟩, hr, heq⟩ := Option.map_eq_some_iff.1 hq
      obtain ⟨rfl, rfl⟩ := Prod.mk.inj heq
      obtain ⟨rfl, hmore⟩ := ih hr
      refine ⟨rfl, fun more => ?_⟩
      rw [List.cons_append, hcons, hmore]
      rfl
    cases quote with
    | some q => exact hstep h fun cs => rfl
    | none =>
      rw [closeTag] at h
      split at h
      · next hb =>
        obtain ⟨rfl, rfl⟩ := Prod.mk.inj (Option.some.inj h)
        exact ⟨by rw [hb]; rfl, fun more => rfl⟩
      · next hb => exact hstep h fun cs => by rw [closeTag, if_neg hb]

/-! ## Lexemes -/

/-- How a lexeme ends: with `>`, in front of the next markup, or with the text. -/
inductive Lexeme.Ends : Bytes → Lexeme → Bytes → Prop
  | closed {part rest : Bytes} {l : Lexeme} (last : part.getLast? = some 0x3E)
    (scan : ∀ more, Lexeme.scan (part ++ more) = .found l more) : Ends part l rest
  | text {part rest : Bytes} (next : rest = [] ∨ rest.head? = some 0x3C)
    (scan : ∀ more, more.head? = some 0x3C →
      Lexeme.scan (part ++ more) = .found (.text part) more) : Ends part (.text part) rest
  | unclosed {part : Bytes} {l : Lexeme} (last : part.getLast? ≠ some 0x3E) : Ends part l []

theorem Lexeme.Ends.closedBy {part : Bytes} (opener : Bytes)
    (scan : ∀ more, Lexeme.scan (opener ++ (part ++ 0x3E :: more)) = .found l more) :
    Ends (opener ++ (part ++ [0x3E])) l rest := by
  refine .closed ?_ fun more => ?_
  · rw [← List.append_assoc, List.getLast?_concat]
  · simpa using scan more

/-- A construct that begins with `!` and another byte than `>` is closed further on. -/
theorem closeWhen_bang {ends : Bytes → Bool} {d : UInt8} (hd : d ≠ 0x3E) {ds inside : Bytes}
    (h : closeWhen ends [] (0x21 :: d :: ds) = some (inside, rest)) :
    ∃ part, ds = part ++ 0x3E :: rest ∧
      ∀ more, closeWhen ends [] (0x21 :: d :: (part ++ 0x3E :: more)) = some (inside, more) := by
  obtain ⟨part, heq, hmore⟩ := closeWhen_split h
  rcases part with _ | ⟨b, _ | ⟨c, part⟩⟩
  · cases heq
  · simp only [List.cons_append, List.nil_append, List.cons.injEq] at heq
    exact absurd heq.2.1 hd
  · simp only [List.cons_append, List.cons.injEq] at heq
    obtain ⟨rfl, rfl, rfl⟩ := heq
    exact ⟨part, rfl, hmore⟩

/-- A construct of which one kind of lexeme is made, given what `ends` it and how `found` makes the
lexeme of its inside. -/
theorem scanBang_closed {ends : Bytes → Bool} {found : Bytes → Bytes → Scan} {fault : Fault}
    {d : UInt8} {ds : Bytes} (hd : d ≠ 0x3E)
    (hscan : ∀ ds, scanBang (0x21 :: d :: ds) = match closeWhen ends [] (0x21 :: d :: ds) with
      | none => .broken fault
      | some (inside, r) => found inside r)
    (hfound : ∀ inside r l rest, found inside r = .found l rest →
      rest = r ∧ ∀ more, found inside more = .found l more)
    (h : scanBang (0x21 :: d :: ds) = .found l rest) :
    ∃ part, d :: ds = part ++ 0x3E :: rest ∧
      ∀ more, scanBang (0x21 :: (part ++ 0x3E :: more)) = .found l more := by
  rw [hscan] at h
  cases hc : closeWhen ends [] (0x21 :: d :: ds) with
  | none => rw [hc] at h; cases h
  | some r =>
    rw [hc] at h
    obtain ⟨rfl, hmore⟩ := hfound _ _ _ _ h
    obtain ⟨part, rfl, hpart⟩ := closeWhen_bang hd hc
    refine ⟨d :: part, rfl, fun more => ?_⟩
    rw [List.cons_append, hscan, hpart]
    exact hmore more

/-- What is scanned behind `<!` is the same whatever stands behind its end. -/
theorem scanBang_split {cs : Bytes} (h : scanBang (0x21 :: cs) = .found l rest) :
    ∃ part, cs = part ++ 0x3E :: rest ∧
      ∀ more, scanBang (0x21 :: (part ++ 0x3E :: more)) = .found l more := by
  cases cs with
  | nil => cases h
  | cons d ds =>
    have hd : d ≠ 0x3E := by
      rintro rfl
      cases h
    -- the second byte decides what ends the construct
    by_cases hcdata : d = 0x5B
    · subst hcdata
      exact scanBang_closed hd (fun ds => rfl) (by grind) h
    by_cases hcomment : d = 0x2D
    · subst hcomment
      exact scanBang_closed hd (fun ds => rfl) (by grind) h
    by_cases hdoctype : d = 0x44 ∨ d = 0x64
    · rcases hdoctype with rfl | rfl
      · exact scanBang_closed hd (fun ds => rfl) (by grind) h
      · exact scanBang_closed hd (fun ds => rfl) (by grind) h
    · simp [scanBang, hdoctype] at h

theorem afterClose_of_not_mem (h : 0x3E ∉ bs) : afterClose bs = [] := by
  have hall : bs.all (· != 0x3E) = true :=
    List.all_eq_true.2 fun b hb => bne_iff_ne.2 fun heq => h (heq ▸ hb)
  rw [afterClose, (Text.dropWhile_eq_nil_iff_all _ bs).2 hall, List.tail_nil]

/-- What is scanned behind `<?` is closed, or it ends with the text. -/
theorem scanInstruction_split (h : scanInstruction bs = .found l rest) :
    (∃ part, bs = part ++ 0x3E :: rest ∧
      ∀ more, scanInstruction (part ++ 0x3E :: more) = .found l more) ∨
        rest = [] ∧ 0x3E ∉ bs := by
  by_cases hmem : 0x3E ∈ bs
  · obtain ⟨part, after, rfl, hpart⟩ := List.eq_append_cons_of_mem hmem
    refine .inl ⟨part, ?_⟩
    simp only [scanInstruction, beforeClose_append hpart, afterClose_append hpart] at h ⊢
    grind
  · unfold scanInstruction at h
    exact .inr ⟨by grind [afterClose_of_not_mem], hmem⟩

/-- A tag that `scanTag` finds is closed. -/
theorem scanTag_split (h : scanTag bs = .found l rest) :
    ∃ part, bs = part ++ 0x3E :: rest ∧
      ∀ more, scanTag (part ++ 0x3E :: more) = .found l more := by
  unfold scanTag at h
  cases hc : closeTag none bs with
  | none => rw [hc] at h; cases h
  | some r =>
    obtain ⟨content, after⟩ := r
    obtain ⟨rfl, hmore⟩ := closeTag_split hc
    refine ⟨content, ?_⟩
    simp only [hc] at h
    simp only [scanTag, hmore]
    grind

/-- What does not hold `>` does not end with it. -/
theorem Lexeme.Ends.unclosedBy {part : Bytes} (opener : Bytes) (hopener : 0x3E ∉ opener)
    (hpart : 0x3E ∉ part) : Ends (opener ++ part) l [] := by
  refine .unclosed fun hlast => ?_
  exact (List.mem_append.1 (List.mem_of_getLast? hlast)).elim hopener hpart

/-- An end tag that `scan` finds is closed, or it ends with the text. -/
theorem Lexeme.scan_endTag_split (cs : Bytes) :
    ∃ part, 0x3C :: 0x2F :: cs = part ++ afterClose cs ∧
      Ends part (.endTag (beforeClose cs)) (afterClose cs) := by
  by_cases hmem : 0x3E ∈ cs
  · obtain ⟨part, after, rfl, hpart⟩ := List.eq_append_cons_of_mem hmem
    rw [beforeClose_append hpart, afterClose_append hpart]
    refine ⟨[0x3C, 0x2F] ++ (part ++ [0x3E]), by simp, .closedBy _ fun more => ?_⟩
    have hscan : ∀ ds, Lexeme.scan (0x3C :: 0x2F :: ds) =
      .found (.endTag (beforeClose ds)) (afterClose ds) := fun _ => rfl
    simp only [List.cons_append, List.nil_append, hscan, beforeClose_append hpart,
      afterClose_append hpart]
  · rw [afterClose_of_not_mem hmem]
    exact ⟨[0x3C, 0x2F] ++ cs, by simp, .unclosedBy _ (by decide) hmem⟩

/-- A run of text that `scan` finds reaches up to the next markup. -/
theorem Lexeme.scan_text_split {b : UInt8} (hb : b ≠ 0x3C) (cs : Bytes) :
    ∃ part, b :: cs = part ++ (b :: cs).dropWhile (· != 0x3C) ∧
      Ends part (.text ((b :: cs).takeWhile (· != 0x3C))) ((b :: cs).dropWhile (· != 0x3C)) := by
  refine ⟨_, (List.takeWhile_append_dropWhile ..).symm, .text ?_ fun more hmore => ?_⟩
  · have hhead := List.head?_dropWhile_not (· != (0x3C : UInt8)) (b :: cs)
    cases hrest : (b :: cs).dropWhile (· != 0x3C) with
    | nil => exact .inl rfl
    | cons c rest =>
      rw [hrest] at hhead
      exact .inr (by simpa using hhead)
  · have hplain : ∀ c ∈ (b :: cs).takeWhile (· != 0x3C), (c != 0x3C) = true := fun c hc =>
      List.all_eq_true.1 List.all_takeWhile c hc
    have hstop : ∀ c, more.head? = some c → (c != 0x3C) = false := fun c hc => by
      simp [Option.some.inj (hmore.symm.trans hc).symm]
    have hcons : (b :: cs).takeWhile (· != 0x3C) = b :: cs.takeWhile (· != 0x3C) :=
      List.takeWhile_cons_of_pos (by simpa using hb)
    have htake := takeWhile_upTo hplain hstop
    have hdrop := dropWhile_upTo hplain hstop
    rw [hcons] at htake hdrop ⊢
    rw [List.cons_append] at htake hdrop ⊢
    simp only [Lexeme.scan, if_neg hb, htake, hdrop]

/-- **A lexeme that `scan` finds is the same whatever stands behind its end.** -/
theorem Lexeme.scan_split (h : Lexeme.scan bs = .found l rest) :
    ∃ part, bs = part ++ rest ∧ Ends part l rest := by
  rcases bs with _ | ⟨b, bs⟩
  · cases h
  by_cases hb : b = 0x3C
  · subst hb
    rcases bs with _ | ⟨c, cs⟩
    · cases h
    by_cases hbang : c = 0x21
    · subst hbang
      obtain ⟨part, rfl, hmore⟩ := scanBang_split h
      exact ⟨[0x3C, 0x21] ++ (part ++ [0x3E]), by simp, .closedBy _ hmore⟩
    by_cases hend : c = 0x2F
    · subst hend
      obtain ⟨rfl, rfl⟩ := Scan.found.inj h
      exact scan_endTag_split cs
    by_cases hinstruction : c = 0x3F
    · subst hinstruction
      rcases scanInstruction_split h with ⟨part, rfl, hmore⟩ | ⟨rfl, hmem⟩
      · exact ⟨[0x3C, 0x3F] ++ (part ++ [0x3E]), by simp, .closedBy _ hmore⟩
      · exact ⟨[0x3C, 0x3F] ++ cs, by simp, .unclosedBy _ (by decide) hmem⟩
    · have hscan : ∀ ds, Lexeme.scan (0x3C :: c :: ds) = scanTag (c :: ds) :=
        Source.scan_of_ne ⟨hbang, hend, hinstruction⟩
      rw [hscan] at h
      obtain ⟨part, heq, hmore⟩ := scanTag_split h
      refine ⟨[0x3C] ++ (part ++ [0x3E]), by simp [heq], .closedBy _ fun more => ?_⟩
      -- the tag begins with the same byte, which may be its `>`
      rcases part with _ | ⟨d, part⟩
      · obtain ⟨rfl, -⟩ := List.cons.inj heq
        exact (hscan more).trans (hmore more)
      · obtain ⟨rfl, -⟩ := List.cons.inj heq
        exact (hscan _).trans (hmore more)
  · have hscan : Lexeme.scan (b :: bs) =
        .found (.text ((b :: bs).takeWhile (· != 0x3C))) ((b :: bs).dropWhile (· != 0x3C)) := by
      simp only [Lexeme.scan, if_neg hb]
    rw [hscan] at h
    obtain ⟨rfl, rfl⟩ := Scan.found.inj h
    exact scan_text_split hb bs

end Livery.Markup
