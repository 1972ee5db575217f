import Livery.Proofs.Source

/-!
# Sources are scanned as they are written

* `Source.Remark.scan`, `Source.scan_cdata`, `Source.Prelude.scan`: a comment or an instruction, a
  section, and what stands before a root, whatever follows it.
* `Source.Tag.scan_start`, `Source.Tag.scan_empty`, `Source.Tag.scan_end`: a tag.
* `Source.scan_instruction_broken`, `Source.scan_doctype_broken`: what has no end for the scanner.
-/

namespace Livery.Markup

/-! ## Bytes up to a mark -/

theorem takeWhile_upTo {α : Type} {p : α → Bool} {bs rest : List α} (hbs : ∀ b ∈ bs, p b = true)
    (hrest : ∀ b, rest.head? = some b → p b = false) : (bs ++ rest).takeWhile p = bs := by
  rw [List.takeWhile_append_of_pos hbs]
  cases rest with
  | nil => simp
  | cons b rest => rw [List.takeWhile_cons_of_neg (by simp [hrest b rfl]), List.append_nil]

theorem dropWhile_upTo {α : Type} {p : α → Bool} {bs rest : List α} (hbs : ∀ b ∈ bs, p b = true)
    (hrest : ∀ b, rest.head? = some b → p b = false) : (bs ++ rest).dropWhile p = rest := by
  rw [List.dropWhile_append_of_pos hbs]
  cases rest with
  | nil => rfl
  | cons b rest => exact List.dropWhile_cons_of_neg (by simp [hrest b rfl])

theorem beforeClose_append {bs : Bytes} (h : 0x3E ∉ bs) (rest : Bytes) :
    beforeClose (bs ++ 0x3E :: rest) = bs := by
  refine takeWhile_upTo (fun b hb => ?_) (by simp)
  exact bne_iff_ne.2 fun heq => h (heq ▸ hb)

theorem afterClose_append {bs : Bytes} (h : 0x3E ∉ bs) (rest : Bytes) :
    afterClose (bs ++ 0x3E :: rest) = rest := by
  unfold afterClose
  rw [dropWhile_upTo (fun b hb => ?_) (by simp), List.tail_cons]
  exact bne_iff_ne.2 fun heq => h (heq ▸ hb)

theorem closeWhen_cons {ends : Bytes → Bool} {b : UInt8} {bs rev : Bytes}
    (h : b = 0x3E → ends rev = false) :
    closeWhen ends rev (b :: bs) = closeWhen ends (b :: rev) bs := by
  rw [closeWhen, if_neg]
  rintro ⟨hb, hends⟩
  rw [h hb] at hends
  cases hends

/-- Nothing is closed before its end. -/
theorem closeWhen_append {ends : Bytes → Bool} {bs rev : Bytes} (rest : Bytes)
    (hno : ∀ k, bs[k]? = some 0x3E → ends ((bs.take k).reverse ++ rev) = false)
    (hend : ends (bs.reverse ++ rev) = true) :
    closeWhen ends rev (bs ++ 0x3E :: rest) = some (rev.reverse ++ bs, rest) := by
  induction bs generalizing rev with
  | nil =>
    have h : ends rev = true := hend
    simp [closeWhen, h]
  | cons b bs ih =>
    have hb : b = 0x3E → ends rev = false := fun hb => hno 0 (congrArg some hb)
    rw [List.cons_append, closeWhen_cons hb, ih]
    · simp
    · intro k hk
      simpa using hno (k + 1) (by simpa using hk)
    · simpa using hend

/-- What has no end is closed nowhere. -/
theorem closeWhen_eq_none {ends : Bytes → Bool} {bs rev : Bytes}
    (hno : ∀ k, bs[k]? = some 0x3E → ends ((bs.take k).reverse ++ rev) = false) :
    closeWhen ends rev bs = none := by
  induction bs generalizing rev with
  | nil => rfl
  | cons b bs ih =>
    have hb : b = 0x3E → ends rev = false := fun hb => hno 0 (congrArg some hb)
    rw [closeWhen_cons hb]
    refine ih fun k hk => ?_
    simpa using hno (k + 1) (by simpa using hk)

/-- Three bytes in a row, the first two given from behind. -/
theorem infix_of_take {bs l : Bytes} {x y z : UInt8} {k : Nat}
    (h : (bs.take k).reverse = y :: x :: l) (hk : bs[k]? = some z) : [x, y, z] <:+: bs := by
  have htake : bs.take k = l.reverse ++ [x, y] := by simpa using congrArg List.reverse h
  obtain ⟨hlt, hz⟩ := List.getElem?_eq_some_iff.1 hk
  refine ⟨l.reverse, bs.drop (k + 1), ?_⟩
  calc l.reverse ++ [x, y, z] ++ bs.drop (k + 1)
      = bs.take k ++ bs[k] :: bs.drop (k + 1) := by simp [htake, hz]
    _ = bs := by rw [List.getElem_cons_drop, List.take_append_drop]

namespace Source

/-! ## Comments, CDATA sections and document types -/

theorem endsComment_take {body : Bytes} (h : ¬ [0x2D, 0x2D, 0x3E] <:+: body) {k : Nat}
    (hk : body[k]? = some 0x3E) :
    endsComment ((body.take k).reverse ++ [0x2D, 0x2D, 0x21]) = false := by
  rcases hl : (body.take k).reverse with _ | ⟨y, _ | ⟨x, l⟩⟩
  · rfl
  · -- one hyphen behind the opener does not end a comment
    simp only [List.cons_append, List.nil_append]
    unfold endsComment
    split
    · next heq => cases heq; rfl
    · rfl
  · simp only [List.cons_append]
    unfold endsComment
    split
    · next heq => cases heq; exact absurd (infix_of_take hl hk) h
    · rfl

theorem endsCdata_take {bytes : Bytes} (h : ¬ [0x5D, 0x5D, 0x3E] <:+: bytes) {k : Nat}
    (hk : bytes[k]? = some 0x3E) :
    endsCdata ((bytes.take k).reverse ++ cdataOpener.reverse) = false := by
  rcases hl : (bytes.take k).reverse with _ | ⟨y, _ | ⟨x, l⟩⟩
  · rfl
  · simp only [cdataOpener, List.reverse_cons, List.reverse_nil, List.cons_append, List.nil_append]
    unfold endsCdata
    split
    · next heq => cases heq
    · rfl
  · simp only [List.cons_append]
    unfold endsCdata
    split
    · next heq => cases heq; exact absurd (infix_of_take hl hk) h
    · rfl

/-- What stands before the last two bytes of a construct does not end it, nor do they. -/
theorem no_end (ends : Bytes → Bool) {body rev : Bytes} {c : UInt8} (hc : c ≠ 0x3E)
    (h : ∀ k, body[k]? = some 0x3E → ends ((body.take k).reverse ++ rev) = false) (k : Nat)
    (hk : (body ++ [c, c])[k]? = some 0x3E) :
    ends (((body ++ [c, c]).take k).reverse ++ rev) = false := by
  rcases Nat.lt_or_ge k body.length with hlt | hge
  · rw [List.getElem?_append_left hlt] at hk
    rw [List.take_append_of_le_length (Nat.le_of_lt hlt)]
    exact h k hk
  · rw [List.getElem?_append_right hge] at hk
    have hmem := List.mem_of_getElem? hk
    simp [hc.symm] at hmem

theorem scan_comment {body : Bytes} (h : ¬ [0x2D, 0x2D, 0x3E] <:+: body) (rest : Bytes) :
    Lexeme.scan ((Lexeme.comment body).written ++ rest) = .found (.comment body) rest := by
  have hclose := closeWhen_append rest
    (no_end endsComment (by decide) fun k hk => endsComment_take h hk) (by
      simp [endsComment] :
        endsComment ((body ++ [0x2D, 0x2D]).reverse ++ [0x2D, 0x2D, 0x21]) = true)
  have hbang : closeWhen endsComment []
      (0x21 :: 0x2D :: 0x2D :: (body ++ [0x2D, 0x2D] ++ 0x3E :: rest)) =
        some (0x21 :: 0x2D :: 0x2D :: (body ++ [0x2D, 0x2D]), rest) := by
    simpa [closeWhen] using hclose
  have hwritten : (Lexeme.comment body).written ++ rest =
      0x3C :: 0x21 :: 0x2D :: 0x2D :: (body ++ [0x2D, 0x2D] ++ 0x3E :: rest) := by
    simp [Lexeme.written, commentOpener]
  rw [hwritten]
  simp only [Lexeme.scan, if_pos, scanBang, List.tail_cons, hbang]
  simp [commentOpener, List.dropLast_append_of_ne_nil]

theorem scan_cdata {bytes : Bytes} (h : ¬ [0x5D, 0x5D, 0x3E] <:+: bytes) (rest : Bytes) :
    Lexeme.scan ((Lexeme.cdata bytes).written ++ rest) = .found (.cdata bytes) rest := by
  have hclose := closeWhen_append rest
    (no_end endsCdata (by decide) fun k hk => endsCdata_take h hk) (by
      simp [endsCdata] :
        endsCdata ((bytes ++ [0x5D, 0x5D]).reverse ++ cdataOpener.reverse) = true)
  have hbang : closeWhen endsCdata []
      (cdataOpener ++ (bytes ++ [0x5D, 0x5D] ++ 0x3E :: rest)) =
        some (cdataOpener ++ (bytes ++ [0x5D, 0x5D]), rest) := by
    simpa [closeWhen, cdataOpener] using hclose
  have hwritten : (Lexeme.cdata bytes).written ++ rest =
      0x3C :: (cdataOpener ++ (bytes ++ [0x5D, 0x5D] ++ 0x3E :: rest)) := by
    simp [Lexeme.written]
  rw [hwritten]
  simp only [Lexeme.scan, cdataOpener, List.cons_append, List.nil_append, if_pos, scanBang,
    List.tail_cons] at hbang ⊢
  simp only [hbang]
  simp [upperByte, List.dropLast_append_of_ne_nil]

theorem endsDoctype_iff (bs : Bytes) :
    endsDoctype (bs.reverse ++ doctypeOpener.reverse) = true ↔ bs.count 0x3C = bs.count 0x3E := by
  simp [endsDoctype, show doctypeOpener.count 0x3C = 0 by decide,
    show doctypeOpener.count 0x3E = 0 by decide]

/-- A document type ends where `d` says. -/
theorem Doctype.scan (d : Doctype) (rest : Bytes) :
    Lexeme.scan ((Lexeme.doctype d.body).written ++ rest) = .found (.doctype d.body) rest := by
  have hclose := @closeWhen_append endsDoctype d.body doctypeOpener.reverse rest
    (fun k hk => by simpa using mt (endsDoctype_iff _).1 (d.closes k hk))
    ((endsDoctype_iff _).2 d.balanced)
  have hbang : closeWhen endsDoctype [] (doctypeOpener ++ (d.body ++ 0x3E :: rest)) =
      some (doctypeOpener ++ d.body, rest) := by
    simpa [closeWhen, doctypeOpener] using hclose
  have hwritten : (Lexeme.doctype d.body).written ++ rest =
      0x3C :: (doctypeOpener ++ (d.body ++ 0x3E :: rest)) := by
    simp [Lexeme.written]
  rw [hwritten]
  simp only [Lexeme.scan, doctypeOpener, List.cons_append, List.nil_append, if_pos, scanBang,
    List.tail_cons] at hbang ⊢
  simp only [hbang]
  simp [upperByte, d.named]

/-- A document type in which `<` and `>` never balance has no end. -/
theorem scan_doctype_broken {bs : Bytes} (h : ∀ k, bs[k]? = some 0x3E →
    (bs.take k).count 0x3C ≠ (bs.take k).count 0x3E) :
    Lexeme.scan (0x3C :: (doctypeOpener ++ bs)) = .broken (.unclosed .doctype) := by
  have hclose := @closeWhen_eq_none endsDoctype bs doctypeOpener.reverse
    fun k hk => by simpa using mt (endsDoctype_iff _).1 (h k hk)
  have hbang : closeWhen endsDoctype [] (doctypeOpener ++ bs) = none := by
    simpa [closeWhen, doctypeOpener] using hclose
  simp only [Lexeme.scan, doctypeOpener, List.cons_append, List.nil_append, if_pos, scanBang,
    List.tail_cons] at hbang ⊢
  simp only [hbang]
  simp

/-! ## Instructions and declarations -/

/-- An instruction that does not hold `>` ends where it is said to, be it a declaration or not. -/
theorem scanInstruction_append {body : Bytes} (named : body ≠ []) (closes : 0x3E ∉ body)
    (rest : Bytes) :
    scanInstruction (body ++ [0x3F] ++ 0x3E :: rest) =
      if declares body then .found (.declaration ⟨body.take 3, body.drop 3⟩) rest
      else .found (.instruction body) rest := by
  have hin : 0x3E ∉ body ++ [0x3F] := by simpa using closes
  have hlen : 2 ≤ (body ++ [0x3F]).length := by
    have := List.length_pos_iff.2 named
    rw [List.length_append, List.length_singleton]; omega
  have hlast : (body ++ [0x3F]).getLast? = some 0x3F := by simp
  simp only [scanInstruction, beforeClose_append hin, afterClose_append hin,
    if_pos (And.intro hlen hlast), List.dropLast_concat, declares, Bool.and_eq_true, beq_iff_eq]

theorem scan_instruction {body : Bytes} (named : body ≠ []) (closes : 0x3E ∉ body)
    (other : declares body = false) (rest : Bytes) :
    Lexeme.scan ((Lexeme.instruction body).written ++ rest) = .found (.instruction body) rest := by
  have hwritten : (Lexeme.instruction body).written ++ rest =
      0x3C :: 0x3F :: (body ++ [0x3F] ++ 0x3E :: rest) := by simp [Lexeme.written]
  rw [hwritten]
  simp only [Lexeme.scan, if_pos]
  rw [if_neg (by decide), if_neg (by decide), scanInstruction_append named closes, other]
  rfl

/-- An instruction that holds `>` is broken there. -/
theorem scan_instruction_broken {body : Bytes} (closes : 0x3E ∉ body)
    (h : body.getLast? ≠ some 0x3F) (rest : Bytes) :
    Lexeme.scan (0x3C :: 0x3F :: (body ++ 0x3E :: rest)) = .broken (.unclosed .instruction) := by
  simp only [Lexeme.scan, if_pos]
  rw [if_neg (by decide), if_neg (by decide), scanInstruction, beforeClose_append closes]
  exact if_neg fun hc => h hc.2

theorem scan_declaration {inside : Bytes} (spaced : inside.head?.any isSpace = true)
    (closes : 0x3E ∉ inside) (rest : Bytes) :
    Lexeme.scan ((Lexeme.declaration ⟨declarationName, inside⟩).written ++ rest) =
      .found (.declaration ⟨declarationName, inside⟩) rest := by
  have hwritten : (Lexeme.declaration ⟨declarationName, inside⟩).written ++ rest =
      0x3C :: 0x3F :: (declarationName ++ inside ++ [0x3F] ++ 0x3E :: rest) := by
    simp [Lexeme.written]
  have hin : 0x3E ∉ declarationName ++ inside := by simpa [declarationName] using closes
  have hdecl : declares (declarationName ++ inside) = true := by
    simpa [declares, declarationName] using spaced
  rw [hwritten]
  simp only [Lexeme.scan, if_pos]
  rw [if_neg (by decide), if_neg (by decide),
    scanInstruction_append (by simp [declarationName]) hin, if_pos hdecl]
  simp [declarationName]

/-- A `Remark` is scanned as it is written. -/
theorem Remark.scan (r : Remark) (rest : Bytes) :
    Lexeme.scan (r.lexeme.written ++ rest) = .found r.lexeme rest := by
  cases r with
  | comment body closes => exact scan_comment closes rest
  | instruction body named closes other => exact scan_instruction named closes other rest

/-- So is a `Prelude`, which stands before the root. -/
theorem Prelude.scan (p : Prelude) (rest : Bytes) :
    Lexeme.scan (p.lexeme.written ++ rest) = .found p.lexeme rest := by
  cases p with
  | remark r => exact r.scan rest
  | declaration inside spaced closes => exact scan_declaration spaced closes rest
  | doctype d => exact d.scan rest

/-! ## Tags -/

/-- Bytes that a tag does not end in: behind `bs` the quotes are as before. -/
def Inert (bs : Bytes) : Prop :=
  ∀ more, closeTag none (bs ++ more) = (closeTag none more).map fun r => (bs ++ r.1, r.2)

theorem inert_of_forall {bs : Bytes} (h : ∀ b ∈ bs, b ≠ 0x3E ∧ b ≠ 0x22 ∧ b ≠ 0x27) :
    Inert bs := by
  intro more
  induction bs with
  | nil => simp
  | cons b bs ih =>
    rw [List.forall_mem_cons] at h
    obtain ⟨⟨h1, h2, h3⟩, hbs⟩ := h
    rw [List.cons_append, closeTag]
    simp only [if_neg h1, h2, h3, or_self, if_false, ih hbs, Option.map_map]
    rfl

theorem Inert.append {bs cs : Bytes} (hb : Inert bs) (hc : Inert cs) : Inert (bs ++ cs) := by
  intro more
  rw [List.append_assoc, hb, hc, Option.map_map]
  simp [Function.comp_def]

/-- A quote `q` closes the one that is open. -/
theorem closeTag_quoted {q : UInt8} {value : Bytes} (h : q ∉ value) (more : Bytes) :
    closeTag (some q) (value ++ q :: more) =
      (closeTag none more).map fun r => (value ++ q :: r.1, r.2) := by
  induction value with
  | nil => simp [closeTag]
  | cons b value ih =>
    simp only [List.mem_cons, not_or] at h
    rw [List.cons_append, closeTag]
    simp only [if_neg (Ne.symm h.1), ih h.2, Option.map_map]
    rfl

theorem inert_quoted {q : UInt8} {value : Bytes} (hq : q = 0x22 ∨ q = 0x27) (h : q ∉ value) :
    Inert (q :: (value ++ [q])) := by
  intro more
  have hne : q ≠ 0x3E := by rcases hq with rfl | rfl <;> decide
  rw [List.cons_append, closeTag]
  simp only [if_neg hne, if_pos hq]
  rw [List.append_assoc, List.singleton_append, closeTag_quoted h, Option.map_map]
  simp [Function.comp_def]

theorem Blanks.inert (b : Blanks) : Inert b.bytes := by
  refine inert_of_forall fun c hc => ?_
  have := List.all_eq_true.1 b.blank c hc
  refine ⟨?_, ?_, ?_⟩ <;> rintro rfl <;> exact absurd this (by decide)

theorem Name.isNameByte_of_mem (n : Name) {b : UInt8} (hb : b ∈ n.bytes) : isNameByte b = true :=
  List.all_eq_true.1 n.named b hb

theorem Name.inert (n : Name) : Inert n.bytes := by
  refine inert_of_forall fun c hc => ?_
  have := n.isNameByte_of_mem hc
  refine ⟨?_, ?_, ?_⟩ <;> rintro rfl <;> exact absurd this (by decide)

theorem Assignment.inert (a : Assignment) : Inert a.written := by
  have hequals : Inert [0x3D] := inert_of_forall (by simp)
  have h := a.space.inert.append (a.key.inert.append (a.left.inert.append
    (hequals.append (a.right.inert.append (inert_quoted a.quotes a.closes)))))
  simpa [written] using h

theorem inert_assignments (as : List Assignment) : Inert (as.flatMap Assignment.written) := by
  induction as with
  | nil => exact inert_of_forall (by simp)
  | cons a as ih => exact a.inert.append ih

theorem Tag.inert (t : Tag) : Inert (t.tag.name ++ t.tag.rest) :=
  t.name.inert.append ((inert_assignments t.assignments).append t.space.inert)

/-- A tag closes behind what is `Inert`. -/
theorem Inert.closeTag_eq {bs : Bytes} (h : Inert bs) (rest : Bytes) :
    closeTag none (bs ++ 0x3E :: rest) = some (bs, rest) := by
  rw [h]
  simp [closeTag]

/-- The first byte of what stands behind the name of the tag `t` is blank. -/
theorem Tag.rest_head (t : Tag) (b : UInt8) (hb : t.tag.rest.head? = some b) :
    isSpace b = true := by
  have hspace : ∀ (s : Blanks) (c : UInt8), s.bytes.head? = some c → isSpace c = true :=
    fun s c hc => List.all_eq_true.1 s.blank c (List.mem_of_mem_head? hc)
  simp only [tag] at hb
  cases ha : t.assignments with
  | nil => exact hspace t.space b (by simpa [ha] using hb)
  | cons a as =>
    obtain ⟨c, cs, hc⟩ := List.exists_cons_of_ne_nil a.spaced
    refine hspace a.space b ?_
    simpa [ha, Assignment.written, hc] using hb

theorem Tag.ofContent_tag (t : Tag) : Markup.Tag.ofContent (t.tag.name ++ t.tag.rest) = t.tag := by
  have hname : ∀ b ∈ t.tag.name, (!isSpace b) = true := by
    intro b hb
    have := t.name.isNameByte_of_mem hb
    simp only [isNameByte, isBlankByte, Bool.and_eq_true, Bool.not_eq_true', Bool.or_eq_false_iff]
      at this
    simp [this.1.1]
  have hrest : ∀ b, t.tag.rest.head? = some b → (!isSpace b) = false := by
    intro b hb
    simp [t.rest_head b hb]
  rw [Markup.Tag.ofContent, takeWhile_upTo hname hrest, dropWhile_upTo hname hrest]

/-- A start tag does not end in a slash. -/
theorem Tag.getLast?_ne (t : Tag) : (t.tag.name ++ t.tag.rest).getLast? ≠ some 0x2F := by
  have hspace : ∀ s : Blanks, s.bytes.getLast? ≠ some 0x2F := by
    intro s h
    exact absurd (List.all_eq_true.1 s.blank _ (List.mem_of_getLast? h)) (by decide)
  have hname : t.name.bytes.getLast? ≠ some 0x2F := by
    intro h
    exact absurd (t.name.isNameByte_of_mem (List.mem_of_getLast? h)) (by decide)
  -- the attributes end in a quote
  have has : (t.assignments.flatMap Assignment.written).getLast? ≠ some 0x2F := by
    induction t.assignments with
    | nil => simp
    | cons a as ih =>
      have ha : a.written.getLast? = some a.quote := by
        simp [Assignment.written, List.getLast?_append, List.getLast?_cons]
      rw [List.flatMap_cons, List.getLast?_append, ha]
      intro h
      rcases Option.or_eq_some_iff.1 h with h | ⟨-, h⟩
      · exact ih h
      · rcases a.quotes with hq | hq <;> simp [hq] at h
  intro h
  rw [tag, List.getLast?_append, List.getLast?_append] at h
  rcases Option.or_eq_some_iff.1 h with h | ⟨-, h⟩
  · rcases Option.or_eq_some_iff.1 h with h | ⟨-, h⟩
    · exact hspace t.space h
    · exact has h
  · exact hname h

theorem scan_of_ne {b : UInt8} (h : b ≠ 0x21 ∧ b ≠ 0x2F ∧ b ≠ 0x3F) (bs : Bytes) :
    Lexeme.scan (0x3C :: b :: bs) = scanTag (b :: bs) := by
  simp only [Lexeme.scan, if_pos, if_neg h.1, if_neg h.2.1, if_neg h.2.2]

/-- A tag is no construct that begins with `<!`, `</` or `<?`. -/
theorem Tag.scan_eq (t : Tag) (rest : Bytes) :
    Lexeme.scan (0x3C :: (t.tag.name ++ rest)) = scanTag (t.tag.name ++ rest) := by
  obtain ⟨c, cs, hc⟩ := List.exists_cons_of_ne_nil t.name.nonempty
  have hbyte : isNameByte c = true := t.name.isNameByte_of_mem (by simp [hc])
  have hne : c ≠ 0x21 ∧ c ≠ 0x2F ∧ c ≠ 0x3F := by
    refine ⟨?_, ?_, ?_⟩ <;> rintro rfl <;> exact absurd hbyte (by decide)
  rw [tag, hc]
  exact scan_of_ne hne _

/-- A start tag of the tag `t` is scanned as it is written. -/
theorem Tag.scan_start (t : Tag) (rest : Bytes) :
    Lexeme.scan ((Lexeme.startTag t.tag).written ++ rest) = .found (.startTag t.tag) rest := by
  have hclose := t.inert.closeTag_eq rest
  have hwritten : (Lexeme.startTag t.tag).written ++ rest =
      0x3C :: (t.tag.name ++ (t.tag.rest ++ 0x3E :: rest)) := by simp [Lexeme.written]
  rw [hwritten, t.scan_eq, ← List.append_assoc, scanTag, hclose]
  simp only [if_neg t.getLast?_ne, t.ofContent_tag]

/-- So is an empty-element tag of `t`. -/
theorem Tag.scan_empty (t : Tag) (rest : Bytes) :
    Lexeme.scan ((Lexeme.emptyTag t.tag).written ++ rest) = .found (.emptyTag t.tag) rest := by
  have hclose := (t.inert.append (@inert_of_forall [0x2F] (by simp))).closeTag_eq rest
  have hwritten : (Lexeme.emptyTag t.tag).written ++ rest =
      0x3C :: (t.tag.name ++ (t.tag.rest ++ [0x2F] ++ 0x3E :: rest)) := by simp [Lexeme.written]
  rw [hwritten, t.scan_eq, ← List.append_assoc, ← List.append_assoc, scanTag, hclose]
  simp only [List.getLast?_concat, if_pos, List.dropLast_concat, t.ofContent_tag]

theorem Tag.scan_end (t : Tag) (blanks : Blanks) (rest : Bytes) :
    Lexeme.scan ((t.endTag blanks).written ++ rest) = .found (t.endTag blanks) rest := by
  have hin : 0x3E ∉ t.name.bytes ++ blanks.bytes := by
    rw [List.mem_append]
    rintro (h | h)
    · exact absurd (t.name.isNameByte_of_mem h) (by decide)
    · exact absurd (List.all_eq_true.1 blanks.blank _ h) (by decide)
  have hwritten : (t.endTag blanks).written ++ rest =
      0x3C :: 0x2F :: (t.name.bytes ++ blanks.bytes ++ 0x3E :: rest) := by
    simp [endTag, Lexeme.written]
  rw [hwritten]
  simp only [Lexeme.scan, if_pos]
  rw [if_neg (by decide), beforeClose_append hin, afterClose_append hin, endTag]

/-- The blanks behind the name of an end tag do not count. -/
theorem Tag.endName_eq (t : Tag) (blanks : Blanks) :
    endName (t.name.bytes ++ blanks.bytes) = t.name.bytes := by
  have hname : ∀ b ∈ t.name.bytes, isBlankByte b = false := by
    intro b hb
    have := t.name.isNameByte_of_mem hb
    simp only [isNameByte, Bool.and_eq_true, Bool.not_eq_true'] at this
    exact this.1
  have hblanks : ∀ b ∈ blanks.bytes.reverse, isBlankByte b = true := by
    intro b hb
    simp [isBlankByte, List.all_eq_true.1 blanks.blank b (List.mem_reverse.1 hb)]
  have hall : (t.name.bytes ++ blanks.bytes).all isBlankByte = false := by
    obtain ⟨c, cs, hc⟩ := List.exists_cons_of_ne_nil t.name.nonempty
    simp [hc, hname c (by simp [hc])]
  -- the blanks are taken off from behind, up to the last byte of the name
  rw [endName, hall, List.reverse_append, dropWhile_upTo hblanks]
  · simp
  · intro b hb
    exact hname b (List.mem_reverse.1 (List.mem_of_mem_head? hb))

end Source

end Livery.Markup
