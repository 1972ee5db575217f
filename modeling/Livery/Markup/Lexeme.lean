import Livery.Markup.Fault
import Livery.Markup.Tag

/-!
# Lexemes

A text of markup is a sequence of lexemes: tags, runs of text, and constructs between `<!` or `<?`
and `>`. `Lexeme.scan` reads one of them; `Stream.scan` reads them all, each with the offset of its
first byte, up to the end of the text or the first fault.

- `Lexeme.written` is the text of a lexeme.
-/

namespace Livery.Markup

/-- A piece of markup. -/
inductive Lexeme where
  | text (bytes : Bytes)
  | cdata (bytes : Bytes)
  | comment (body : Bytes)
  | doctype (body : Bytes)
  | instruction (body : Bytes)
  | declaration (inside : Tag)
  | startTag (tag : Tag)
  | emptyTag (tag : Tag)
  /-- Everything between `</` and `>`. -/
  | endTag (name : Bytes)
  deriving DecidableEq, Repr

/-- What `Lexeme.scan` finds at the beginning of a text. -/
inductive Scan where
  | finished
  | broken (fault : Fault)
  | found (lexeme : Lexeme) (rest : Bytes)

/-- `!--` -/
def commentOpener : Bytes := [0x21, 0x2D, 0x2D]

/-- `![CDATA[` -/
def cdataOpener : Bytes := [0x21, 0x5B, 0x43, 0x44, 0x41, 0x54, 0x41, 0x5B]

/-- `!DOCTYPE` -/
def doctypeOpener : Bytes := [0x21, 0x44, 0x4F, 0x43, 0x54, 0x59, 0x50, 0x45]

/-- `xml` -/
def declarationName : Bytes := [0x78, 0x6D, 0x6C]

/-- A letter in upper case. -/
def upperByte (b : UInt8) : UInt8 := if 0x61 ≤ b ∧ b ≤ 0x7A then b - 0x20 else b

/-- Splits at the first `>` before which the bytes, given in reverse, satisfy `ends`. -/
def closeWhen (ends : Bytes → Bool) (reversed : Bytes) : Bytes → Option (Bytes × Bytes)
  | [] => none
  | b :: bs =>
    if b = 0x3E ∧ ends reversed then some (reversed.reverse, bs)
    else closeWhen ends (b :: reversed) bs

/-- The bytes so far, given in reverse, end a comment: at least five, the last two of them
hyphens. -/
def endsComment : Bytes → Bool
  | 0x2D :: 0x2D :: rest => 3 ≤ rest.length
  | _ => false

/-- The bytes so far, given in reverse, end a CDATA section: the last two are brackets. -/
def endsCdata : Bytes → Bool
  | 0x5D :: 0x5D :: _ => true
  | _ => false

/-- The bytes so far hold as many `<` as `>`. -/
def endsDoctype (reversed : Bytes) : Bool :=
  reversed.count 0x3C == reversed.count 0x3E

/-- Reads the construct that begins with `<!`, given from the `!` on. -/
def scanBang (bs : Bytes) : Scan :=
  match bs.tail with
  | [] => .broken (.unclosed .bang)
  | 0x5B :: _ =>
    match closeWhen endsCdata [] bs with
    | none => .broken (.unclosed .cdata)
    | some (inside, rest) =>
      if (inside.take 8).map upperByte = cdataOpener then
        .found (.cdata ((inside.drop 8).dropLast.dropLast)) rest
      else .broken (.unclosed .cdata)
  | 0x2D :: _ =>
    match closeWhen endsComment [] bs with
    | none => .broken (.unclosed .comment)
    | some (inside, rest) =>
      if inside.take 3 = commentOpener then
        .found (.comment ((inside.drop 3).dropLast.dropLast)) rest
      else .broken (.unclosed .comment)
  | b :: _ =>
    if b = 0x44 ∨ b = 0x64 then
      match closeWhen endsDoctype [] bs with
      | none => .broken (.unclosed .doctype)
      | some (inside, rest) =>
        if (inside.take 8).map upperByte = doctypeOpener then
          if (inside.drop 8).all isSpace then .broken .emptyDoctype
          else .found (.doctype (inside.drop 8)) rest
        else .broken (.unclosed .doctype)
    else .broken (.strayBang b)

/-- The bytes before the first `>`, or all of them. -/
def beforeClose (bs : Bytes) : Bytes := bs.takeWhile (· != 0x3E)

/-- The bytes behind the first `>`. -/
def afterClose (bs : Bytes) : Bytes := (bs.dropWhile (· != 0x3E)).tail

/-- Reads the construct that begins with `<?`, given behind the `?`. It may end with the text. -/
def scanInstruction (bs : Bytes) : Scan :=
  let inside := beforeClose bs
  if 2 ≤ inside.length ∧ inside.getLast? = some 0x3F then
    let body := inside.dropLast
    if body.take 3 = declarationName ∧ ((body.drop 3).head?.any isSpace) = true then
      .found (.declaration ⟨body.take 3, body.drop 3⟩) (afterClose bs)
    else .found (.instruction body) (afterClose bs)
  else .broken (.unclosed .instruction)

/-- Splits at the first `>` outside quotes, where `quote` is the one that is open. -/
def closeTag (quote : Option UInt8) : Bytes → Option (Bytes × Bytes)
  | [] => none
  | b :: bs =>
    match quote with
    | none =>
      if b = 0x3E then some ([], bs)
      else
        (closeTag (if b = 0x22 ∨ b = 0x27 then some b else none) bs).map fun r => (b :: r.1, r.2)
    | some q => (closeTag (if b = q then none else some q) bs).map fun r => (b :: r.1, r.2)

/-- Reads a start tag or an empty-element tag, given behind the `<`. -/
def scanTag (bs : Bytes) : Scan :=
  match closeTag none bs with
  | none => .broken (.unclosed .tag)
  | some (content, rest) =>
    if content.getLast? = some 0x2F then .found (.emptyTag (Tag.ofContent content.dropLast)) rest
    else .found (.startTag (Tag.ofContent content)) rest

/-- Reads the lexeme at the beginning of a text. A text ends also with a lone `<`, and an end tag
may end with the text. -/
def Lexeme.scan : Bytes → Scan
  | [] => .finished
  | b :: bs =>
    if b = 0x3C then
      match bs with
      | [] => .finished
      | c :: cs =>
        if c = 0x21 then scanBang (c :: cs)
        else if c = 0x2F then .found (.endTag (beforeClose cs)) (afterClose cs)
        else if c = 0x3F then scanInstruction cs
        else scanTag (c :: cs)
    else .found (.text ((b :: bs).takeWhile (· != 0x3C))) ((b :: bs).dropWhile (· != 0x3C))

/-- The text of a lexeme, as `scan` found it. -/
def Lexeme.written : Lexeme → Bytes
  | .text bytes => bytes
  | .cdata bytes => 0x3C :: cdataOpener ++ bytes ++ [0x5D, 0x5D, 0x3E]
  | .comment body => 0x3C :: commentOpener ++ body ++ [0x2D, 0x2D, 0x3E]
  | .doctype body => 0x3C :: doctypeOpener ++ body ++ [0x3E]
  | .instruction body => [0x3C, 0x3F] ++ body ++ [0x3F, 0x3E]
  | .declaration inside => [0x3C, 0x3F] ++ inside.name ++ inside.rest ++ [0x3F, 0x3E]
  | .startTag tag => 0x3C :: tag.name ++ tag.rest ++ [0x3E]
  | .emptyTag tag => 0x3C :: tag.name ++ tag.rest ++ [0x2F, 0x3E]
  | .endTag name => [0x3C, 0x2F] ++ name ++ [0x3E]

theorem closeWhen_length_lt {ends : Bytes → Bool} {bs rev inside rest : Bytes}
    (h : closeWhen ends rev bs = some (inside, rest)) : rest.length < bs.length := by
  induction bs generalizing rev with
  | nil => simp [closeWhen] at h
  | cons b bs ih =>
    unfold closeWhen at h
    split at h
    · simp only [Option.some.injEq, Prod.mk.injEq] at h
      simp [h.2]
    · have := ih h
      simp only [List.length_cons]; omega

theorem closeTag_length_lt {quote : Option UInt8} {bs content rest : Bytes}
    (h : closeTag quote bs = some (content, rest)) : rest.length < bs.length := by
  induction bs generalizing quote content rest with
  | nil => simp [closeTag] at h
  | cons b bs ih =>
    unfold closeTag at h
    cases quote with
    | none =>
      simp only at h
      split at h
      · simp only [Option.some.injEq, Prod.mk.injEq] at h
        simp [h.2]
      · obtain ⟨⟨c, r⟩, hr, hh⟩ := Option.map_eq_some_iff.1 h
        have := ih hr
        simp only [Prod.mk.injEq] at hh
        simp only [List.length_cons, ← hh.2]; omega
    | some q =>
      simp only at h
      obtain ⟨⟨c, r⟩, hr, hh⟩ := Option.map_eq_some_iff.1 h
      have := ih hr
      simp only [Prod.mk.injEq] at hh
      simp only [List.length_cons, ← hh.2]; omega

theorem afterClose_length_le (bs : Bytes) : (afterClose bs).length ≤ bs.length := by
  unfold afterClose
  have := (List.dropWhile_sublist (· != (0x3E : UInt8)) (l := bs)).length_le
  rw [List.length_tail]; omega

theorem scanBang_length_lt {bs : Bytes} {l : Lexeme} {rest : Bytes}
    (h : scanBang bs = .found l rest) : rest.length < bs.length := by
  unfold scanBang at h
  grind [→ closeWhen_length_lt]

theorem scanInstruction_length_le {bs : Bytes} {l : Lexeme} {rest : Bytes}
    (h : scanInstruction bs = .found l rest) : rest.length ≤ bs.length := by
  unfold scanInstruction at h
  grind [afterClose_length_le]

theorem scanTag_length_lt {bs : Bytes} {l : Lexeme} {rest : Bytes}
    (h : scanTag bs = .found l rest) : rest.length < bs.length := by
  unfold scanTag at h
  grind [→ closeTag_length_lt]

/-- **Every lexeme that `scan` finds takes at least one byte.** -/
theorem Lexeme.scan_length_lt {bs : Bytes} {l : Lexeme} {rest : Bytes}
    (h : Lexeme.scan bs = .found l rest) : rest.length < bs.length := by
  unfold Lexeme.scan at h
  split at h
  · cases h
  · next b bs =>
    split at h
    · split at h
      · cases h
      · next c cs =>
        split at h
        · have := scanBang_length_lt h; simp only [List.length_cons] at this ⊢; omega
        · split at h
          · simp only [Scan.found.injEq] at h
            have := afterClose_length_le cs
            simp only [List.length_cons, ← h.2]; omega
          · split at h
            · have := scanInstruction_length_le h; simp only [List.length_cons] at this ⊢; omega
            · have := scanTag_length_lt h; simp only [List.length_cons] at this ⊢; omega
    · next hb =>
      simp only [Scan.found.injEq] at h
      rw [← h.2, List.dropWhile_cons_of_pos (by simpa using hb)]
      have := (List.dropWhile_sublist (· != (0x3C : UInt8)) (l := bs)).length_le
      simp only [List.length_cons]; omega

/-- The lexemes of a text, each with the `offset` of its first byte. -/
inductive Stream where
  /-- The end of the text, and the offset under which it is reported. -/
  | finished (offset : Nat)
  | broken (offset : Nat) (fault : Fault)
  | next (offset : Nat) (lexeme : Lexeme) (rest : Stream)

/-- Reads all lexemes of the text `bs`, which begins at `offset`. The end of a text behind a run of
text is reported at the last byte of that run. -/
def Stream.scan (offset : Nat) (bs : Bytes) : Stream :=
  match _h : Lexeme.scan bs with
  | .finished => .finished offset
  | .broken fault => .broken offset fault
  | .found lexeme rest =>
    match lexeme, rest with
    | .text bytes, [] => .next offset lexeme (.finished (offset + bytes.length - 1))
    | _, rest => .next offset lexeme (Stream.scan (offset + (bs.length - rest.length)) rest)
termination_by bs.length
decreasing_by exact Lexeme.scan_length_lt (by assumption)

end Livery.Markup
