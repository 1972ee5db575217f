import Livery.Text.Utf8

/-!
# Tags

The inside of a tag, as raw bytes: a name and then attributes. Names reach up to the first blank and
may hold any other byte; attributes are read from left to right until the first one that is
malformed.

- `Tag.attributes` checks that no key comes twice, `Tag.uncheckedAttributes` does not.
-/

namespace Livery.Markup

/-- Blank bytes between the parts of a tag: space, tab, line feed and carriage return. -/
def isSpace (b : UInt8) : Bool :=
  b == 0x20 || b == 0x09 || b == 0x0A || b == 0x0D

/-- Blank bytes in text and at the end of names: those of `isSpace` and the form feed. -/
def isBlankByte (b : UInt8) : Bool :=
  isSpace b || b == 0x0C

/-- The inside of a start tag or an empty-element tag: its `name` and all that follows. -/
structure Tag where
  name : Bytes
  rest : Bytes
  deriving DecidableEq, Repr

/-- Splits the inside `content` of a tag behind its name. -/
def Tag.ofContent (content : Bytes) : Tag :=
  ⟨content.takeWhile (!isSpace ·), content.dropWhile (!isSpace ·)⟩

/-- An attribute with its `value` as it is written. -/
structure Attribute where
  key : Bytes
  value : Bytes
  deriving DecidableEq, Repr

/-- What is wrong with an attribute. Offsets count from the start of the tag's name. -/
inductive AttributeFault where
  | expectedEquals (offset : Nat)
  | expectedValue (offset : Nat)
  | unquoted (offset : Nat)
  | unclosed (offset : Nat) (quote : UInt8)
  | duplicated (offset previous : Nat)
  deriving DecidableEq, Repr

def AttributeFault.message : AttributeFault → String
  | .expectedEquals offset =>
    s!"position {offset}: attribute key must be directly followed by `=` or space"
  | .expectedValue offset => s!"position {offset}: `=` must be followed by an attribute value"
  | .unquoted offset =>
    s!"position {offset}: attribute value must be enclosed in `\"` or `'`"
  | .unclosed offset quote =>
    s!"position {offset}: missing closing quote `" ++ String.ofList [Char.ofNat quote.toNat] ++
      "` in attribute value"
  | .duplicated offset previous =>
    s!"position {offset}: duplicated attribute, previous declaration at position {previous}"

/-- What one reading of an attribute finds. A keyed outcome tells the `start` of the key. -/
inductive AttributeItem where
  | found (start : Nat) (entry : Attribute)
  | faulty (start : Nat) (key : Bytes) (fault : AttributeFault)
  | keyless (fault : AttributeFault)
  deriving DecidableEq, Repr

/-- Reads the value behind `=`, where `offset` is the place of the first byte given. Gives back the
value and what follows its closing quote. -/
def quotedValue (offset : Nat) (bs : Bytes) : Except AttributeFault (Bytes × Bytes) :=
  let blanks := bs.takeWhile isSpace
  match bs.dropWhile isSpace with
  | [] => .error (.expectedValue (offset + bs.length))
  | q :: r =>
    if q = 0x22 ∨ q = 0x27 then
      match r.dropWhile (· != q) with
      | [] => .error (.unclosed (offset + bs.length) q)
      | _ :: after => .ok (r.takeWhile (· != q), after)
    else .error (.unquoted (offset + blanks.length))

/-- The key that begins at the first of the bytes given: that byte and all up to `=` or a blank. -/
def keyOf (b : UInt8) (bs : Bytes) : Bytes :=
  b :: bs.takeWhile fun c => c != 0x3D && !isSpace c

/-- What follows the key that `keyOf` reads. -/
def afterKey (bs : Bytes) : Bytes :=
  bs.dropWhile fun c => c != 0x3D && !isSpace c

theorem afterKey_length_le (bs : Bytes) : (afterKey bs).length ≤ bs.length :=
  (List.dropWhile_sublist _).length_le

theorem quotedValue_length_lt {offset : Nat} {bs value after : Bytes}
    (h : quotedValue offset bs = .ok (value, after)) : after.length < bs.length := by
  unfold quotedValue at h
  have h1 : (bs.dropWhile isSpace).length ≤ bs.length := (List.dropWhile_sublist _).length_le
  cases hd : bs.dropWhile isSpace with
  | nil => simp [hd] at h
  | cons q r =>
    simp only [hd] at h
    split at h
    · have h2 : (r.dropWhile (· != q)).length ≤ r.length := (List.dropWhile_sublist _).length_le
      cases hr : r.dropWhile (· != q) with
      | nil => simp [hr] at h
      | cons x xs =>
        simp only [hr, Except.ok.injEq, Prod.mk.injEq] at h
        rw [hr] at h2; rw [hd] at h1
        simp only [List.length_cons] at h1 h2
        rw [← h.2]; omega
    · cases h

/-- The attributes of the bytes given, the first of which stands at `offset`, up to and with the
first fault. -/
def attributeItems (offset : Nat) (bs : Bytes) : List AttributeItem :=
  let start := offset + (bs.takeWhile isSpace).length
  match _hd : bs.dropWhile isSpace with
  | [] => []
  | b :: r =>
    let key := keyOf b r
    let gap := (afterKey r).takeWhile isSpace
    match _he : (afterKey r).dropWhile isSpace with
    | [] => [.keyless (.expectedEquals (offset + bs.length))]
    | e :: v =>
      let equals := start + key.length + gap.length
      if e = 0x3D then
        match _hv : quotedValue (equals + 1) v with
        | .error fault => [.faulty start key fault]
        | .ok (value, after) =>
          .found start ⟨key, value⟩ :: attributeItems (offset + (bs.length - after.length)) after
      else [.keyless (.expectedEquals equals)]
termination_by bs.length
decreasing_by
  have h1 : (bs.dropWhile isSpace).length ≤ bs.length := (List.dropWhile_sublist _).length_le
  have h2 := afterKey_length_le r
  have h3 : ((afterKey r).dropWhile isSpace).length ≤ (afterKey r).length :=
    (List.dropWhile_sublist _).length_le
  have h4 := quotedValue_length_lt _hv
  rw [_hd] at h1; rw [_he] at h3
  simp only [List.length_cons] at h1 h3
  omega

/-- The `attributes` in order up to the first fault, and that fault. -/
structure AttributeList where
  attributes : List Attribute
  fault : Option AttributeFault
  deriving DecidableEq, Repr

/-- The attributes that were `found`, whatever their keys. -/
def AttributeList.unchecked : List AttributeItem → AttributeList
  | [] => ⟨[], none⟩
  | .found _ a :: rest =>
    let l := unchecked rest
    ⟨a :: l.attributes, l.fault⟩
  | .faulty _ _ fault :: _ => ⟨[], some fault⟩
  | .keyless fault :: _ => ⟨[], some fault⟩

/-- The attributes as long as no key comes twice, where `seen` holds the earlier keys with their
places. A key that comes again is the fault, whatever follows it. -/
def AttributeList.checked (seen : List (Bytes × Nat)) : List AttributeItem → AttributeList
  | [] => ⟨[], none⟩
  | .found start a :: rest =>
    match seen.lookup a.key with
    | some previous => ⟨[], some (.duplicated start previous)⟩
    | none =>
      let l := checked ((a.key, start) :: seen) rest
      ⟨a :: l.attributes, l.fault⟩
  | .faulty start key fault :: _ =>
    match seen.lookup key with
    | some previous => ⟨[], some (.duplicated start previous)⟩
    | none => ⟨[], some fault⟩
  | .keyless fault :: _ => ⟨[], some fault⟩

/-- The attributes of the tag `t`; a repeated key is a fault. -/
def Tag.attributes (t : Tag) : AttributeList :=
  .checked [] (attributeItems t.name.length t.rest)

/-- The attributes of the tag `t`; keys may repeat. -/
def Tag.uncheckedAttributes (t : Tag) : AttributeList :=
  .unchecked (attributeItems t.name.length t.rest)

/-- The part of the name `name` before its first colon, if it has one. -/
def qualifier? (name : Bytes) : Option Bytes :=
  if name.contains 0x3A then some (name.takeWhile (· != 0x3A)) else none

/-- The part of the name `name` behind its first colon, or all of it. -/
def localPart (name : Bytes) : Bytes :=
  if name.contains 0x3A then (name.dropWhile (· != 0x3A)).tail else name

/-- The `localPart` of the name of the tag `t` as text. -/
def Tag.localName (t : Tag) : String := Text.Utf8.decodeLossy (localPart t.name)

/-- The name of the tag `t`, prefix and all, as text. -/
def Tag.fullName (t : Tag) : String := Text.Utf8.decodeLossy t.name

end Livery.Markup
