import Livery.Markup.Charset.CodePage
import Livery.Markup.Tag
import Livery.Text.Blank

/-!
# Charsets

Markup is scanned as bytes; only attribute values are read in a charset. A text is taken for UTF-8
until a byte-order mark or an XML declaration says otherwise.

- `Decoders` is a parameter: it reads the charsets whose tables belong to a library;
- `Charset.decode?` is strict: bytes that form no text have none;
- `Charset.ofLabel?` knows the labels of the encoding standard;
- `withoutMark` takes a byte-order mark off a text and tells the charset it announces.
-/

namespace Livery.Markup

/-- The charsets that have several bytes for a character beyond ASCII, and tables of their own. -/
inductive Multibyte where
  | gbk
  | gb18030
  | big5
  | eucJp
  | iso2022Jp
  | shiftJis
  | eucKr
  deriving DecidableEq, Repr

/-- The decoders of the `Multibyte` charsets. Nothing is taken for granted about what they read. -/
class Decoders where
  /-- The text of `bytes` in `charset`, if they form one there. -/
  decode? (charset : Multibyte) (bytes : Bytes) : Option String

/-- How the bytes of a value stand for characters. -/
inductive Charset where
  | utf8
  | utf16 (bigEndian : Bool)
  | codePage (page : CodePage)
  /-- Bytes above 0x7F stand for the private characters from U+F780 on. -/
  | userDefined
  | multibyte (charset : Multibyte)
  /-- A charset that is known and refused: no value can be read in it. -/
  | refused
  deriving DecidableEq, Repr

namespace Charset

/-- The code units of two bytes each, if the bytes come in pairs. `bigEndian` says which byte counts
more. -/
def units? (bigEndian : Bool) : Bytes → Option (List Nat)
  | [] => some []
  | [_] => none
  | a :: b :: rest =>
    let unit := if bigEndian then a.toNat * 256 + b.toNat else b.toNat * 256 + a.toNat
    (units? bigEndian rest).map (unit :: ·)

/-- The characters of the code units, if every surrogate has its partner. -/
def ofUnits? : List Nat → Option (List Char)
  | [] => some []
  | u :: us =>
    if u < 0xD800 ∨ 0xDFFF < u then (ofUnits? us).map (Char.ofNat u :: ·)
    else if 0xDC00 ≤ u then none
    else
      match us with
      | [] => none
      | v :: vs =>
        if 0xDC00 ≤ v ∧ v ≤ 0xDFFF then
          (ofUnits? vs).map
            (Char.ofNat (0x10000 + (u - 0xD800) * 0x400 + (v - 0xDC00)) :: ·)
        else none

/-- The text of some bytes, if they form one. What a `multibyte` charset reads is up to the
`Decoders`. -/
def decode? [Decoders] : Charset → Bytes → Option String
  | .utf8, bs => Text.Utf8.decode? bs
  | .utf16 bigEndian, bs => ((units? bigEndian bs).bind ofUnits?).map String.ofList
  | .codePage page, bs => (bs.mapM page.char?).map String.ofList
  | .userDefined, bs =>
    some (String.ofList (bs.map fun b =>
      if b.toNat < 0x80 then Char.ofNat b.toNat else Char.ofNat (0xF700 + b.toNat)))
  | .multibyte charset, bs => Decoders.decode? charset bs
  | .refused, bs => if bs.isEmpty then some "" else none

/-- The labels of the charsets that are no `CodePage`s. -/
def labels : List (Charset × List String) :=
  [(.utf8,
     ["unicode-1-1-utf-8", "unicode11utf8", "unicode20utf8", "utf-8", "utf8", "x-unicode20utf8"]),
   (.utf16 false,
     ["csunicode", "iso-10646-ucs-2", "ucs-2", "unicode", "unicodefeff", "utf-16", "utf-16le"]),
   (.utf16 true, ["unicodefffe", "utf-16be"]),
   (.userDefined, ["x-user-defined"]),
   (.multibyte .gbk,
     ["chinese", "csgb2312", "csiso58gb231280", "gb2312", "gb_2312", "gb_2312-80", "gbk",
      "iso-ir-58", "x-gbk"]),
   (.multibyte .gb18030, ["gb18030"]),
   (.multibyte .big5, ["big5", "big5-hkscs", "cn-big5", "csbig5", "x-x-big5"]),
   (.multibyte .eucJp, ["cseucpkdfmtjapanese", "euc-jp", "x-euc-jp"]),
   (.multibyte .iso2022Jp, ["csiso2022jp", "iso-2022-jp"]),
   (.multibyte .shiftJis,
     ["csshiftjis", "ms932", "ms_kanji", "shift-jis", "shift_jis", "sjis", "windows-31j",
      "x-sjis"]),
   (.multibyte .eucKr,
     ["cseuckr", "csksc56011987", "euc-kr", "iso-ir-149", "korean", "ks_c_5601-1987",
      "ks_c_5601-1989", "ksc5601", "ksc_5601", "windows-949"]),
   (.refused,
     ["csiso2022kr", "hz-gb-2312", "iso-2022-cn", "iso-2022-cn-ext", "iso-2022-kr",
      "replacement"])]

/-- The charset of a label given as `bytes`, in any letter case and with blanks around it. -/
def ofLabel? (bytes : Bytes) : Option Charset :=
  let inner := ((bytes.dropWhile isBlankByte).reverse.dropWhile isBlankByte).reverse
  match Text.Utf8.decode? inner with
  | none => none
  | some label =>
    let l := Text.lower label
    match CodePage.labels.find? (·.2.contains l) with
    | some (page, _) => some (.codePage page)
    | none => (labels.find? (·.2.contains l)).map (·.1)

/-- The charset that an XML declaration names, given its inside. Only an `encoding` attribute before
the first malformed one counts. -/
def ofDeclaration? (declaration : Tag) : Option Charset :=
  (declaration.uncheckedAttributes.attributes.find? (·.key == Text.Utf8.encode "encoding")).bind
    (ofLabel? ·.value)

end Charset

/-- The `charset` of a text so far, and whether a declaration has already fixed it. -/
structure CharsetState where
  charset : Charset
  declared : Bool := false
  deriving DecidableEq, Repr

/-- The state behind an XML declaration: the first one that names a charset known to `ofLabel?`
counts. -/
def CharsetState.afterDeclaration (s : CharsetState) (declaration : Tag) : CharsetState :=
  if s.declared then s
  else
    match Charset.ofDeclaration? declaration with
    | some charset => ⟨charset, true⟩
    | none => s

/-- The charset that the first bytes of a text announce, and the text without its byte-order mark.
Two units of UTF-16 that spell `<?` announce it without a mark. -/
def withoutMark : Bytes → Charset × Bytes
  | 0xEF :: 0xBB :: 0xBF :: rest => (.utf8, rest)
  | 0xFF :: 0xFE :: rest => (.utf16 false, rest)
  | 0xFE :: 0xFF :: rest => (.utf16 true, rest)
  | 0x00 :: 0x3C :: 0x00 :: 0x3F :: rest => (.utf16 true, 0x00 :: 0x3C :: 0x00 :: 0x3F :: rest)
  | 0x3C :: 0x00 :: 0x3F :: 0x00 :: rest => (.utf16 false, 0x3C :: 0x00 :: 0x3F :: 0x00 :: rest)
  | bs => (.utf8, bs)

end Livery.Markup
