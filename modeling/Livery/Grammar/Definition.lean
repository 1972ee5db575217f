import Livery.Markup.Content
import Livery.Markup.Entity
import Livery.Markup.Scope

/-!
# Grammar definitions

The file of a base grammar: markup whose root carries a name, extensions and a list of colours. Only
those are read. Namespaces do not count, a field may also be written as a child element, and the
values are kept as they stand; what they mean is decided after the whole file is read.

- `Definition.read` reads a text.
-/

namespace Livery

open Markup (Content Element)

namespace Definition

/-- Why a text is no grammar `Definition`. -/
inductive Fault where
  | markup (fault : Markup.Fault)
  | endOfText
  | noRoot
  | malformedAttribute (fault : Markup.AttributeFault)
  | undecodable
  | entity (fault : Markup.EntityFault)
  /-- Text among the colours. -/
  | strayText
  /-- A field's element that holds another element. -/
  | nestedElement
  | missingField (key : String)
  | duplicateField (key : String)
  deriving DecidableEq, Repr

/-- A text that is no grammar definition, and the `Fault` that says why. -/
structure Refusal where
  text : String
  fault : Fault
  deriving DecidableEq, Repr

/-! ## Text -/

/-- A piece of character data: text with references, or literal text. -/
inductive Piece where
  | text (bytes : Bytes)
  | literal (bytes : Bytes)

/-- Bytes without the blanks in front. -/
def trimFront (bs : Bytes) : Bytes := bs.dropWhile Markup.isSpace

/-- Bytes without the blanks at the end. -/
def trimBack (bs : Bytes) : Bytes := (bs.reverse.dropWhile Markup.isSpace).reverse

/-- The text of a value whose references `Markup.unescape` resolves. -/
def value (bs : Bytes) : Except Fault String :=
  match Text.Utf8.decode? bs with
  | none => .error .undecodable
  | some s =>
    match Markup.unescape s with
    | .ok v => .ok v
    | .error fault => .error (.entity fault)

/-- The text of one `Piece`. -/
def Piece.value : Piece → Except Fault String
  | .text bs => Definition.value bs
  | .literal bs =>
    match Text.Utf8.decode? bs with
    | none => .error .undecodable
    | some s => .ok s

/-- A run without the blank texts in front, and the blanks in front of the first text. -/
def trimRunFront : List Piece → List Piece
  | .text bs :: rest =>
    if bs.all Markup.isSpace then trimRunFront rest else .text (trimFront bs) :: rest
  | run => run

/-- A run without the blanks at the end of its last text. -/
def trimRunBack : List Piece → List Piece
  | [] => []
  | [.text bs] => [.text (trimBack bs)]
  | p :: rest => p :: trimRunBack rest

/-- The character data of the pieces of `run`, trimmed at both ends: `none` if it is only blank
text. -/
def settle (run : List Piece) : Except Fault (Option String) :=
  match trimRunFront run with
  | [] => .ok none
  | run => do
    let parts ← (trimRunBack run).mapM Piece.value
    pure (some (String.join parts))

/-- A comment, an instruction or a declaration, which leaves no trace. A `doctype` does. -/
def leavesNoTrace : Markup.Lexeme → Bool
  | .doctype _ => false
  | _ => true

/-! ## Elements -/

/-- Passes over the `Content` of an element unread. -/
def passOver : Content → Except Fault Unit
  | .closed => .ok ()
  | .ended _ => .error .endOfText
  | .broken _ fault => .error (.markup fault)
  | .text _ _ more => passOver more
  | .cdata _ _ more => passOver more
  | .remark _ more => passOver more
  | .empty _ more => passOver more
  | .element _ inner more => do
    passOver inner
    passOver more

/-- Passes over the content of an element, where its character data must be sound. `run` is the
character data so far. -/
def readOver (run : List Piece) : Content → Except Fault Unit
  | .closed => do
    let _ ← settle run
    pure ()
  | .ended _ => do
    let _ ← settle run
    .error .endOfText
  | .broken _ fault => do
    let _ ← settle run
    .error (.markup fault)
  | .text _ bs more => readOver (run ++ [.text bs]) more
  | .cdata _ bs more => readOver (run ++ [.literal bs]) more
  | .remark lexeme more => do
    if leavesNoTrace lexeme then readOver run more
    else
      let _ ← settle run
      readOver [] more
  | .empty _ more => do
    let _ ← settle run
    readOver [] more
  | .element _ inner more => do
    let _ ← settle run
    readOver [] inner
    readOver [] more

/-- The character data of an element that holds nothing else, behind the pieces of `run`. -/
def textOf (run : List Piece) : Content → Except Fault String
  | .closed => do
    let text ← settle run
    pure (text.getD "")
  | .ended _ => .error .endOfText
  | .broken _ fault => .error (.markup fault)
  | .text _ bs more => textOf (run ++ [.text bs]) more
  | .cdata _ bs more => textOf (run ++ [.literal bs]) more
  | .remark _ more => textOf run more
  | .empty _ _ => .error .nestedElement
  | .element _ _ _ => .error .nestedElement

/-- Field values by their keys, as `attributeKey` gives them for attributes. -/
abbrev Fields := List (String × String)

/-- Adds the value `v` of the field `key`, which must be new in `fields`. -/
def addField (fields : Fields) (key : String) (v : Unit → Except Fault String) :
    Except Fault Fields :=
  if (fields.lookup key).isSome then .error (.duplicateField key)
  else do
    let s ← v ()
    pure (fields ++ [(key, s)])

/-- The field that an attribute gives: its local name behind `@`. Namespace declarations keep their
full names. -/
def attributeKey (key : Bytes) : String :=
  let name := if (Markup.declaredPrefix? key).isSome then key else Markup.localPart key
  "@" ++ Text.Utf8.decodeLossy name

/-- Reads attributes into `fields`, those whose keys are not `known` left unread. -/
def attributeFields (known : List String) (fields : Fields) :
    List Markup.Attribute → Except Fault Fields
  | [] => .ok fields
  | a :: rest => do
    let key := attributeKey a.key
    let fields ←
      if key ∈ known then addField fields key fun _ => value a.value else pure fields
    attributeFields known fields rest

/-- Reads the attributes of the tag `t` into `fields`. -/
def tagFields (known : List String) (t : Markup.Tag) : Except Fault Fields := do
  let list := t.attributes
  let fields ← attributeFields known [] list.attributes
  match list.fault with
  | none => pure fields
  | some fault => .error (.malformedAttribute fault)

/-- Reads the child element `e` with the content `inner`: into a field if its name is one of
`known`. -/
def childField (known : List String) (fields : Fields) (e : Element) (inner : Content) :
    Except Fault Fields :=
  let key := e.tag.localName
  if key ∈ known then addField fields key fun _ => textOf [] inner
  else do
    passOver inner
    pure fields

/-- Reads the children of an element into `fields`. Their character data, `run` so far, must be
sound. -/
def childFields (known : List String) (fields : Fields) (run : List Piece) :
    Content → Except Fault Fields
  | .closed => do
    let _ ← settle run
    pure fields
  | .ended _ => do
    let _ ← settle run
    .error .endOfText
  | .broken _ fault => do
    let _ ← settle run
    .error (.markup fault)
  | .text _ bs more => childFields known fields (run ++ [.text bs]) more
  | .cdata _ bs more => childFields known fields (run ++ [.literal bs]) more
  | .remark lexeme more => do
    if leavesNoTrace lexeme then childFields known fields run more
    else
      let _ ← settle run
      childFields known fields [] more
  | .empty e more => do
    let _ ← settle run
    let fields ← childField known fields e .closed
    childFields known fields [] more
  | .element e inner more => do
    let _ ← settle run
    let fields ← childField known fields e inner
    childFields known fields [] more

/-- The value of the field `key`, which must be there. -/
def required (fields : Fields) (key : String) : Except Fault String :=
  match fields.lookup key with
  | some v => .ok v
  | none => .error (.missingField key)

/-! ## Colours -/

/-- A `Color` element of a definition, its values as they are written. -/
structure ColorEntry where
  name : String
  foreground : Option String := none
  background : Option String := none
  fontWeight : Option String := none
  fontStyle : Option String := none
  underline : Option String := none
  deriving DecidableEq, Repr

def colorKeys : List String :=
  ["@name", "@foreground", "@background", "@fontWeight", "@fontStyle", "@underline"]

/-- Reads the `Color` element `e` with the content `inner`. -/
def colorEntry (e : Element) (inner : Content) : Except Fault ColorEntry := do
  let fields ← tagFields colorKeys e.tag
  let fields ← childFields colorKeys fields [] inner
  let name ← required fields "@name"
  pure { name, foreground := fields.lookup "@foreground", background := fields.lookup "@background",
         fontWeight := fields.lookup "@fontWeight", fontStyle := fields.lookup "@fontStyle",
         underline := fields.lookup "@underline" }

/-- Refuses the character data of `run` among the colours. -/
def noText (run : List Piece) : Except Fault Unit := do
  match ← settle run with
  | none => pure ()
  | some _ => .error .strayText

/-- Reads the elements called `name` up to the end of the root as colours. The other elements are
set aside. -/
def colorList (name : Bytes) (run : List Piece) :
    Content → Except Fault (List ColorEntry × List (Element × Content))
  | .closed => do
    noText run
    pure ([], [])
  | .ended _ => do
    noText run
    .error .endOfText
  | .broken _ fault => do
    noText run
    .error (.markup fault)
  | .text _ bs more => colorList name (run ++ [.text bs]) more
  | .cdata _ bs more => colorList name (run ++ [.literal bs]) more
  | .remark lexeme more => do
    if leavesNoTrace lexeme then colorList name run more
    else
      noText run
      colorList name [] more
  | .empty e more => do
    noText run
    if e.tag.name = name then
      let c ← colorEntry e .closed
      let (cs, aside) ← colorList name [] more
      pure (c :: cs, aside)
    else
      let (cs, aside) ← colorList name [] more
      pure (cs, (e, .closed) :: aside)
  | .element e inner more => do
    noText run
    if e.tag.name = name then
      let c ← colorEntry e inner
      let (cs, aside) ← colorList name [] more
      pure (c :: cs, aside)
    else
      readOver [] inner
      let (cs, aside) ← colorList name [] more
      pure (cs, (e, inner) :: aside)

/-! ## Definitions -/

def rootKeys : List String := ["@name", "@extensions"]

/-- Reads an element that `colorList` set aside. A second list of colours may not begin here. -/
def asideField (fields : Fields) (aside : Element × Content) : Except Fault Fields :=
  if aside.1.tag.localName = "Color" then .error (.duplicateField "Color")
  else childField rootKeys fields aside.1 aside.2

end Definition

/-- What a grammar file says, nothing in it parsed yet. -/
structure Definition where
  name : String
  extensions : Option String := none
  colors : List Definition.ColorEntry := []
  deriving DecidableEq, Repr

namespace Definition

/-- The definition of `fields` and `colors`. -/
def ofFields (fields : Fields) (colors : List ColorEntry) : Except Fault Definition := do
  let name ← required fields "@name"
  pure { name, extensions := fields.lookup "@extensions", colors }

/-- Reads the colours, elements called `name`, and all that follows them in the root. -/
def fromColors (fields : Fields) (name : Bytes) (content : Content) : Except Fault Definition := do
  let (colors, aside) ← colorList name [] content
  let fields ← aside.foldlM asideField fields
  ofFields fields colors

/-- Reads the content of the root. The first element called `Color` begins the list of colours. -/
def rootContent (fields : Fields) (run : List Piece) : Content → Except Fault Definition
  | .closed => do
    let _ ← settle run
    ofFields fields []
  | .ended _ => do
    let _ ← settle run
    .error .endOfText
  | .broken _ fault => do
    let _ ← settle run
    .error (.markup fault)
  | .text _ bs more => rootContent fields (run ++ [.text bs]) more
  | .cdata _ bs more => rootContent fields (run ++ [.literal bs]) more
  | .remark lexeme more => do
    if leavesNoTrace lexeme then rootContent fields run more
    else
      let _ ← settle run
      rootContent fields [] more
  | .empty e more => do
    let _ ← settle run
    if e.tag.localName = "Color" then fromColors fields e.tag.name (.empty e more)
    else
      let fields ← childField rootKeys fields e .closed
      rootContent fields [] more
  | .element e inner more => do
    let _ ← settle run
    if e.tag.localName = "Color" then fromColors fields e.tag.name (.element e inner more)
    else
      let fields ← childField rootKeys fields e inner
      rootContent fields [] more

/-- Reads the root element `e` with the content `inner`. -/
def root (e : Element) (inner : Content) : Except Fault Definition := do
  let fields ← tagFields rootKeys e.tag
  rootContent fields [] inner

/-- Reads a text up to the end of its root element, in front of which `run` may hold only blank
text. -/
def document (run : List Piece) : Content → Except Fault Definition
  | .closed => .error .noRoot
  | .ended _ => .error .noRoot
  | .broken _ fault => .error (.markup fault)
  | .text _ bs more => document (run ++ [.text bs]) more
  | .cdata _ bs more => document (run ++ [.literal bs]) more
  | .remark lexeme more => do
    if leavesNoTrace lexeme then document run more
    else
      match ← settle run with
      | none => document [] more
      | some _ => .error .noRoot
  | .empty e _ => do
    match ← settle run with
    | none => root e .closed
    | some _ => .error .noRoot
  | .element e inner _ => do
    match ← settle run with
    | none => root e inner
    | some _ => .error .noRoot

/-- Reads the text `s` of a grammar file. -/
def read [Markup.Decoders] (s : String) : Except Refusal Definition :=
  (document [] (.ofBytes (Text.Utf8.encode s))).mapError (⟨s, ·⟩)

end Definition

end Livery
