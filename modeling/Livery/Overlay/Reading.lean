import Livery.Chrome
import Livery.Extension
import Livery.Markup.Content
import Livery.Markup.Scope
import Livery.Overlay.Fault

/-!
# Reading overlays

An overlay is markup whose elements are in the theme namespace; everything in another namespace is
passed over together with its content. Reading is strict or lenient: strict reading also enforces
the schema, which forbids unknown attributes, missing names, text and unknown styles.

- `Reader.children` visits the child elements of the theme namespace, whatever stands between them;
- `read` reads a whole text.
-/

namespace Livery.Overlay

open Markup (Content Element Scope)

/-- How a text is read: its bytes `input`, for positions, and whether the schema is enforced. -/
structure Reader where
  input : Bytes
  strict : Bool

namespace Reader

/-- The result of reading a part of a text, or a `Failure`. -/
abbrev Result := Except Failure

variable (r : Reader)

/-- The position of the markup at `offset`. -/
def position (offset : Nat) : Position := .ofMarkup r.input offset

/-- Refuses the text for `cause` because of what stands at `offset`. -/
def refuse {α : Type} (offset : Nat) (cause : Cause) : Result α :=
  .error ⟨r.position offset, cause⟩

/-- Turns the error of a failed check into a refusal at `offset`. -/
def lift {α ε : Type} (offset : Nat) (cause : ε → Cause) : Except ε α → Result α
  | .ok a => .ok a
  | .error e => r.refuse offset (cause e)

/-- The scope inside the element `e`. Its declarations are added to `scope`. -/
def enter (scope : Scope) (e : Element) : Result Scope :=
  r.lift e.offset .markup (scope.enter e.tag)

/-- The element `e` is in the `themeNamespace`. -/
def isThemed (scope : Scope) (e : Element) : Bool :=
  scope.namespace? e.tag.name == some (Text.Utf8.encode themeNamespace)

/-- Nothing but blanks, each an `isBlankByte`. -/
def isBlank (bytes : Bytes) : Bool := bytes.all Markup.isBlankByte

/-- Passes over the content of the foreign element `name`. Its namespace declarations must still be
sound. -/
def skip (name : String) (scope : Scope) : Content → Result Unit
  | .closed => .ok ()
  | .ended offset => r.refuse offset (.endInside name)
  | .broken offset fault => r.refuse offset (.markup fault)
  | .text _ _ more => skip name scope more
  | .cdata _ _ more => skip name scope more
  | .remark _ more => skip name scope more
  | .empty e more => do
    let _ ← r.enter scope e
    skip name scope more
  | .element e inner more => do
    let inside ← r.enter scope e
    skip name inside inner
    skip name scope more

/-- Reads the child elements of the theme namespace in order, each by `child`, which gets the scope
inside the element and its content if it has two tags. `parent` is the name of the element whose
content it is. -/
def children {α : Type} (parent : String) (child : Scope → Element → Option Content → Result α)
    (scope : Scope) : Content → Result (List α)
  | .closed => .ok []
  | .ended offset => r.refuse offset (.endInside parent)
  | .broken offset fault => r.refuse offset (.markup fault)
  | .text offset bytes more =>
    if r.strict && !isBlank bytes then r.refuse offset (.textInside parent)
    else children parent child scope more
  | .cdata offset _ more =>
    if r.strict then r.refuse offset (.textInside parent) else children parent child scope more
  | .remark _ more => children parent child scope more
  | .empty e more => do
    let inside ← r.enter scope e
    if isThemed inside e then
      let a ← child inside e none
      let as ← children parent child scope more
      pure (a :: as)
    else children parent child scope more
  | .element e inner more => do
    let inside ← r.enter scope e
    if isThemed inside e then
      let a ← child inside e (some inner)
      let as ← children parent child scope more
      pure (a :: as)
    else
      r.skip e.tag.fullName inside inner
      children parent child scope more

/-- The `children` of an element with `content`, none if it is one tag. -/
def childrenOf {α : Type} (parent : String) (child : Scope → Element → Option Content → Result α)
    (scope : Scope) : Option Content → Result (List α)
  | none => .ok []
  | some content => r.children parent child scope content

/-- Checks that the element `name` with `content` has no children. -/
def leaf (name : String) (scope : Scope) (content : Option Content) : Result Unit := do
  let _ ← r.childrenOf name
    (fun _ e _ => (r.refuse e.offset (.childInside name) : Result Unit)) scope content

/-! ## Attributes -/

variable [Markup.Decoders]

/-- The values of an element's attributes by their keys. -/
abbrev Values := List (String × String)

/-- The value of the attribute `raw` as text: decoded in the charset of `e`, then with its
references read. -/
def value (e : Element) (raw : Bytes) : Result String :=
  match e.charset.decode? raw with
  | none => r.refuse e.offset .undecodable
  | some text => r.lift e.offset .entity (Markup.unescape text)

/-- Reads attributes in order. Those with a prefix, and namespace declarations, do not count; one
that is not `allowed` is passed over unread, or refused by the schema. -/
def valuesOf (e : Element) (allowed : List String) : List Markup.Attribute → Result Values
  | [] => .ok []
  | a :: rest =>
    if a.key = Markup.xmlnsPrefix ∨ a.key.contains 0x3A = true then valuesOf e allowed rest
    else
      let key := Text.Utf8.decodeLossy a.key
      if key ∈ allowed then do
        let v ← r.value e a.value
        let vs ← valuesOf e allowed rest
        pure ((key, v) :: vs)
      else if r.strict then r.refuse e.offset (.unknownAttribute key e.tag.localName)
      else valuesOf e allowed rest

/-- The values of the attributes of `e`. A malformed attribute counts after those before it. -/
def values (e : Element) (allowed : List String) : Result Values := do
  let list := e.tag.attributes
  let vs ← r.valuesOf e allowed list.attributes
  match list.fault with
  | none => pure vs
  | some fault => r.refuse e.offset (.malformedAttribute fault)

/-- The `name` of an element: empty if it is missing, unless the schema is enforced. -/
def requiredName (e : Element) (vs : Values) : Result String :=
  match vs.lookup "name" with
  | some name => .ok name
  | none => if r.strict then r.refuse e.offset (.missingName e.tag.localName) else .ok ""

/-- Reads a value by `parse`, where an absent or blank one stands for nothing. -/
def optional {α ε : Type} (e : Element) (parse : String → Except ε α) (cause : String → ε → Cause) :
    Option String → Result (Option α)
  | none => .ok none
  | some v =>
    if Text.isAllBlank v then .ok none
    else (r.lift e.offset (cause v) (parse v)).map some

/-- Reads a `Brush` from the value of an attribute of `e`. -/
def brush (e : Element) (value : Option String) : Result (Option Brush) :=
  r.optional e Brush.parse .brush value

/-! ## Declarations -/

/-- The attributes of each kind of element. -/
def rootKeys : List String := ["name"]

def setKeys : List String := ["name", "extensions"]

def colorKeys : List String :=
  ["name", "foreground", "background", "fontWeight", "fontStyle", "underline", "exampleText"]

def propertyKeys : List String := ["name", "value"]

def styleKeys : List String := ["foreground", "background", "border"]

/-- The colour name `name`: not empty, and without a slash. -/
def colorName (e : Element) (name : String) : Result String :=
  if name = "" then r.refuse e.offset .emptyName
  else if name.contains '/' then r.refuse e.offset (.slashInName name)
  else .ok name

/-- The colour that the attribute values `vs` of `e` declare. -/
def colorOfValues (e : Element) (vs : Values) : Result ColorDeclaration := do
  let name ← r.colorName e ((vs.lookup "name").getD "")
  let foreground ← r.brush e (vs.lookup "foreground")
  let background ← r.brush e (vs.lookup "background")
  let underline ← r.optional e Underline.parse (fun _ => .style) (vs.lookup "underline")
  let fontWeight ← r.optional e FontWeight.parse (fun _ => .style) (vs.lookup "fontWeight")
  let fontStyle ← r.optional e FontStyle.parse (fun _ => .style) (vs.lookup "fontStyle")
  pure { name, foreground, background, underline, fontWeight, fontStyle,
         exampleText := vs.lookup "exampleText", position := some (r.position e.offset) }

/-- Reads the colour `e`, which may have no children. -/
def color (scope : Scope) (e : Element) (content : Option Content) : Result ColorDeclaration := do
  let vs ← r.values e colorKeys
  let d ← r.colorOfValues e vs
  r.leaf "Color" scope content
  pure d

/-- Reads the child `e` of a colour set, which must be a colour. -/
def setChild (scope : Scope) (e : Element) (content : Option Content) : Result ColorDeclaration :=
  let name := e.tag.localName
  if name = "Color" then r.color scope e content
  else if name ∈ [Cause.rootName, Cause.setName, "Property", "GlobalStyles"] then
    r.refuse e.offset (.misplaced name)
  else r.refuse e.offset (.unknownElement name)

/-- Reads the colour set `e` with its colours. -/
def colorSet (scope : Scope) (e : Element) (content : Option Content) : Result SetDeclaration := do
  let vs ← r.values e setKeys
  let name ← r.requiredName e vs
  let colors ← r.childrenOf Cause.setName r.setChild scope content
  pure { name, extensions := ((vs.lookup "extensions").map Extension.split).getD [], colors,
         position := some (r.position e.offset) }

/-- Reads the property `e`. -/
def property (scope : Scope) (e : Element) (content : Option Content) :
    Result PropertyDeclaration := do
  let vs ← r.values e propertyKeys
  let name ← r.requiredName e vs
  r.leaf "Property" scope content
  pure { name, value := (vs.lookup "value").getD "", position := some (r.position e.offset) }

/-- Reads the global style `e`. The schema refuses a type that `StyleKind.ofName?` does not know. -/
def globalStyle (scope : Scope) (e : Element) (content : Option Content) :
    Result StyleDeclaration := do
  let typeName := e.tag.localName
  if r.strict && (StyleKind.ofName? typeName).isNone then
    r.refuse e.offset (.unsupportedStyle typeName)
  else
    let vs ← r.values e styleKeys
    let foreground ← r.brush e (vs.lookup "foreground")
    let background ← r.brush e (vs.lookup "background")
    let border ← r.brush e (vs.lookup "border")
    r.leaf typeName scope content
    pure { typeName, foreground, background, border, position := some (r.position e.offset) }

/-- Reads the group `e` of global styles. -/
def globalStyles (scope : Scope) (e : Element) (content : Option Content) :
    Result (List StyleDeclaration) := do
  let _ ← r.values e []
  r.childrenOf "GlobalStyles" r.globalStyle scope content

/-- Reads the child `e` of the root: the declarations it makes. -/
def rootChild (scope : Scope) (e : Element) (content : Option Content) :
    Result (List Declaration) :=
  let name := e.tag.localName
  if name = Cause.setName then do
    let d ← r.colorSet scope e content
    pure [.colorSet d]
  else if name = "Property" then do
    let d ← r.property scope e content
    pure [.property d]
  else if name = "GlobalStyles" then do
    let ds ← r.globalStyles scope e content
    pure (ds.map .globalStyle)
  else if name = "Color" then r.refuse e.offset .colorOutsideSet
  else r.refuse e.offset (.unknownElement name)

/-- Reads the root element `e`, which must be called `rootName` and lie in the `themeNamespace`. -/
def root (e : Element) (content : Option Content) : Result Document := do
  let scope ← r.enter Scope.initial e
  if isThemed scope e && e.tag.localName == Cause.rootName then
    let vs ← r.values e rootKeys
    let name ← r.requiredName e vs
    let groups ← r.childrenOf Cause.rootName r.rootChild scope content
    pure { name, declarations := groups.flatten }
  else r.refuse e.offset (.wrongRoot e.tag.localName)

/-- Reads a text up to the end of its `root` element. -/
def document : Content → Result Document
  | .closed => r.refuse 0 .noRoot
  | .ended offset => r.refuse offset .noRoot
  | .broken offset fault => r.refuse offset (.markup fault)
  | .text offset bytes more =>
    if isBlank bytes then document more else r.refuse offset .textBeforeRoot
  | .cdata _ _ more => document more
  | .remark _ more => document more
  | .empty e _ => r.root e none
  | .element e inner _ => r.root e (some inner)

end Reader

/-- Reads the overlay `input`, with the whole schema enforced if `strict` says so. -/
def read [Markup.Decoders] (input : Bytes) (strict : Bool) : Except Failure Document :=
  (Reader.mk input strict).document (.ofBytes input)

/-- Reads an overlay given as the text `input`. -/
def readText [Markup.Decoders] (input : String) (strict : Bool) : Except Failure Document :=
  read (Text.Utf8.encode input) strict

end Livery.Overlay
