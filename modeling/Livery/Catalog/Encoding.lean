import Livery.Catalog.Validation
import Livery.Json.Decoder
import Livery.Json.Value

/-!
# Catalogs as JSON

A catalog is written as records in lists, every field present but the overlay of a theme that has
none. It is read from the same form, from records without the fields that have a usual value, and
from lists that give the fields of a record in their order, without the last ones that have a usual
value. Fields that a record does not know are passed over.
-/

namespace Livery.Catalog

/-! ## Writing -/

def textsValue (l : List String) : Json.Value := .array (l.map .string)

def overlayValue (r : ResourceName) : Json.Value :=
  .object [("prefix", .string r.base), ("name", .string r.name)]

def themeValue (t : ThemeEntry) : Json.Value :=
  .object ([("key", .string t.key), ("display_name", .string t.displayName),
    ("base_prefix", .string t.basePrefix)] ++
    t.overlay.toList.map fun r => ("overlay", overlayValue r))

def grammarValue (g : BuiltinGrammar) : Json.Value :=
  .object [("name", .string g.name), ("extensions", textsValue g.extensions),
    ("resource", .string g.resource)]

def value (c : Catalog) : Json.Value :=
  .object [("current", .string c.current), ("themes", .array (c.themes.map themeValue)),
    ("grammars", .array (c.grammars.map grammarValue))]

/-- The text of the catalog `c`. -/
def json (c : Catalog) : String := c.value.text

/-! ## Reading -/

open Json

/-- The fields of a `ResourceName` read so far. -/
structure OverlayDraft where
  base : Option String := none
  name : Option String := none

def overlayForm : RecordForm OverlayDraft ResourceName where
  fields := ["prefix", "name"]
  take d
    | "prefix" => fun r => (once "prefix" d.base text r).map fun v => { d with base := v }
    | "name" => fun r => (once "name" d.name text r).map fun v => { d with name := v }
    | _ => anything d
  finish d := do
    let base ← required "prefix" d.base
    let name ← required "name" d.name
    pure { base, name }

/-- The fields of a `ThemeEntry` read so far. -/
structure ThemeDraft where
  key : Option String := none
  displayName : Option String := none
  basePrefix : Option String := none
  overlay : Option (Option ResourceName) := none

def themeForm : RecordForm ThemeDraft ThemeEntry where
  fields := ["key", "display_name", "base_prefix", "overlay"]
  take d
    | "key" => fun r => (once "key" d.key text r).map fun v => { d with key := v }
    | "display_name" => fun r =>
      (once "display_name" d.displayName text r).map fun v => { d with displayName := v }
    | "base_prefix" => fun r =>
      (once "base_prefix" d.basePrefix text r).map fun v => { d with basePrefix := v }
    | "overlay" => fun r =>
      (once "overlay" d.overlay (nullable (record overlayForm {})) r).map fun v =>
        { d with overlay := v }
    | _ => anything d
  finish d := do
    let key ← required "key" d.key
    pure { key, displayName := d.displayName.getD "", basePrefix := d.basePrefix.getD stockBase,
           overlay := d.overlay.join }

/-- The fields of a `BuiltinGrammar` read so far. -/
structure GrammarDraft where
  name : Option String := none
  extensions : Option (List String) := none
  resource : Option String := none

def grammarForm : RecordForm GrammarDraft BuiltinGrammar where
  fields := ["name", "extensions", "resource"]
  take d
    | "name" => fun r => (once "name" d.name text r).map fun v => { d with name := v }
    | "extensions" => fun r =>
      (once "extensions" d.extensions (list text) r).map fun v => { d with extensions := v }
    | "resource" => fun r =>
      (once "resource" d.resource text r).map fun v => { d with resource := v }
    | _ => anything d
  finish d := do
    let name ← required "name" d.name
    let resource ← required "resource" d.resource
    pure { name, extensions := d.extensions.getD [], resource }

/-- The fields of a `Catalog` read so far. -/
structure CatalogDraft where
  current : Option String := none
  themes : Option (List ThemeEntry) := none
  grammars : Option (List BuiltinGrammar) := none

def catalogForm : RecordForm CatalogDraft Catalog where
  fields := ["current", "themes", "grammars"]
  take d
    | "current" => fun r => (once "current" d.current text r).map fun v => { d with current := v }
    | "themes" => fun r =>
      (once "themes" d.themes (list (record themeForm {})) r).map fun v => { d with themes := v }
    | "grammars" => fun r =>
      (once "grammars" d.grammars (list (record grammarForm {})) r).map fun v =>
        { d with grammars := v }
    | _ => anything d
  finish d :=
    .ok { current := d.current.getD stockCurrent, themes := d.themes.getD [],
          grammars := d.grammars.getD [] }

/-- The catalog that the text `s` describes, usable or not. Nothing but blanks may follow it. -/
def decode (s : String) : Except Mismatch Catalog :=
  match Json.read s with
  | (reading, rest) =>
    match record catalogForm {} reading with
    | .ok c => if rest.all Json.isBlank then .ok c else .error .malformed
    | .error e => .error e

/-- Reads a usable catalog: one that `validate` accepts. -/
def ofJson [Wording Mismatch] (s : String) : Except ThemeError Catalog :=
  match decode s with
  | .error e => .error (.catalog ("failed to parse catalog: " ++ Wording.message s e))
  | .ok c =>
    match c.validate with
    | .ok () => .ok c
    | .error e => .error e

end Livery.Catalog
