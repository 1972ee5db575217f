import Livery.Json.Reading

/-!
# Decoding JSON

Readings as texts, lists and records of a known form. A decoder goes through a reading from left to
right and stops at the first thing that does not fit, which may be a place where the text is broken.
-/

namespace Livery.Json

/-- Why a value is not what was asked for. -/
inductive Mismatch where
  | missingField (name : String)
  | duplicateField (name : String)
  | malformed
  deriving DecidableEq, Repr

/-- A way of reading values of the type `α`. -/
abbrev Decoder (α : Type) := Reading → Except Mismatch α

/-- A text. -/
def text : Decoder String
  | .string (some s) => .ok s
  | _ => .error .malformed

/-- A list, each of whose items is read by `item`. -/
def list {α : Type} (item : Decoder α) : Decoder (List α)
  | .array items => items.mapM item
  | _ => .error .malformed

/-- Something that `item` reads or that may be null. -/
def nullable {α : Type} (item : Decoder α) : Decoder (Option α)
  | .null => .ok none
  | r => (item r).map some

/-- A field that was not read before: `earlier` must be `none`. -/
def once {α : Type} (name : String) (earlier : Option α) (item : Decoder α) : Decoder (Option α) :=
  fun r => if earlier.isSome then .error (.duplicateField name) else (item r).map some

/-- A field that must be there, called `name` in the error. -/
def required {α : Type} (name : String) : Option α → Except Mismatch α
  | some a => .ok a
  | none => .error (.missingField name)

/-- Passes over a value of any kind. -/
def anything {α : Type} (a : α) : Decoder α :=
  fun r => if r.isWhole then .ok a else .error .malformed

/-- How a record is read: the names of its `fields`, what becomes of the fields read so far when one
more is read, and the record that they make up. -/
structure RecordForm (δ α : Type) where
  fields : List String
  take : δ → String → Decoder δ
  finish : δ → Except Mismatch α

/-- Takes one member of an object into `draft`. -/
def RecordForm.takeMember {δ α : Type} (form : RecordForm δ α) (draft : δ) :
    Option String × Reading → Except Mismatch δ
  | (some name, r) => form.take draft name r
  | (none, _) => .error .malformed

/-- Takes list items for the fields of the names given, and no more of them than there are names. -/
def RecordForm.takeItems {δ α : Type} (form : RecordForm δ α) (draft : δ) :
    List String → List Reading → Except Mismatch δ
  | _, [] => .ok draft
  | [], _ :: _ => .error .malformed
  | name :: names, r :: rs =>
    match form.take draft name r with
    | .ok draft => form.takeItems draft names rs
    | .error e => .error e

/-- Reads a record in the given `form`, from an object or from the list of its fields. -/
def record {δ α : Type} (form : RecordForm δ α) (start : δ) : Decoder α
  | .object members =>
    match members.foldlM form.takeMember start with
    | .ok draft => form.finish draft
    | .error e => .error e
  | .array items =>
    match form.takeItems start form.fields items with
    | .ok draft =>
      match form.finish draft with
      | .ok a => .ok a
      | .error _ => .error .malformed
    | .error e => .error e
  | _ => .error .malformed

end Livery.Json
