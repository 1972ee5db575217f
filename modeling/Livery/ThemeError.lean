import Livery.Position
import Livery.Text.Decimal
import Livery.Text.Quoted

/-!
# Errors of themes

Everything that can go wrong between a theme's files and its use. An error may be wrapped in the
grammar or theme it arose under; `ThemeError.root` takes the wrapping off again.

Some texts are refused by a library and in its words; those are the parameter `Wording`.
-/

namespace Livery

/-- The words of a library for the faults `ε` of a text. Nothing is taken for granted about them. -/
class Wording (ε : Type) where
  /-- What is said when `text` is refused for `fault`. -/
  message (text : String) (fault : ε) : String

/-- The address of a resource: the place `base` that its files are grouped under and the file's own
`name`. -/
structure ResourceName where
  base : String
  name : String
  deriving DecidableEq, Repr

def ResourceName.text (r : ResourceName) : String := r.base ++ "." ++ r.name

inductive ThemeError where
  /-- A file is malformed. -/
  | format (position : Option Position) (message : String)
  /-- A well-formed overlay names something twice, or names something that is not there. -/
  | semantic (position : Option Position) (message : String)
  | resourceNotFound (resource : ResourceName)
  | resourceRead (resource : ResourceName) (message : String)
  | unsupportedStyle (name : String)
  | keyNotFound (key : String)
  | catalog (message : String)
  | inGrammar (name : String) (cause : ThemeError)
  | inTheme (key : String) (cause : ThemeError)
  deriving DecidableEq, Repr

namespace ThemeError

/-- A message behind the position it is about, as `Position.text` has it. -/
def located : Option Position → String → String
  | some p, message => p.text ++ ": " ++ message
  | none, message => message

def message : ThemeError → String
  | format p m => located p m
  | semantic p m => located p m
  | resourceNotFound r => "resource '" ++ r.text ++ "' not found"
  | resourceRead r m => "failed to read resource '" ++ r.text ++ "': " ++ m
  | unsupportedStyle name => s!"GlobalStyle named '{name}' is not supported"
  | keyNotFound key => s!"theme '{key}' is not registered"
  | catalog m => s!"invalid theme catalog: {m}"
  | inGrammar name cause => s!"grammar '{name}': " ++ cause.message
  | inTheme key cause => s!"theme '{key}': " ++ cause.message

/-- The error without the grammars and themes it is wrapped in by `inGrammar` and `inTheme`. -/
def root : ThemeError → ThemeError
  | inGrammar _ cause => cause.root
  | inTheme _ cause => cause.root
  | e => e

/-- The position of a malformed or inconsistent file. -/
def position? : ThemeError → Option Position
  | format p _ => p
  | semantic p _ => p
  | _ => none

/-! ## The inspected form

The constructor with its fields, texts in quotes. -/

/-- A record: its `name` and its `fields`. -/
def record (name : String) (fields : List (String × String)) : String :=
  name ++ " \x7b " ++ String.intercalate ", " (fields.map fun f => f.1 ++ ": " ++ f.2) ++ " \x7d"

def positionInspected : Option Position → String
  | none => "None"
  | some p =>
    "Some(" ++ record "TextPosition"
      [("line", Text.Decimal.digits p.line), ("column", Text.Decimal.digits p.column)] ++ ")"

def inspected : ThemeError → String
  | format p m =>
    "Format(" ++ record "FormatError"
      [("position", positionInspected p), ("message", Text.quoted m)] ++ ")"
  | semantic p m =>
    "Semantic(" ++ record "SemanticError"
      [("position", positionInspected p), ("message", Text.quoted m)] ++ ")"
  | resourceNotFound r =>
    record "ResourceNotFound" [("prefix", Text.quoted r.base), ("name", Text.quoted r.name)]
  | resourceRead r m =>
    record "ResourceRead"
      [("prefix", Text.quoted r.base), ("name", Text.quoted r.name), ("message", Text.quoted m)]
  | unsupportedStyle name => "UnsupportedStyle(" ++ Text.quoted name ++ ")"
  | keyNotFound key => "KeyNotFound(" ++ Text.quoted key ++ ")"
  | catalog m => "Catalog(" ++ Text.quoted m ++ ")"
  | inGrammar name cause =>
    record "Grammar" [("name", Text.quoted name), ("source", cause.inspected)]
  | inTheme key cause => record "Theme" [("key", Text.quoted key), ("source", cause.inspected)]

end ThemeError

end Livery
