import Livery.NameMap
import Livery.Token

/-!
# Colour sets

The named colours that a theme gives to one grammar. A set is built in two phases: a draft takes
the names first and the values after them, and a finished set only ever swaps the value under a
name that it has.
-/

namespace Livery

/-- The named colours of one grammar under one theme: a `Token` for each colour name. -/
structure ColorSet where
  name : String
  extensions : List String := []
  colors : NameMap Token := .empty
  deriving DecidableEq

/-- Why a `ColorSet` is refused. -/
inductive ColorSetError where
  | emptyName
  | duplicateColor (name : String)
  | unknownColor (name : String)
  deriving DecidableEq, Repr

def ColorSetError.message : ColorSetError → String
  | .emptyName => "Name must not be the empty string"
  | .duplicateColor name => s!"Duplicate color name '{name}'"
  | .unknownColor name => s!"Color '{name}' does not exist"

namespace ColorSet

/-- The token under the colour name `name`. -/
def color? (s : ColorSet) (name : String) : Option Token := s.colors.get? name

def contains (s : ColorSet) (name : String) : Bool := s.colors.contains name

/-- The colour names of the set `s` in increasing order. -/
def colorNames (s : ColorSet) : List String := s.colors.names

/-- The tokens of the set `s` in the order of their names. -/
def tokens (s : ColorSet) : List Token := s.colors.values

def size (s : ColorSet) : Nat := s.colors.size

/-- Stores `token` under its own name, which `s` must have, and gives back the token it
displaces. -/
def replace (s : ColorSet) (token : Token) : Except ColorSetError (Token × ColorSet) :=
  match s.colors.get? token.name with
  | some previous => .ok (previous, { s with colors := s.colors.insert token.name token })
  | none => .error (.unknownColor token.name)

/-- A `ColorSet` under construction. -/
structure Draft where
  set : ColorSet
  deriving DecidableEq

namespace Draft

/-- A draft without colours. The grammar's `name` may not be empty. -/
def start (name : String) : Except ColorSetError Draft :=
  if name = "" then .error .emptyName else .ok ⟨{ name }⟩

def name (d : Draft) : String := d.set.name

/-- Adds the colour name `name` with a `Token.placeholder` under it. -/
def register (d : Draft) (name : String) : Except ColorSetError Draft :=
  if name = "" then .error .emptyName
  else if d.set.contains name then .error (.duplicateColor name)
  else .ok ⟨{ d.set with colors := d.set.colors.insert name (.placeholder name) }⟩

/-- Stores `token` under its name, which must be registered. -/
def populate (d : Draft) (token : Token) : Except ColorSetError Draft :=
  if token.name = "" then .error .emptyName
  else
    match d.set.replace token with
    | .ok (_, set) => .ok ⟨set⟩
    | .error e => .error e

def setExtensions (d : Draft) (extensions : List String) : Draft :=
  ⟨{ d.set with extensions }⟩

/-- The finished `ColorSet`. -/
def finish (d : Draft) : ColorSet := d.set

end Draft

end ColorSet

end Livery
