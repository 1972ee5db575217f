import Livery.Extension
import Livery.Grammar.Reading
import Livery.Journal
import Livery.NameMap

/-!
# Grammar tables

The grammars registered under a theme, some of them not loaded yet. The table keeps the order in
which the names first came, for each name what was registered under it last, and for each extension
the name it was given to last. Every registration has a number of its own.
-/

namespace Livery

/-- How a `Grammar` is made when it is first asked for. -/
inductive Loader where
  /-- It is read from a file. -/
  | resource (resource : ResourceName)
  /-- It is made by someone else, who may look at what was done so far. -/
  | custom (load : Journal → Option ColorSet → Grammar.Loading)

/-- What is registered under a name: a grammar, or what is left of its `Loader`. -/
inductive GrammarSlot where
  | loaded (grammar : Grammar)
  | deferred (loader : Loader)
  /-- A grammar that could not be loaded. It is not tried again. -/
  | failed (error : ThemeError)

/-- The slot in its inspected form, which shows a grammar's name and an error. -/
def GrammarSlot.inspected : GrammarSlot → String
  | loaded g => "Loaded(" ++ Text.quoted g.name ++ ")"
  | deferred _ => "Deferred"
  | failed e => "Failed(" ++ e.inspected ++ ")"

/-- A slot and its `ticket`, the number of its registration. -/
structure Registration where
  ticket : Nat
  slot : GrammarSlot

/-- The registrations of one `Theme`. -/
structure GrammarTable where
  /-- The names in the order of their first registrations. -/
  order : List String := []
  /-- The last registration of each name. -/
  registrations : NameMap Registration := .empty
  /-- The name that has each extension, by the extension's key. -/
  owners : NameMap String := .empty
  /-- The number of the next registration. -/
  nextTicket : Nat := 0

namespace GrammarTable

/-- What is registered under `name`. -/
def get? (t : GrammarTable) (name : String) : Option Registration := t.registrations.get? name

def contains (t : GrammarTable) (name : String) : Bool := t.registrations.contains name

theorem contains_of_get? {t : GrammarTable} {name : String} {reg : Registration}
    (h : t.get? name = some reg) : t.contains name = true := by
  have hget : t.registrations.get? name = some reg := h
  simp [contains, NameMap.contains, hget]

/-- The name that has `extension`, found by its `Extension.key`. -/
def owner? (t : GrammarTable) (extension : String) : Option String :=
  t.owners.get? (Extension.normalize extension)

/-- Gives `name` an extension, whoever had it. -/
def grant (name : String) (owners : NameMap String) (extension : String) : NameMap String :=
  owners.insert (Extension.normalize extension) name

/-- The `extensions` are granted to one name, and the others keep their owners. -/
theorem get?_foldl_grant (name : String) (extensions : List String) (owners : NameMap String)
    (x : String) : (extensions.foldl (grant name) owners).get? x =
      if x ∈ extensions.map Extension.normalize then some name else owners.get? x := by
  induction extensions generalizing owners with
  | nil => simp
  | cons e extensions ih =>
    rw [List.foldl_cons, ih, grant, NameMap.get?_insert, List.map_cons]
    by_cases hx : x ∈ extensions.map Extension.normalize
    · rw [if_pos hx, if_pos (List.mem_cons_of_mem _ hx)]
    · by_cases he : x = Extension.normalize e
      · rw [if_neg hx, if_pos he, if_pos (by simp [he])]
      · rw [if_neg hx, if_neg he, if_neg (by simp [he, hx])]

/-- Registers `slot` under `name`, which keeps its place in the order if it is known, and gives it
the `extensions`. -/
def register (t : GrammarTable) (name : String) (extensions : List String) (slot : GrammarSlot) :
    GrammarTable :=
  { order := if t.contains name then t.order else t.order ++ [name]
    registrations := t.registrations.insert name ⟨t.nextTicket, slot⟩
    owners := extensions.foldl (grant name) t.owners
    nextTicket := t.nextTicket + 1 }

theorem get?_register (t : GrammarTable) (name x : String) (extensions : List String)
    (slot : GrammarSlot) : (t.register name extensions slot).get? x =
      if x = name then some ⟨t.nextTicket, slot⟩ else t.get? x :=
  NameMap.get?_insert ..

/-- Puts the result of loading in the place of a loader: `slot` under `name`, with the same
`ticket`. -/
def settle (t : GrammarTable) (name : String) (ticket : Nat) (slot : GrammarSlot) : GrammarTable :=
  { t with registrations := t.registrations.insert name ⟨ticket, slot⟩ }

theorem get?_settle (t : GrammarTable) (name x : String) (ticket : Nat) (slot : GrammarSlot) :
    (t.settle name ticket slot).get? x = if x = name then some ⟨ticket, slot⟩ else t.get? x :=
  NameMap.get?_insert ..

/-- `settle` keeps the names. -/
theorem contains_settle {t : GrammarTable} {name n : String} (ticket : Nat) (slot : GrammarSlot)
    (h : t.contains n = true) : (t.settle name ticket slot).contains n = true :=
  (NameMap.contains_insert ..).2 (.inr h)

end GrammarTable

end Livery
