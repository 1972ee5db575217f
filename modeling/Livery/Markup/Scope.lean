import Livery.Markup.Fault
import Livery.Markup.Tag

/-!
# Namespaces

A scope holds the namespace declarations in force at a place of a text. A tag adds its own; the
latest declaration of a prefix counts, and an empty name takes the prefix out of use.
-/

namespace Livery.Markup

/-- `xml` -/
def xmlPrefix : Bytes := [0x78, 0x6D, 0x6C]

/-- `xmlns` -/
def xmlnsPrefix : Bytes := [0x78, 0x6D, 0x6C, 0x6E, 0x73]

/-- The namespace of the prefix `xml`. -/
def xmlNamespace : Bytes := Text.Utf8.encode "http://www.w3.org/XML/1998/namespace"

/-- The namespace of the prefix `xmlns`. -/
def xmlnsNamespace : Bytes := Text.Utf8.encode "http://www.w3.org/2000/xmlns/"

/-- The prefix that the attribute key `key` declares: empty for the default namespace. -/
def declaredPrefix? (key : Bytes) : Option Bytes :=
  if key = xmlnsPrefix then some []
  else if key.take 6 = xmlnsPrefix ++ [0x3A] then some (key.drop 6)
  else none

/-- The namespace declarations in force, the latest first. The empty prefix stands for the
default. -/
structure Scope where
  bindings : List (Bytes × Bytes)
  deriving DecidableEq, Repr

namespace Scope

/-- The scope outside all elements. -/
def initial : Scope := ⟨[(xmlPrefix, xmlNamespace), (xmlnsPrefix, xmlnsNamespace)]⟩

/-- Adds to `s` the declaration that the attribute `a` makes, if it is one. -/
def declare (s : Scope) (a : Attribute) : Except Fault Scope :=
  match declaredPrefix? a.key with
  | none => .ok s
  | some p =>
    if p = xmlPrefix then
      if a.value = xmlNamespace then .ok s else .error (.reservedBinding p a.value)
    else if p = xmlnsPrefix then .error (.reservedBinding p a.value)
    else if a.key ≠ xmlnsPrefix ∧ (a.value = xmlNamespace ∨ a.value = xmlnsNamespace) then
      .error (.reservedBinding p a.value)
    else .ok ⟨(p, a.value) :: s.bindings⟩

/-- The scope inside the element of the tag `t`: the declarations up to its first malformed
attribute are added to `s`. -/
def enter (s : Scope) (t : Tag) : Except Fault Scope :=
  t.uncheckedAttributes.attributes.foldlM declare s

/-- The namespace of an element called `name`, if it has one. -/
def namespace? (s : Scope) (name : Bytes) : Option Bytes :=
  match qualifier? name with
  | none => (s.bindings.lookup []).bind fun uri => if uri = [] then none else some uri
  | some [] => none
  | some p => (s.bindings.lookup p).bind fun uri => if uri = [] then none else some uri

end Scope

end Livery.Markup
