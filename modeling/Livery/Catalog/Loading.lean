import Livery.Catalog.Encoding
import Livery.Resource.FileTree

/-!
# Loading catalogs

A catalog from a file of its own.
-/

namespace Livery.Catalog

/-- Reads a usable catalog from a `source` that may itself break down and that complaints call by
its `path`. -/
def ofSource [Wording Json.Mismatch] (path : String) (source : Except String Bytes) :
    Except ThemeError Catalog :=
  let unreadable (reason : String) : Except ThemeError Catalog :=
    .error (.catalog s!"failed to read catalog {path}: {reason}")
  match source with
  | .error reason => unreadable reason
  | .ok data =>
    match Text.Utf8.decode? data with
    | some s => ofJson s
    | none => unreadable "stream did not contain valid UTF-8"

/-- Reads a usable catalog from a file of a tree. Complaints call the file by the path `shown`. -/
def ofFile [Wording Json.Mismatch] (shown : String) (t : FileTree) (path : FilePath) :
    Except ThemeError Catalog :=
  ofSource shown ((t.read path).mapError FileError.message)

end Livery.Catalog
