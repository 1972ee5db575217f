import Livery.Text.Split
import Livery.Text.Utf8
import Livery.ThemeError

/-!
# Resources on disk

A tree of files and directories below a root. A path is walked one component at a time: `.` and
empty components stay, `..` goes up, and every step, staying included, needs a directory to start
from. Above the root, where absolute paths begin, there are directories, but nothing that a path
could name.

- `FileTree.read` opens the file at a path.
- `FileTree.fetch` opens a resource, whose base and name together make up the path.
-/

namespace Livery

/-- The components of a path, from the root on. -/
abbrev FilePath := List String

/-- The files below a root, and the directories that hold them or are empty. -/
structure FileTree where
  files : List (FilePath × Bytes) := []
  directories : List FilePath := []

/-- Why the file at a `FilePath` cannot be read. -/
inductive FileError where
  | notFound
  | notDirectory
  | isDirectory
  deriving DecidableEq, Repr

def FileError.message : FileError → String
  | notFound => "No such file or directory (os error 2)"
  | notDirectory => "Not a directory (os error 20)"
  | isDirectory => "Is a directory (os error 21)"

namespace FilePath

/-- The components of the written path `path`, empty ones included. -/
def components (path : String) : FilePath :=
  (Text.pieces '/' path.toList).map String.ofList

/-- A path that begins with the separator, and so does not begin at the root of a tree. -/
def isAbsolute : FilePath → Bool
  | "" :: _ :: _ => true
  | _ => false

/-- A component that stays where it is. -/
def stays (component : String) : Bool := component == "" || component == "."

/-- The path `below` behind `path`. An absolute one takes its place. -/
def join (path below : FilePath) : FilePath :=
  if isAbsolute below then below
  else if path.getLast? = some "" then path.dropLast ++ below
  else path ++ below

/-- The path `path` as it is shown: without the components at either end of which `stays` holds. -/
def shown (path : FilePath) : String :=
  String.intercalate "/" ((path.dropWhile stays).reverse.dropWhile stays).reverse

end FilePath

/-- The path of the resource `r`: its `name` behind its `base`. -/
def ResourceName.path (r : ResourceName) : FilePath :=
  (FilePath.components r.base).join (FilePath.components r.name)

/-- A place that the walk of `read` has come to. -/
inductive Place where
  /-- Below the root, the last component first. -/
  | inside (path : List String)
  /-- So many directories above the root. -/
  | above (levels : Nat)
  deriving DecidableEq, Repr

namespace FileTree

/-- The file at `path`, if it is one of `t.files`. -/
def file? (t : FileTree) (path : FilePath) : Option Bytes := t.files.lookup path

/-- The root is a directory, and so is whatever holds something of `t`. -/
def isDirectory (t : FileTree) (path : FilePath) : Bool :=
  path.isEmpty || t.directories.any path.isPrefixOf ||
    t.files.any fun f => path != f.1 && path.isPrefixOf f.1

/-- A place from which a walk can go on. -/
def isOpenPlace (t : FileTree) : Place → Bool
  | .inside path => t.isDirectory path.reverse
  | .above _ => true

/-- One step up, which may lead `above` the root. -/
def up : Place → Place
  | .inside (_ :: path) => .inside path
  | .inside [] => .above 1
  | .above n => .above (n + 1)

/-- One step down into `component`. -/
def down (t : FileTree) (component : String) : Place → Except FileError Place
  | .inside path =>
    let below := component :: path
    if t.isDirectory below.reverse || (t.file? below.reverse).isSome then .ok (.inside below)
    else .error .notFound
  | .above _ => .error .notFound

/-- One step along `component`: up, down or none. -/
def step (t : FileTree) (place : Place) (component : String) : Except FileError Place :=
  if ! t.isOpenPlace place then .error .notDirectory
  else if FilePath.stays component then .ok place
  else if component = ".." then .ok (up place)
  else t.down component place

/-- Reads the file at the end of `path`, one `step` for each component. -/
def read (t : FileTree) (path : FilePath) : Except FileError Bytes :=
  match path.foldlM t.step (if path.isAbsolute then .above 1 else .inside []) with
  | .error e => .error e
  | .ok (.above _) => .error .isDirectory
  | .ok (.inside path) =>
    match t.file? path.reverse with
    | some data => .ok data
    | none => .error .isDirectory

/-- Opens the resource `r`, a file of `t` at `r.path`. -/
def fetch (t : FileTree) (r : ResourceName) : Except ThemeError Bytes :=
  match t.read r.path with
  | .ok data => .ok data
  | .error .notFound => .error (.resourceNotFound r)
  | .error e => .error (.resourceRead r e.message)

end FileTree

end Livery
