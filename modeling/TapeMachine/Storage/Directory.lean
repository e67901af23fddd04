import TapeMachine.Storage

/-!
# A directory of files

Files kept in memory, in a working directory and the directories below it.  A path is a sequence of
names between slashes; an empty name and a single dot stay where they are, and two dots go up.  Every
name but the last must lead to a directory.  Above the working directory there are only directories,
and at the root of absolute paths there is nothing.

## Main definitions

* `Directory.Place` — the names that lead to a file or a directory.
* `Directory` — what is at which place.
* `Directory.find` — the place that a path leads to.
* `Directory.storage` — reading and writing by path.
-/

namespace TapeMachine

/-- What is at a place. -/
inductive Directory.Node
  /-- A file and its content. -/
  | file (content : List UInt8)
  /-- A directory. -/
  | folder
  deriving DecidableEq, Repr, Inhabited

/-- The names that lead from the working directory to a place. -/
abbrev Directory.Place := List String

/-- Files and directories, each at its place. -/
structure Directory where
  /-- What is at which place; the first entry of a place counts. -/
  entries : List (Directory.Place × Directory.Node)
  deriving DecidableEq, Repr, Inhabited

namespace Directory

/-- The names of a path: what stands between its slashes. -/
def pieces : List Char → List (List Char)
  | [] => [[]]
  | c :: cs =>
    if c = '/' then [] :: pieces cs
    else
      match pieces cs with
      | [] => [[c]]
      | name :: names => (c :: name) :: names

/-- The names of a path. -/
def names (path : String) : List String :=
  (pieces path.toList).map String.ofList

/-- The name of the root, which absolute paths start from. -/
def root : String := "/"

/-- Whether a place is a directory that needs no entry: the working directory, one above it, or the
root. -/
def isOutside (place : Place) : Bool :=
  place == [root] || place.all (· == "..")

/-- Whether a place is the working directory or lies below it. -/
def isInside (place : Place) : Bool :=
  place.head? != some root && place.head? != some ".."

/-- What is at a place.  A place that leads on to an entry is a directory. -/
def node? (directory : Directory) (place : Place) : Option Node :=
  match directory.entries.lookup place with
  | some node => some node
  | none =>
    if isOutside place || directory.entries.any (fun entry => place.isPrefixOf entry.1) then
      some .folder
    else none

/-- The place that a name leads to from a directory. -/
def enter (place : Place) (name : String) : Place :=
  if name = "" ∨ name = "." then place
  else if name = ".." then
    if place = [root] then place
    else if place.all (· == "..") then place ++ [".."]
    else place.dropLast
  else place ++ [name]

/-- Follows names from a place, each of which must start in a directory. -/
def follow (directory : Directory) : Place → List String → Except Fault Place
  | place, [] => .ok place
  | place, name :: rest =>
    match directory.node? place with
    | none => .error .notFound
    | some (.file _) => .error .notDirectory
    | some .folder => follow directory (enter place name) rest

/-- Where a path starts. -/
def origin (path : String) : Place :=
  if path.toList.head? = some '/' then [root] else []

/-- The place that a path leads to.  The empty path leads nowhere. -/
def find (directory : Directory) (path : String) : Except Fault Place :=
  if path = "" then .error .notFound else directory.follow (origin path) (names path)

/-- The content of the file that a path leads to. -/
def read (directory : Directory) (path : String) : Except Fault (List UInt8) := do
  let place ← directory.find path
  match directory.node? place with
  | none => .error .notFound
  | some .folder => .error .isDirectory
  | some (.file content) => .ok content

/-- Puts a file at a place. -/
def put (directory : Directory) (place : Place) (content : List UInt8) : Directory :=
  ⟨(place, .file content) :: directory.entries.filter (·.1 != place)⟩

/-- Writes the file `name` of the directory at a place.  No file can have a name that stays in a
directory or leaves one, nor one that a slash follows. -/
def writeAt (directory : Directory) (place : Place) (name : String) (slash : Bool)
    (content : List UInt8) : Except Fault Directory :=
  match directory.node? place with
  | none => .error .notFound
  | some (.file _) => .error .notDirectory
  | some .folder =>
    if slash || name == "" || name == "." || name == ".." then .error .isDirectory
    else
      match directory.node? (enter place name) with
      | some .folder => .error .isDirectory
      | _ => .ok (directory.put (enter place name) content)

/-- Names without the empty ones at their end. -/
def dropSlashes (names : List String) : List String :=
  (names.reverse.dropWhile (· == "")).reverse

/-- Writes the file that a path leads to. -/
def write (directory : Directory) (path : String) (content : List UInt8) : Except Fault Directory :=
  if path = "" then .error .notFound
  else do
    let stem := dropSlashes (names path)
    let place ← directory.follow (origin path) stem.dropLast
    directory.writeAt place (stem.getLast?.getD "") (stem != names path) content

/-- Reading and writing by path. -/
def storage : Storage Directory :=
  ⟨read, write⟩

end Directory

end TapeMachine
