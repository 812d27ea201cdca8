import Rewind.Bytes
import Rewind.Storage.Files

/-!
A tree of directories and files held in memory. Paths are looked up name by name from the top:
each name on the way must be a directory, and `..` leads back, at the top to the top itself.
-/

namespace Rewind.Storage

/-- What stands at a place of the tree. -/
inductive Node
  | file (contents : ByteArray)
  | directory

/-- A place of the tree: the names that lead to it from the top. -/
abbrev Place := List String

/-- Files and directories by place. The top is a directory without an entry. -/
structure Tree where
  entries : List (Place × Node) := []

namespace Tree

/-- The longest name that a directory can hold, in bytes. -/
def nameLimit : Nat := 255

/-- What stands at a place. -/
def node? (t : Tree) : Place → Option Node
  | [] => some .directory
  | place => t.entries.lookup place

/-- The tree without what stands at a place and below it. -/
def erase (t : Tree) (place : Place) : Tree :=
  ⟨t.entries.filter fun (p, _) => !place.isPrefixOf p⟩

/-- The tree with a file or a directory put at a place. -/
def put (t : Tree) (place : Place) (node : Node) : Tree :=
  ⟨t.entries.filter (·.1 != place) ++ [(place, node)]⟩

/-- The place that a name leads to from a place, which must be a directory. -/
def enter (t : Tree) (here : Place) (name : String) : Except Fault Place :=
  match t.node? here with
  | none => .error .notFound
  | some (.file _) => .error .notADirectory
  | some .directory =>
    if name = "." then .ok here
    else if name = ".." then .ok here.dropLast
    else if nameLimit < name.utf8ByteSize then .error .nameTooLong
    else .ok (here ++ [name])

/-- The most bytes of a path. -/
def pathLimit : Nat := 4095

/-- The names that a path is made of. -/
def names (path : Pathname) : Except Fault (List String) :=
  if path.text.toList.contains '\x00' then .error .nulInName
  else if path.text.isEmpty then .error .notFound
  else if pathLimit < path.text.utf8ByteSize then .error .nameTooLong
  else .ok (path.pieces.filter (· != ""))

/-- The place that names lead to from the top; all but the last must exist. -/
def walk (t : Tree) (names : List String) : Except Fault Place := names.foldlM t.enter []

/-- The place that a path names; all but its last name must exist. -/
def locate (t : Tree) (path : Pathname) : Except Fault Place := do t.walk (← names path)

/-- The contents of the file at a path. -/
def read (path : Pathname) (t : Tree) : Except Fault ByteArray := do
  let place ← t.locate path
  let place ← if path.endsInSlash then t.enter place "." else pure place
  match t.node? place with
  | none => .error .notFound
  | some .directory => .error .isADirectory
  | some (.file contents) => .ok contents

/--
The place of a file to be written: a file, or a name that is free. A path with a slash at the end
names a directory, whether or not its last name is there.
-/
def target (t : Tree) (path : Pathname) : Except Fault Place := do
  let names ← names path
  if path.endsInSlash then
    discard <| t.walk (names.dropLast ++ ["."])
    .error .isADirectory
  else
    let place ← t.walk names
    match t.node? place with
    | some .directory => .error .isADirectory
    | _ => .ok place

/-- The tree with a file of the given contents. -/
def write (path : Pathname) (contents : ByteArray) (t : Tree) : Except Fault Unit × Tree :=
  match t.target path with
  | .error e => (.error e, t)
  | .ok place => (.ok (), t.put place (.file contents))

/-- The tree with the first bytes of a file replaced. -/
def patch (path : Pathname) (front : ByteArray) (t : Tree) : Except Fault Unit × Tree :=
  match t.locate path with
  | .error e => (.error e, t)
  | .ok place =>
    match t.node? place with
    | none => (.error .notFound, t)
    | some .directory => (.error .isADirectory, t)
    | some (.file contents) =>
      if path.endsInSlash then (.error .notADirectory, t)
      else (.ok (), t.put place (.file (Bytes.overwrite contents 0 front)))

/-- The tree with a new directory. -/
def makeDirectory (t : Tree) (path : Pathname) : Except Fault Tree := do
  let place ← t.locate path
  match t.node? place with
  | some _ => .error .alreadyExists
  | none => .ok (t.put place .directory)

/-- Whether a path names a directory. -/
def isDirectory (t : Tree) (path : Pathname) : Bool :=
  match t.locate path with
  | .error _ => false
  | .ok place => match t.node? place with
    | some .directory => true
    | _ => false

/--
The tree with a directory made at the first path, where each path is followed by its parent. Only
if that fails because the parent is not there, the parent is made first. A directory that is there
already is as good as a new one.
-/
def makeDirectories (t : Tree) : List Pathname → Except Fault Unit × Tree
  | [] => (.ok (), t)
  | path :: parents =>
    let orPresent (t : Tree) : Except Fault Tree → Except Fault Unit × Tree
      | .ok t => (.ok (), t)
      | .error e => (if t.isDirectory path then .ok () else .error e, t)
    match t.makeDirectory path with
    | .error .notFound =>
      match t.makeDirectories parents with
      | (.ok (), t) => orPresent t (t.makeDirectory path)
      | failed => failed
    | made => orPresent t made

/-- The tree with a directory and all that lead to it. -/
def createDirectories (path : Pathname) (t : Tree) : Except Fault Unit × Tree :=
  t.makeDirectories path.ancestors

end Tree

instance : Rewind.Storage Tree where
  read := Tree.read
  write := Tree.write
  patch := Tree.patch
  createDirectories := Tree.createDirectories

end Rewind.Storage
