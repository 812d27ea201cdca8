/-!
File paths as text with `/` between names. Empty names and inner `.` names carry no meaning, so
paths are compared by their components.
-/

namespace Rewind.Storage

/-- A path as it is written. -/
structure Pathname where
  text : String
deriving DecidableEq, Inhabited

namespace Pathname

/-- What a path is made of. -/
inductive Component
  | root
  /-- A `.` in front of a relative path. -/
  | here
  | up
  | name (text : String)
deriving DecidableEq

/-- The component that a piece of a path stands for, if any. -/
def Component.ofPiece? : String → Option Component
  | "" | "." => none
  | ".." => some .up
  | text => some (.name text)

/-- How a component is written. -/
def Component.text : Component → String
  | root => ""
  | here => "."
  | up => ".."
  | name text => text

/-- Whether a path starts at the root. -/
def isAbsolute (p : Pathname) : Bool := p.text.toList.head? == some '/'

/-- Whether a path is written with a slash at its end. -/
def endsInSlash (p : Pathname) : Bool := p.text.toList.getLast? == some '/'

/-- What stands between the slashes of a text, in front of the first and behind the last. -/
def split : List Char → List (List Char)
  | [] => [[]]
  | c :: cs =>
    if c = '/' then [] :: split cs
    else match split cs with
      | [] => [[c]]
      | piece :: pieces => (c :: piece) :: pieces

/-- The pieces that slashes divide a path into, some of which may be empty. -/
def pieces (p : Pathname) : List String := (split p.text.toList).map String.ofList

/-- The components in order. -/
def components (p : Pathname) : List Component :=
  let front := if p.isAbsolute then [.root] else if p.pieces.head? = some "." then [.here] else []
  front ++ p.pieces.filterMap Component.ofPiece?

/-- Whether two paths are written from the same components. -/
def same (p q : Pathname) : Bool := p.components == q.components

/-- `q` as seen from the directory `p`. -/
def join (p q : Pathname) : Pathname :=
  if q.isAbsolute then q
  else if p.text.isEmpty || p.endsInSlash then ⟨p.text ++ q.text⟩
  else ⟨p.text ++ "/" ++ q.text⟩

/-- The text without what follows the last component; both are reversed. -/
def dropTrailing : List Char → List Char
  | '/' :: cs => dropTrailing cs
  | '.' :: '/' :: cs => dropTrailing cs
  | cs => cs

/-- The path without its last component, if it has one beside the root. -/
def parent? (p : Pathname) : Option Pathname :=
  match p.components.getLast? with
  | none | some .root => none
  | some last =>
    let front := dropTrailing ((dropTrailing p.text.toList.reverse).drop last.text.length)
    some (if front.isEmpty && p.isAbsolute then ⟨"/"⟩ else ⟨String.ofList front.reverse⟩)

/-- A path and `n - 1` of those that lead to it, as far as there are so many, the longest first. -/
def ancestorsUpTo : (n : Nat) → Pathname → List Pathname
  | 0, _ => []
  | n + 1, p => p :: ((p.parent?.map (ancestorsUpTo n)).getD [])

/-- A path and those that lead to it, the longest first. -/
def ancestors (p : Pathname) : List Pathname := ancestorsUpTo p.components.length p

/-- The last component, if it is a name. -/
def fileName? (p : Pathname) : Option String :=
  match p.components.getLast? with
  | some (.name text) => some text
  | _ => none

/-- The extension of a file name: what follows its last dot, unless that dot is in front. -/
def extensionOf? (name : List Char) : Option (List Char) :=
  let ext := (name.reverse.takeWhile (· != '.')).reverse
  if name.length ≤ ext.length + 1 then none else some ext

/-- The extension of a path's file name. -/
def extension? (p : Pathname) : Option (List Char) := p.fileName?.bind (extensionOf? ·.toList)

/-- Puts `ext` in place of the file name's extension, or behind a name that has none. -/
def setExtension (p : Pathname) (ext : String) : Pathname :=
  match p.fileName? with
  | none => p
  | some name =>
    let base := (dropTrailing p.text.toList.reverse).reverse
    let old := match extensionOf? name.toList with
      | none => 0
      | some ext => ext.length + 1
    ⟨String.ofList (base.take (base.length - old)) ++ "." ++ ext⟩

/--
The path with another extension. The old extension's length is first taken off the end, so that a
name such as `..b`, of which only dots then remain, is no file name any more and stays as it is.
-/
def withExtension (p : Pathname) (ext : String) : Pathname :=
  let old := p.extension?.getD []
  let cs := p.text.toList
  setExtension ⟨String.ofList (cs.take (cs.length - old.length))⟩ ext

end Pathname

end Rewind.Storage
