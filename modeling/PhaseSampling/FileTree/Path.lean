import PhaseSampling.Fault
import PhaseSampling.FileTree
import PhaseSampling.Text.Pieces

/-!
# Paths

A path is text. `joinPath` puts two together; `FileTree.follow` walks a tree along the names of a
path, through the links it meets; `FileTree.find` looks up what a path names, and
`FileTree.entrance` the directory in which its last name stands.
-/

namespace PhaseSampling

/-- A path below a directory. One that starts at the root replaces the directory, and an empty
directory adds no slash. -/
def joinPath (dir name : String) : String :=
  if name.startsWith "/" || dir = "" then name
  else if dir.endsWith "/" then dir ++ name
  else dir ++ "/" ++ name

/-- A path taken apart: whether it starts at the root, its names, and whether it ends in a slash.
Doubled slashes count once. -/
structure Route where
  absolute : Bool
  names : List String
  slash : Bool
  deriving DecidableEq, Repr

def Route.of (path : String) : Route where
  absolute := path.startsWith "/"
  names := ((Text.pieces '/' path.toList).filter (· ≠ [])).map String.ofList
  slash := path.endsWith "/"

/-- The names to walk when the path has to lead to a node: a slash at the end asks for a
directory, as `.` does. -/
def Route.steps (r : Route) : List String := if r.slash then r.names ++ ["."] else r.names

/-- The longest name, in bytes. -/
def maxName : Nat := 255

/-- The length in bytes from which on a path is too long. -/
def maxPath : Nat := 4096

/-- The number of links that may be met on one walk. -/
def maxLinks : Nat := 40

def hasNul (path : String) : Bool := path.toList.contains '\x00'

/-- What is wrong with a path before any look at the tree. -/
def pathFault? (path : String) : Option SystemFault :=
  if hasNul path then some .nulInName
  else if path = "" then some .noEntry
  else if path.utf8ByteSize ≥ maxPath then some .nameTooLong
  else none

namespace FileTree

/-- Where a path starts. -/
def origin (t : FileTree) (r : Route) : Place := if r.absolute then [] else t.home

/-- Walks from a directory along names, through at most `links` links. The last name may be missing
when `fresh` is set. -/
def follow (t : FileTree) (fresh : Bool) (links : Nat) (at_ : Place) (names : List String) :
    Except SystemFault Place :=
  match names with
  | [] => .ok at_
  | name :: rest =>
    if !t.isDir at_ then .error .notDirectory
    else if name = "." then t.follow fresh links at_ rest
    else if name = ".." then t.follow fresh links at_.dropLast rest
    else if name.utf8ByteSize > maxName then .error .nameTooLong
    else
      match t.get? (at_ ++ [name]), links with
      | none, _ => if fresh && rest.isEmpty then .ok (at_ ++ [name]) else .error .noEntry
      | some (.link _), 0 => .error .tooManyLinks
      | some (.link target), links + 1 =>
        let r := Route.of target
        t.follow fresh links (if r.absolute then [] else at_) (r.steps ++ rest)
      | some _, links => t.follow fresh links (at_ ++ [name]) rest
  termination_by (links, names.length)

/-- The place of the node that a path leads to. -/
def find (t : FileTree) (path : String) : Except SystemFault Place :=
  match pathFault? path with
  | some f => .error f
  | none =>
    let r := Route.of path
    t.follow false maxLinks (t.origin r) r.steps

/-- Where a node is to be made or removed: the directory, the last name and whether a slash
follows it. `none` for a path that ends in no name but in the root, `.` or `..`. -/
def entrance (t : FileTree) (path : String) :
    Except SystemFault (Option (Place × String × Bool)) :=
  match pathFault? path with
  | some f => .error f
  | none =>
    let r := Route.of path
    match t.follow false maxLinks (t.origin r) r.names.dropLast with
    | .error f => .error f
    | .ok dir =>
      if !t.isDir dir then .error .notDirectory
      else
        match r.names.getLast? with
        | none => .ok none
        | some name =>
          if name = "." || name = ".." then .ok none
          else if name.utf8ByteSize > maxName then .error .nameTooLong
          else .ok (some (dir, name, r.slash))

end FileTree

end PhaseSampling
