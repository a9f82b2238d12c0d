import PhaseSampling.FileTree.Path

/-!
# Reading and changing a file tree

Each operation takes a path, looks it up and changes the tree at one place at most. One that fails
leaves the tree as it was, save `makeDirs`, which keeps the directories it made on the way.
-/

namespace PhaseSampling.FileTree

def isDirPath (t : FileTree) (path : String) : Bool :=
  match t.find path with
  | .ok p => t.isDir p
  | .error _ => false

/-- The path of a node from the root, without links and dots. -/
def canonical (t : FileTree) (path : String) : Except SystemFault String :=
  match t.find path with
  | .ok p => .ok ("/" ++ String.intercalate "/" p)
  | .error f => .error f

/-- Makes a directory; nothing may be there. -/
def makeDir (t : FileTree) (path : String) : Except SystemFault FileTree :=
  match t.entrance path with
  | .error f => .error f
  | .ok none => .error .occupied
  | .ok (some (dir, name, _)) =>
    let p := dir ++ [name]
    if (t.get? p).isSome then .error .occupied else .ok (t.put p .dir)

/-- The paths of the directories above a path, nearest first, from the number of its names. -/
def parents (path : String) : List String :=
  let r := Route.of path
  let names := r.names.filter (· ≠ ".")
  let text (names : List String) : String :=
    (if r.absolute then "/" else "") ++ String.intercalate "/" names
  (List.range names.length).map fun i => text (names.take (names.length - 1 - i))

/-- Makes a directory and the missing ones among `above`, the directories above it. -/
def makeDirsBelow (t : FileTree) (path : String) : List String →
    Except SystemFault Unit × FileTree
  | [] =>
    match t.makeDir path with
    | .ok t => (.ok (), t)
    | .error .noEntry => (.error .noTree, t)
    | .error f => (if t.isDirPath path then .ok () else .error f, t)
  | parent :: above =>
    match t.makeDir path with
    | .ok t => (.ok (), t)
    | .error .noEntry =>
      match if parent = "" then (.ok (), t) else t.makeDirsBelow parent above with
      | (.error f, t) => (.error f, t)
      | (.ok _, t) =>
        match t.makeDir path with
        | .ok t => (.ok (), t)
        | .error f => (if t.isDirPath path then .ok () else .error f, t)
    | .error f => (if t.isDirPath path then .ok () else .error f, t)

/-- Makes a directory with all that is missing on the way to it. -/
def makeDirs (t : FileTree) (path : String) : Except SystemFault Unit × FileTree :=
  if path = "" then (.ok (), t) else t.makeDirsBelow path (parents path)

/-- Removes a file or a link. -/
def remove (t : FileTree) (path : String) : Except SystemFault FileTree :=
  match t.entrance path with
  | .error f => .error f
  | .ok none => .error .isDirectory
  | .ok (some (dir, name, slash)) =>
    let p := dir ++ [name]
    match t.get? p with
    | none => .error .noEntry
    | some .dir => .error .isDirectory
    | some _ => if slash then .error .notDirectory else .ok (t.erase p)

/-- Makes a link; nothing may be there. The target is not looked up. -/
def makeLink (t : FileTree) (target path : String) : Except SystemFault FileTree :=
  match if hasNul path then some .nulInName else pathFault? target with
  | some f => .error f
  | none =>
    match t.entrance path with
    | .error f => .error f
    | .ok none => .error .occupied
    | .ok (some (dir, name, slash)) =>
      let p := dir ++ [name]
      if (t.get? p).isSome then .error .occupied
      else if slash then .error .noEntry
      else .ok (t.put p (.link target))

/-- The place of the file that a path names for writing, which need not be there yet. -/
def fileToWrite (t : FileTree) (path : String) : Except SystemFault Place :=
  match pathFault? path with
  | some f => .error f
  | none =>
    let r := Route.of path
    if r.slash then
      match t.follow false maxLinks (t.origin r) r.names.dropLast with
      | .error f => .error f
      | .ok dir => .error (if t.isDir dir then .isDirectory else .notDirectory)
    else
      match t.follow true maxLinks (t.origin r) r.names with
      | .error f => .error f
      | .ok p => if t.isDir p then .error .isDirectory else .ok p

/-- Writes a whole file, in place of what it held. -/
def writeFile (t : FileTree) (path : String) (packing : Packing) (content : Bytes) :
    Except SystemFault FileTree :=
  match t.fileToWrite path with
  | .error f => .error f
  | .ok p => .ok (t.put p (.file packing content))

/-- The content of a file; `none` for a directory. -/
def contents (t : FileTree) (path : String) : Except SystemFault (Option Bytes) :=
  match t.find path with
  | .error f => .error f
  | .ok p =>
    match t.get? p with
    | some (.file _ content) => .ok (some content)
    | _ => .ok none

end PhaseSampling.FileTree
