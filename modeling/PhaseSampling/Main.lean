import PhaseSampling.Command.Run
import Std.Time

/-!
# The program

The first argument names a command, the others are its own. What the controller says is read from
standard input. The command works on a tree of what stands below the working directory; what it
printed, and the files and directories that are new, are written when it has ended. Links cannot be
made from here and are told instead, and files are written unpacked.
-/

namespace PhaseSampling

/-- Adds the entries of a directory. Only files that an argument may name get their content. -/
partial def FileTree.addEntries (args : List String) (t : FileTree) (dir : Place)
    (entries : Array IO.FS.DirEntry) : IO FileTree := do
  let mut t := t
  for entry in entries do
    let p := dir ++ [entry.fileName]
    if (← entry.path.symlinkMetadata).type == .symlink then
      t := t.put p (.link (toString (← IO.FS.realPath entry.path)))
    else if ← entry.path.isDir then
      t ← (t.put p .dir).addEntries args p (← entry.path.readDir)
    else
      let named := args.any (·.endsWith entry.fileName)
      let content ← if named then IO.FS.readBinFile entry.path else pure .empty
      t := t.put p (.file .plain content.data.toList)
  return t

/-- The tree below the working directory. -/
def FileTree.load (args : List String) : IO FileTree := do
  let here ← IO.currentDir
  let t := bare (here.components.filter (· ≠ ""))
  t.addEntries args t.home (← here.readDir)

/-- Writes what a tree has and an earlier one had not, the oldest first. -/
def FileTree.store (t old : FileTree) : IO Unit := do
  for (p, node) in t.nodes.reverse do
    if old.get? p != some node then
      let path := "/" ++ String.intercalate "/" p
      match node with
      | .dir => IO.FS.createDirAll path
      | .file _ content => IO.FS.writeBinFile path ⟨content.toArray⟩
      | .link target => IO.eprintln s!"link {path} => {target}"

/-- Runs a command. The variable `LOG` may name the level of a log. -/
def Command.execute (c : Command) (args : List String) : IO UInt32 := do
  let old ← FileTree.load args
  let stream ← (← IO.getStdin).readToEnd
  let created := (← Std.Time.DateTime.now).toISO8601String
  let (ending, d) := c.run created args ⟨⟨old, #[]⟩, "", Text.Utf8.encode stream, none⟩
  if let some level := (← IO.getEnv "LOG").bind Level.ofName? then
    for line in logAt level d.world.log.toList do
      IO.eprintln s!"{line.level.name} {line.text}"
  IO.print d.printed
  d.world.files.store old
  match ending with
  | .failed f => IO.eprintln s!"Error: {f.message}"
  | .refused .usage => IO.eprintln "Error: these arguments do not fit the command"
  | _ => pure ()
  return ending.code.toUInt32

end PhaseSampling

def main (args : List String) : IO UInt32 := do
  match args with
  | name :: args =>
    if let some c := PhaseSampling.Command.ofName? name then return ← c.execute args
  | [] => pure ()
  IO.eprintln "Error: the first argument has to be bbv, cpt or chunk"
  return 2
