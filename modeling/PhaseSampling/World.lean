import PhaseSampling.FileTree.Change

/-!
# The surroundings of a run

What a run shares with its engine: the file tree and the log. Links to snapshots are made here.
-/

namespace PhaseSampling

/-- How much a log line matters, the most first. -/
inductive Level where
  | warn
  | info
  | debug
  | trace
  deriving DecidableEq, Repr

def Level.name : Level → String
  | .warn => "warn"
  | .info => "info"
  | .debug => "debug"
  | .trace => "trace"

/-- The level of a name. -/
def Level.ofName? (s : String) : Option Level :=
  [.warn, .info, .debug, .trace].find? (·.name == s)

/-- The rank of a level; a log at some level shows all of that rank or less. -/
def Level.rank : Level → Nat
  | .warn => 0
  | .info => 1
  | .debug => 2
  | .trace => 3

structure LogLine where
  level : Level
  text : String
  deriving DecidableEq, Repr

/-- The lines that a log at a level shows. -/
def logAt (level : Level) (log : List LogLine) : List LogLine :=
  log.filter (·.level.rank ≤ level.rank)

structure World where
  files : FileTree
  log : Array LogLine
  deriving Repr

namespace World

def say (w : World) (level : Level) (text : String) : World :=
  { w with log := w.log.push ⟨level, text⟩ }

/-- Runs a change of the file tree that keeps what it did also when it fails. -/
def change (w : World) (f : FileTree → Except SystemFault Unit × FileTree) :
    Except Fault Unit × World :=
  match f w.files with
  | (.ok _, t) => (.ok (), { w with files := t })
  | (.error e, t) => (.error (.system e), { w with files := t })

end World

/-- Puts a link at a path in place of a file or link that is there. The removal may fail; then the
link cannot be made either, unless there was nothing to remove. -/
def FileTree.relink (t : FileTree) (target path : String) : Except SystemFault Unit × FileTree :=
  let t := match t.remove path with
    | .ok t => t
    | .error _ => t
  match t.makeLink target path with
  | .ok t => (.ok (), t)
  | .error f => (.error f, t)

/-- Links the long name of a checkpoint in the output directory to its short name, and gives the
path of the link. -/
def World.link (w : World) (outdir short long : String) : Except Fault String × World :=
  let path := joinPath outdir long
  match w.change fun t => t.relink short path with
  | (.ok _, w) => (.ok path, w.say .info s!"Create symlink: {path} => {short}")
  | (.error f, w) => (.error f, w)

namespace World

variable {w : World} {outdir short long : String} {t : FileTree}

/-- A link that is put is told in the log. -/
theorem link_of_relink (h : w.files.relink short (joinPath outdir long) = (.ok (), t)) :
    w.link outdir short long = (.ok (joinPath outdir long),
      { w with files := t }.say .info s!"Create symlink: {joinPath outdir long} => {short}") := by
  have hc : w.change (·.relink short (joinPath outdir long)) = (.ok (), { w with files := t }) := by
    rw [change, h]
  unfold link
  dsimp only
  rw [hc]

/-- A link that cannot be put is not. -/
theorem link_of_relink_error {cause : SystemFault}
    (h : w.files.relink short (joinPath outdir long) = (.error cause, t)) :
    w.link outdir short long = (.error (.system cause), { w with files := t }) := by
  have hc : w.change (·.relink short (joinPath outdir long)) =
      (.error (.system cause), { w with files := t }) := by rw [change, h]
  unfold link
  dsimp only
  rw [hc]

end World

end PhaseSampling
