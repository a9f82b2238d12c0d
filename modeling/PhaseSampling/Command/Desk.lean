import PhaseSampling.Engine.Controller
import PhaseSampling.Flow

/-!
# The desk of a command

What a command has at hand: the file tree, its own output and the controller once it is started.
-/

namespace PhaseSampling

structure Desk where
  world : World
  /-- What the command printed. -/
  printed : String
  /-- What a controller would say if it were started. -/
  stream : Bytes
  /-- The controller, once it is started. -/
  controller : Option Controller

/-- A command at work. What it did stays when it fails. -/
abbrev Work (α : Type) := ExceptT Fault (StateM Desk) α

namespace Work

def print (line : String) : Work Unit :=
  modify fun d => { d with printed := d.printed ++ line ++ "\n" }

def printText (text : String) : Work Unit :=
  modify fun d => { d with printed := d.printed ++ text }

/-- Reads something off the file tree. -/
def look {α : Type} (f : FileTree → Except Fault α) : Work α := do
  ofExcept (f (← get).world.files)
where
  ofExcept : Except Fault α → Work α
    | .ok a => pure a
    | .error e => throw e

/-- Changes the file tree. -/
def change (f : FileTree → Except Fault FileTree) : Work Unit := do
  let t ← look f
  modify fun d => { d with world := { d.world with files := t } }

/-- Makes a directory and gives its path from the root. -/
def openDir (path : String) : Work String := do
  let (r, world) := (← get).world.change (·.makeDirs path)
  modify fun d => { d with world }
  look fun _ => r
  look fun t => (t.canonical path).mapError .system

/-- Starts the controller. -/
def launch : Work Unit := modify fun d => { d with controller := some ⟨d.stream, ""⟩ }

/-- Lets the controller and the world take part in a step. -/
def withController {α : Type} (f : Controller → World → Controller.Result α) : Work α := do
  let d ← get
  match d.controller with
  | none => throw (.protocol .closed)
  | some c =>
    let (r, c, world) := f c d.world
    set { d with world, controller := some c }
    look fun _ => r

/-- Runs a driver over the controller into an output; gives what was written also when it fails. -/
def drive {α : Type} (run : Session Controller → Except Fault α × Session Controller) :
    Work (Except Fault α × Bytes) :=
  withController fun c w =>
    let (r, s) := run ⟨c, w, .unbounded, #[]⟩
    (.ok (r, s.output.toBytes), s.engine, s.world)

/-- Waits for the controller. -/
def shutdown : Work Unit :=
  modify fun d => { d with world := Controller.shutdown (.exited 0) d.world }

end Work

end PhaseSampling
