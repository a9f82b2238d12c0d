import PhaseSampling.Checkpoint
import PhaseSampling.FileTree.Change
import PhaseSampling.Json.Reader

/-!
# The manifest

A JSON file beside the snapshots that lists the checkpoints, when they were taken and what their
waypoints count.

* `Manifest.write`: its text.
* `Manifest.parse`: the manifest of a text.
-/

namespace PhaseSampling

open Json

structure Manifest where
  /-- When the checkpoints were taken. -/
  created : String
  counter : Counter
  checkpoints : List Checkpoint
  deriving DecidableEq, Repr

namespace Checkpoint

/-- The value of a checkpoint. The weight is left out when there is none. -/
def toJson (c : Checkpoint) : Json :=
  .object (
    [("name", .text c.name), ("short_name", .text c.short), ("long_name", .text c.long),
      ("warmup", .word c.warmup), ("interval", .word c.interval), ("end", .word c.stop)] ++
    (c.weight.map fun w => ("weight", Json.float w)).toList)

/-- What is known of a checkpoint while its fields are read. -/
structure Draft where
  name : Option String := none
  short : Option String := none
  long : Option String := none
  warmup : Option Nat := none
  interval : Option Nat := none
  stop : Option Nat := none
  weight : Option (Option Binary64) := none

/-- Reads the value of a field. -/
def Draft.step (key : String) (d : Draft) : Reader Draft :=
  match key with
  | "name" => readFresh d.name readText fun v => { d with name := some v }
  | "short_name" => readFresh d.short readText fun v => { d with short := some v }
  | "long_name" => readFresh d.long readText fun v => { d with long := some v }
  | "warmup" => readFresh d.warmup readWord fun v => { d with warmup := some v }
  | "interval" => readFresh d.interval readWord fun v => { d with interval := some v }
  | "end" => readFresh d.stop readWord fun v => { d with stop := some v }
  | "weight" => readFresh d.weight (readOption readFloat) fun v => { d with weight := some v }
  | _ => skipField d

/-- All fields but the weight are required. -/
def Draft.finish (d : Draft) : Option Checkpoint := do
  return ⟨← d.name, ← d.short, ← d.long, ← d.warmup, ← d.interval, ← d.stop, d.weight.getD none⟩

/-- Reads the fields of a checkpoint from a list. -/
def readItems : Reader Checkpoint := fun s => do
  let (name, s) ← readItem true readText s
  let (short, s) ← readItem false readText s
  let (long, s) ← readItem false readText s
  let (warmup, s) ← readItem false readWord s
  let (interval, s) ← readItem false readWord s
  let (stop, s) ← readItem false readWord s
  let (weight, s) ← readItem? (readOption readFloat) s
  return (⟨name, short, long, warmup, interval, stop, weight⟩, s)

/-- Reads a checkpoint. -/
def read : Reader Checkpoint := readRecord {} Draft.step Draft.finish readItems

end Checkpoint

/-- The counter of a name. -/
def Counter.ofName? : String → Option Counter
  | "inst" => some .inst
  | "waypoint" => some .waypoint
  | _ => none

/-- Reads the name of a counter. -/
def Counter.readName : Reader Counter := fun s => do
  let (name, r) ← readText s
  match ofName? name with
  | some c => return (c, r)
  | none => throw .mismatch

/-- Reads a null. -/
def Counter.readNull : Reader Unit := fun s =>
  match skipBlank s with
  | [] => .error .truncated
  | some 'n' :: r => readWordEnd () "ull".toList r
  | r => .error (wrongKind r)

/-- Reads a counter: its name, or an object with the name as the key of a null. -/
def Counter.read : Reader Counter := fun s =>
  match skipBlank s with
  | [] => .error .truncated
  | some '"' :: r => readName (some '"' :: r)
  | some '\x7b' :: r => do
    let (c, r) ← readName r
    let (_, r) ← readNull (← skipColon r)
    return (c, ← endFields r)
  | _ => .error .malformed

namespace Manifest

def toJson (m : Manifest) : Json :=
  .object [("created", .text m.created), ("counter", .text m.counter.name),
    ("checkpoints", .list (m.checkpoints.map Checkpoint.toJson))]

/-- The text of a manifest. -/
def write (m : Manifest) : String := m.toJson.pretty

/-- What is known of a manifest while its fields are read. -/
structure Draft where
  created : Option String := none
  counter : Option Counter := none
  checkpoints : Option (List Checkpoint) := none

/-- Reads the value of a field. -/
def Draft.step (key : String) (d : Draft) : Reader Draft :=
  match key with
  | "created" => readFresh d.created readText fun v => { d with created := some v }
  | "counter" => readFresh d.counter Counter.read fun v => { d with counter := some v }
  | "checkpoints" =>
    readFresh d.checkpoints (readAll Checkpoint.read) fun v => { d with checkpoints := some v }
  | _ => skipField d

/-- All fields are required. -/
def Draft.finish (d : Draft) : Option Manifest := do
  return ⟨← d.created, ← d.counter, ← d.checkpoints⟩

/-- Reads the fields of a manifest from a list. -/
def readItems : Reader Manifest := fun s => do
  let (created, s) ← readItem true readText s
  let (counter, s) ← readItem false Counter.read s
  let (checkpoints, s) ← readItem false (readAll Checkpoint.read) s
  return (⟨created, counter, checkpoints⟩, s)

/-- Reads a manifest. -/
def read : Reader Manifest := readRecord {} Draft.step Draft.finish readItems

/-- The manifest of a text. -/
def parse (content : Bytes) : Except JsonFault Manifest := readFrom read content

/-- Writes a manifest beside its checkpoints and gives its path. -/
def save (m : Manifest) (t : FileTree) (outdir : String) : Except Fault (String × FileTree) :=
  let path := manifestPath outdir
  match t.writeFile path .plain (Text.Utf8.encode m.write) with
  | .ok t => .ok (path, t)
  | .error f => .error (.system f)

end Manifest

end PhaseSampling
