import PhaseSampling.FileTree.Change
import PhaseSampling.Json.Reader
import PhaseSampling.Simpoint

/-!
# Simpoint files

A simpoint file is a JSON list of records with the fields `name`, `weight`, `waypoints` and, if it
is known, `interval`. A name may be a text or a word, which stands for its digits. Fields that are
not known are skipped.
-/

namespace PhaseSampling.Simpoint

open Json

/-- The value of a simpoint. -/
def toJson (p : Simpoint) : Json :=
  let w := p.waypoints
  .object (
    [("name", .text p.name), ("weight", .float p.weight),
      ("waypoints", .list [.word w.warmup, .word w.interval, .word w.stop])] ++
    (p.interval.map fun n => ("interval", Json.word n)).toList)

/-- A list of simpoints as JSON text. -/
def write (ps : List Simpoint) : String := (Json.list (ps.map toJson)).compact

/-- Reads a name. Any value is read to its end before it is refused. -/
def readName : Reader String := fun s => do
  match ← readValue (maxDepth - 2) s with
  | (.text t, r) => return (t, r)
  | (.word n, r) => return (toString n, r)
  | _ => throw .mismatch

/-- Reads three waypoints. -/
def readWaypoints : Reader Waypoints := fun s =>
  match skipBlank s with
  | [] => .error .truncated
  | some '[' :: r => do
    let (warmup, r) ← readItem true readWord r
    let (interval, r) ← readItem false readWord r
    let (stop, r) ← readItem false readWord r
    return (⟨warmup, interval, stop⟩, ← endItems r)
  | r => .error (wrongKind r)

/-- What is known of a simpoint while its fields are read. -/
structure Draft where
  name : Option String := none
  weight : Option Binary64 := none
  waypoints : Option Waypoints := none
  interval : Option (Option Nat) := none

/-- Reads the value of a field. -/
def Draft.step (key : String) (d : Draft) : Reader Draft :=
  match key with
  | "name" => readFresh d.name readName fun v => { d with name := some v }
  | "weight" => readFresh d.weight readFloat fun v => { d with weight := some v }
  | "waypoints" => readFresh d.waypoints readWaypoints fun v => { d with waypoints := some v }
  | "interval" =>
    readFresh d.interval (readOption readWord) fun v => { d with interval := some v }
  | _ => skipField d

/-- All fields but the interval are required. -/
def Draft.finish (d : Draft) : Option Simpoint := do
  return ⟨← d.name, ← d.weight, ← d.waypoints, d.interval.getD none⟩

/-- Reads the fields of a simpoint from a list. -/
def readItems : Reader Simpoint := fun s => do
  let (name, s) ← readItem true readName s
  let (weight, s) ← readItem false readFloat s
  let (waypoints, s) ← readItem false readWaypoints s
  let (interval, s) ← readItem? (readOption readWord) s
  return (⟨name, weight, waypoints, interval⟩, s)

/-- Reads a simpoint. -/
def read : Reader Simpoint := readRecord {} Draft.step Draft.finish readItems

/-- The simpoints of a file's content. -/
def parse (content : Bytes) : Except JsonFault (List Simpoint) := readFrom (readAll read) content

/-- The simpoints of a file. A directory can be opened but not read. -/
def load (t : FileTree) (path : String) : Except Fault (List Simpoint) :=
  match t.contents path with
  | .error f => .error (.system f)
  | .ok none => .error (.json .unreadable)
  | .ok (some content) => (parse content).mapError .json

end PhaseSampling.Simpoint
