import PhaseSampling.Checkpoint
import PhaseSampling.Flow
import PhaseSampling.Simpoint

/-!
# Replaying simpoints

One pass over the program visits every waypoint of every simpoint. A snapshot is taken where a
warmup begins, and named once the interval has ended.

* `timeline`: the visits in order. Equal waypoints keep the order of the list.
* `replay`: the whole pass. Snapshots that were taken stay when a later step fails.
-/

namespace PhaseSampling

open PhaseSampling.Flow

/-- The part of a simpoint that a waypoint opens. -/
inductive Mark where
  | warmup
  | interval
  | stop
  deriving DecidableEq, Repr

def Mark.name : Mark → String
  | .warmup => "Warmup"
  | .interval => "Interval"
  | .stop => "End"

/-- A waypoint to visit, and whose it is. -/
structure Visit where
  waypoint : Nat
  mark : Mark
  /-- The place of the simpoint in the list. -/
  index : Nat
  point : Simpoint
  deriving DecidableEq, Repr

/-- The visits of one simpoint. -/
def Visit.all (index : Nat) (p : Simpoint) : List Visit :=
  [⟨p.waypoints.warmup, .warmup, index, p⟩, ⟨p.waypoints.interval, .interval, index, p⟩,
    ⟨p.waypoints.stop, .stop, index, p⟩]

/-- All visits, simpoint by simpoint. -/
def visits (ps : List Simpoint) : List Visit := ps.zipIdx.flatMap fun (p, i) => Visit.all i p

/-- All visits by waypoint. -/
def timeline (ps : List Simpoint) : List Visit :=
  (visits ps).mergeSort fun a b => a.waypoint ≤ b.waypoint

structure ReplayConfig where
  /-- Where the snapshots and links go. -/
  outdir : String
  /-- What the waypoints count. -/
  counter : Counter
  /-- How many instructions before the last end to stop, so that the breakpoint does not race the
  exit of the program. -/
  slack : Nat
  deriving DecidableEq, Repr

/-- Where a visit sends the engine. Only the last end, counted in instructions, is drawn back. -/
def ReplayConfig.target (c : ReplayConfig) (last : Bool) (v : Visit) : Nat :=
  if last && v.mark == .stop && c.counter == .inst then v.waypoint - c.slack else v.waypoint

/-- The instruction count found at a visit. -/
structure Reading where
  index : Nat
  mark : Mark
  inst : Nat
  deriving DecidableEq, Repr

/-- A pass between two visits. -/
structure Pass where
  /-- The newest reading first. -/
  readings : List Reading
  checkpoints : Array Checkpoint
  /-- Whether the program exited on the last visit. -/
  exited : Bool

namespace Pass

def start : Pass := ⟨[], #[], false⟩

/-- The instruction count found at a simpoint's mark. -/
def reading? (s : Pass) (index : Nat) (mark : Mark) : Option Nat :=
  (s.readings.find? fun r => r.index == index && r.mark == mark).map Reading.inst

end Pass

/-- The checkpoint of a simpoint from the counts found at its marks. -/
def Simpoint.checkpoint (p : Simpoint) (warmup interval stop : Nat) : Checkpoint where
  name := p.name
  short := shortName p.name
  long := longName (simpointLabel p.name) warmup (weightText p.weight) (stop - interval)
    (interval - warmup)
  warmup
  interval
  stop
  weight := some p.weight

/-- Names the snapshot of a simpoint whose end was reached. -/
def nameCheckpoint (c : ReplayConfig) (s : Pass) (v : Visit) : Flow Checkpoint :=
  match s.reading? v.index .warmup, s.reading? v.index .interval, s.reading? v.index .stop with
  | some warmup, some interval, some stop =>
    if warmup ≤ interval ∧ interval ≤ stop then do
      let cp := v.point.checkpoint warmup interval stop
      let _ ← link c.outdir cp.short cp.long
      return cp
    else fail (.protocol (.wentBackwards v.point.name warmup interval stop))
  | _, _, _ => fail (.endedTooSoon v.point.name)

/-- Runs to a visit and tells whether the program is still there. It may exit on the last one. -/
def reach (c : ReplayConfig) (last : Bool) (v : Visit) : Flow Bool := do
  let target := c.target last v
  say .debug s!"simpoint {v.point.name}: {v.mark.name} at {c.counter.name} {target}"
  match ← call (.advance c.counter target) with
  | .breakpoint => return true
  | .completed =>
    if last then
      let at_ := s!"{c.counter.name} {target}"
      say .warn s!"Workload exited before {at_}, ending simpoint {v.point.name} at exit"
      return false
    else fail (.exitedEarly c.counter target)
  | cause => fail (cause.unexpected .breakpoint)

/-- Makes a visit. -/
def visit (c : ReplayConfig) (last : Bool) (s : Pass) (v : Visit) : Flow Pass := do
  let running ← reach c last v
  let inst ← call (.count .inst)
  let s := { s with
    readings := ⟨v.index, v.mark, inst⟩ :: s.readings
    exited := !running }
  match v.mark with
  | .warmup =>
    call (.checkpoint (checkpointPath c.outdir (shortName v.point.name)))
    call .stats
    say .info s!"pin-cpt: dumped checkpoint {v.point.name}"
    return s
  | .interval => return s
  | .stop =>
    let cp ← nameCheckpoint c s v
    return { s with checkpoints := s.checkpoints.push cp }

/-- Makes visits in turn. -/
def visitAll (c : ReplayConfig) (s : Pass) : List Visit → Flow Pass
  | [] => return s
  | v :: vs => do visitAll c (← visit c vs.isEmpty s v) vs

/-- Replays simpoints in one pass and gives their checkpoints, in the order of their ends. Unless
the program exited on the last visit it then runs to its end. -/
def replay (c : ReplayConfig) (ps : List Simpoint) : Flow (List Checkpoint) := do
  ofExcept (Simpoint.validate ps)
  let s ← visitAll c .start (timeline ps)
  if !s.exited then
    ofExcept ((← call .complete).expect .completed)
  return s.checkpoints.toList

end PhaseSampling
