import PhaseSampling.Engine.RunFor
import PhaseSampling.FrequencyVector
import PhaseSampling.Interval

/-!
# Sampling intervals

A sampling run takes the program through a warmup and then through cycles. A cycle runs to where
the next interval's warmup begins and then to where that interval begins, which is where the
current one ends; there the histogram is dumped and started anew.

* `Sampler.step`: one step of the run, from stage to stage.
* `sample`: the whole run. It writes a vector for every interval and ends with their records.
-/

namespace PhaseSampling

open PhaseSampling.Flow

structure SamplingConfig where
  /-- The warmup before an interval, in instructions. -/
  warmup : Nat
  /-- The length of an interval, in instructions. -/
  interval : Nat
  /-- Intervals heavier than `interval * tolerance` get the placeholder. -/
  tolerance : Nat
  /-- Whether every boundary is moved to the next waypoint. -/
  waypoints : Bool
  deriving DecidableEq, Repr

/-- A warmup has to fit in an interval with room to spare. -/
def checkWarmup (interval warmup : Nat) : Except Fault Unit :=
  if interval ≤ warmup then .error (.intervalNotAboveWarmup interval warmup) else .ok ()

def SamplingConfig.validate (c : SamplingConfig) : Except Fault Unit :=
  checkWarmup c.interval c.warmup

/-- Where a run went. -/
inductive Advance where
  | reached (b : Boundary)
  | exited
  deriving DecidableEq, Repr

/-- Runs `n` instructions and, if boundaries are aligned, on to the next waypoint. -/
def SamplingConfig.advance (c : SamplingConfig) (n : Nat) : Flow Advance := do
  if !(← runFor .inst n) then return .exited
  if c.waypoints then
    if !(← runFor .waypoint 1) then return .exited
    let inst ← call (.count .inst)
    let waypoint ← call (.count .waypoint)
    return .reached ⟨waypoint, inst⟩
  else
    let inst ← call (.count .inst)
    return .reached ⟨inst, inst⟩

inductive Stage where
  /-- In the first warmup, whose histogram is not kept. -/
  | warming
  /-- On the way to the next two boundaries. -/
  | sampling
  /-- An interval is complete and its histogram due. -/
  | dumping
  /-- The program exited. -/
  | done
  deriving DecidableEq, Repr

/-- A sampling run between two steps. -/
structure Sampler where
  stage : Stage
  writer : VectorWriter
  /-- Where warmups begin; the first one at the start of the program. -/
  warmups : Array Boundary
  /-- Where intervals begin; each of these but the first also ends one. -/
  bounds : Array Boundary
  records : Array IntervalRecord

namespace Sampler

def start (c : SamplingConfig) : Sampler where
  stage := .warming
  writer := .new c.interval c.tolerance
  warmups := #[.start]
  bounds := #[]
  records := #[]

/-- The three lists are out of step. -/
def mismatch (s : Sampler) : Fault :=
  .bookkeeping s.warmups.size s.bounds.size s.records.size

/-- Files the histogram of the interval between the two newest boundaries. -/
def dump (s : Sampler) : Flow Sampler := do
  let i := s.records.size
  let h ← ofExcept (Histogram.parse (← call .dump))
  let (entry, writer) := s.writer.entry h
  if let some text := entry.warning then say .warn text
  append entry.line
  match s.warmups[i]?, s.bounds[i]?, s.bounds[i + 1]? with
  | some warmup, some begins, some ends =>
    call .reset
    say .info s!"bbv: dumped interval {i + 1}"
    return { s with
      stage := .sampling
      writer
      records := s.records.push ⟨warmup, begins, ends, h.total, entry.wellFormed⟩ }
  | _, _, _ => fail s.mismatch

/-- One step of a run. An exit ends it wherever it happens. -/
def step (c : SamplingConfig) (s : Sampler) : Flow Sampler :=
  match s.stage with
  | .warming => do
    match ← c.advance c.warmup with
    | .exited => return { s with stage := .done }
    | .reached b =>
      call .reset
      return { s with stage := .sampling, bounds := s.bounds.push b }
  | .sampling => do
    match ← c.advance (c.interval - c.warmup) with
    | .exited => return { s with stage := .done }
    | .reached b =>
      let s := { s with warmups := s.warmups.push b }
      match ← c.advance c.warmup with
      | .exited => return { s with stage := .done }
      | .reached b => return { s with stage := .dumping, bounds := s.bounds.push b }
  | .dumping => s.dump
  | .done => return s

/-- Steps until the program has exited, at most `fuel` of them. -/
def steps (c : SamplingConfig) : Nat → Sampler → Flow Sampler
  | 0, s => if s.stage = .done then return s else fail .unfinished
  | fuel + 1, s => if s.stage = .done then return s else do steps c fuel (← s.step c)

end Sampler

/-- An exit can cut off at most one step of a cycle. -/
def checkBookkeeping (warmups intervals dumps : Nat) : Except Fault Unit :=
  if warmups < intervals ∨ warmups < dumps ∨ 1 < warmups - intervals ∨
      1 < max intervals dumps - min intervals dumps then
    .error (.bookkeeping warmups intervals dumps)
  else .ok ()

/-- Samples until the program exits, in at most `fuel` steps, and gives the records of the
intervals whose vectors were written. -/
def sample (c : SamplingConfig) (fuel : Nat) : Flow (List IntervalRecord) := do
  ofExcept c.validate
  let s ← Sampler.steps c fuel (.start c)
  ofExcept (checkBookkeeping s.warmups.size s.bounds.size s.records.size)
  say .info
    s!"Workload exited after {s.records.size} intervals ({s.writer.registry.size} distinct blocks)"
  return s.records.toList

/-- A sampling run over an engine, for as long as the engine can need. -/
def runSampling {σ : Type} (e : Engine σ) (c : SamplingConfig) (s : Session σ) :
    Except Fault (List IntervalRecord) × Session σ :=
  (sample c (e.budget s.engine)).run e s

end PhaseSampling
