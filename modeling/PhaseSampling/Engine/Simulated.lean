import PhaseSampling.Engine.Basic

/-!
# A simulated program

A program of a fixed length with a waypoint every so many instructions. Its breakpoints land exactly
on their targets. The stop causes and histograms to answer with can be given beforehand.
-/

namespace PhaseSampling

structure Simulated where
  /-- The length of the program, in instructions. -/
  length : Nat
  /-- The instructions from one waypoint to the next. -/
  spacing : Nat
  /-- Where the program stands. -/
  inst : Nat
  /-- The histograms of the next dumps; after them all are empty. -/
  dumps : List String
  /-- Causes to stop with, used up before the program moves again. -/
  forced : List StopCause
  /-- The snapshots taken, with the instruction count of each. -/
  checkpoints : Array (String × Nat)
  statsDumps : Nat
  resets : Nat
  /-- The breakpoints asked for. -/
  breakpoints : Array (Counter × Nat)
  deriving DecidableEq, Repr

namespace Simulated

/-- A program that nothing was asked of yet. -/
def program (length spacing : Nat) (dumps : List String) : Simulated :=
  ⟨length, spacing, 0, dumps, [], #[], 0, 0, #[]⟩

/-- The value of a counter. -/
def count (s : Simulated) : Counter → Nat
  | .inst => s.inst
  | .waypoint => s.inst / s.spacing

/-- The instruction at which a counter has a value. -/
def position (s : Simulated) (target : Nat) : Counter → Nat
  | .inst => target
  | .waypoint => target * s.spacing

/-- Runs to a target. A target behind the program is reached where it stands, and one at the end or
beyond it is not reached. -/
def advance (s : Simulated) (counter : Counter) (target : Nat) : StopCause × Simulated :=
  let s := { s with breakpoints := s.breakpoints.push (counter, target) }
  match s.forced with
  | cause :: forced => (cause, { s with forced })
  | [] =>
    let p := s.position target counter
    if s.length ≤ p then (.completed, { s with inst := s.length })
    else (.breakpoint, { s with inst := max s.inst p })

/-- Runs to the end of the program. -/
def complete (s : Simulated) : StopCause × Simulated :=
  match s.forced with
  | cause :: forced => (cause, { s with forced })
  | [] => (.completed, { s with inst := s.length })

/-- A snapshot is a directory. -/
def checkpoint (s : Simulated) (w : World) (path : String) :
    Except Fault Unit × Simulated × World :=
  match w.change (·.makeDirs path) with
  | (.ok _, w) => (.ok (), { s with checkpoints := s.checkpoints.push (path, s.inst) }, w)
  | (.error f, w) => (.error f, s, w)

def answer (c : Call) (s : Simulated) (w : World) : Except Fault c.Answer × Simulated × World :=
  match c with
  | .count counter => (.ok (s.count counter), s, w)
  | .advance counter target =>
    let (cause, s) := s.advance counter target
    (.ok cause, s, w)
  | .complete =>
    let (cause, s) := s.complete
    (.ok cause, s, w)
  | .checkpoint path => s.checkpoint w path
  | .stats => (.ok (), { s with statsDumps := s.statsDumps + 1 }, w)
  | .dump => (.ok (s.dumps.headD ""), { s with dumps := s.dumps.tail }, w)
  | .reset => (.ok (), { s with resets := s.resets + 1 }, w)

/-- Every cycle of a run moves the program or uses up a forced cause. -/
def engine : Engine Simulated where
  answer := answer
  budget s := 2 * (s.length + s.forced.length) + 4

end Simulated

end PhaseSampling
