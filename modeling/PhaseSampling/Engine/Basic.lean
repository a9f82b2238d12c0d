import PhaseSampling.Engine.StopCause
import PhaseSampling.World

/-!
# Engines

An engine runs the program under study and answers one call at a time. A call fixes the type of
its answer; an engine is any way of answering, from a state of its own and the world it shares.
-/

namespace PhaseSampling

/-- What can be asked of an engine. -/
inductive Call where
  /-- The value of a counter. -/
  | count (counter : Counter)
  /-- Run until a counter has a value. -/
  | advance (counter : Counter) (target : Nat)
  /-- Run until the engine stops by itself. -/
  | complete
  /-- Take a snapshot. -/
  | checkpoint (path : String)
  /-- Write out the statistics. -/
  | stats
  /-- The histogram since the last reset, as text. -/
  | dump
  /-- Start a new histogram. -/
  | reset
  deriving DecidableEq, Repr

/-- The answer that a call asks for. -/
abbrev Call.Answer : Call → Type
  | .count _ => Nat
  | .advance .. => StopCause
  | .complete => StopCause
  | .checkpoint _ => Unit
  | .stats => Unit
  | .dump => String
  | .reset => Unit

instance (c : Call) : DecidableEq c.Answer :=
  match c with
  | .count _ => inferInstanceAs (DecidableEq Nat)
  | .advance .. => inferInstanceAs (DecidableEq StopCause)
  | .complete => inferInstanceAs (DecidableEq StopCause)
  | .checkpoint _ => inferInstanceAs (DecidableEq Unit)
  | .stats => inferInstanceAs (DecidableEq Unit)
  | .dump => inferInstanceAs (DecidableEq String)
  | .reset => inferInstanceAs (DecidableEq Unit)

structure Engine (σ : Type) where
  answer : (c : Call) → σ → World → Except Fault c.Answer × σ × World
  /-- A number of sampling steps that a run in this state does not need. -/
  budget : σ → Nat

/-- A call and what was answered; `none` when it failed. -/
structure Exchange where
  call : Call
  answer : Option call.Answer
  deriving DecidableEq

end PhaseSampling
