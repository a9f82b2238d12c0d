import PhaseSampling.Checkpoint.Name

/-!
# Checkpoints

A snapshot together with the region of the run that it anchors.
-/

namespace PhaseSampling

structure Checkpoint where
  name : String
  short : String
  long : String
  /-- The instruction count where the warmup begins and the snapshot was taken. -/
  warmup : Nat
  /-- The instruction count where the measured interval begins. -/
  interval : Nat
  /-- The instruction count where the measured interval ends. -/
  stop : Nat
  weight : Option Binary64
  deriving DecidableEq, Repr

namespace Checkpoint

def warmupLength (c : Checkpoint) : Nat := c.interval - c.warmup

def intervalLength (c : Checkpoint) : Nat := c.stop - c.interval

end Checkpoint

end PhaseSampling
