import PhaseSampling.Checkpoint
import PhaseSampling.Engine.RunFor
import PhaseSampling.Sampling

/-!
# Checkpoints in chunks

`chunks` covers a whole run with checkpoints at a fixed distance. Each lies a warmup before the
chunk it measures, except the first one, which is taken right after the lead-in.
-/

namespace PhaseSampling

open PhaseSampling.Flow

structure ChunkConfig where
  outdir : String
  /-- The length of a chunk, in instructions. -/
  interval : Nat
  /-- The warmup before a chunk, in instructions. -/
  warmup : Nat
  /-- The instructions to run before the first checkpoint. -/
  leadIn : Nat
  deriving DecidableEq, Repr

/-- The checkpoint of a chunk from the instruction count at which it was taken. -/
def ChunkConfig.checkpoint (c : ChunkConfig) (index warmup inst : Nat) : Checkpoint where
  name := toString index
  short := shortName (toString index)
  long := longName (toString index) inst "0" c.interval warmup
  warmup := inst
  interval := inst + warmup
  stop := inst + warmup + c.interval
  weight := none

/-- Takes the checkpoint of a chunk where the program stands. -/
def takeCheckpoint (c : ChunkConfig) (index warmup : Nat) : Flow Checkpoint := do
  call (.checkpoint (checkpointPath c.outdir (shortName (toString index))))
  say .info s!"pin-chunk: dumped checkpoint {index}"
  let inst ← call (.count .inst)
  let cp := c.checkpoint index warmup inst
  let _ ← link c.outdir cp.short cp.long
  return cp

/-- Goes on taking checkpoints while the program runs, at most `fuel` of them. -/
def chunksFrom (c : ChunkConfig) : Nat → Array Checkpoint → Bool → Flow (Array Checkpoint)
  | _, taken, false => return taken
  | 0, _, true => fail .unfinished
  | fuel + 1, taken, true => do
    let taken := taken.push (← takeCheckpoint c taken.size c.warmup)
    chunksFrom c fuel taken (← runFor .inst c.interval)

/-- Takes checkpoints until the program exits. The first one has a warmup of one instruction. -/
def chunks (c : ChunkConfig) (fuel : Nat) : Flow (List Checkpoint) := do
  ofExcept (checkWarmup c.interval c.warmup)
  if !(← runFor .inst c.leadIn) then
    say .warn "Workload exited during the lead-in, no checkpoints taken"
    return []
  let first ← takeCheckpoint c 0 1
  let taken ← chunksFrom c fuel #[first] (← runFor .inst (c.interval - c.warmup))
  say .info s!"Exiting normally after {taken.size} checkpoints"
  return taken.toList

/-- A chunk run over an engine, for as long as the engine can need. -/
def runChunks {σ : Type} (e : Engine σ) (c : ChunkConfig) (s : Session σ) :
    Except Fault (List Checkpoint) × Session σ :=
  (chunks c (e.budget s.engine)).run e s

end PhaseSampling
