import PhaseSampling.Output

/-!
# Intervals

The points of a run at which intervals begin and end, and the lines that tell them to the readers
of the vectors.
-/

namespace PhaseSampling

/-- A point of a run. Without waypoints both counts are that of instructions. -/
structure Boundary where
  waypoint : Nat
  inst : Nat
  deriving DecidableEq, Repr

/-- The start of the program. -/
def Boundary.start : Boundary := ⟨0, 0⟩

/-- A sampled interval: where its warmup begins, where it begins and ends itself, and what its
histogram covers. -/
structure IntervalRecord where
  warmup : Boundary
  begins : Boundary
  ends : Boundary
  /-- The instructions covered by the histogram. -/
  total : Nat
  /-- Whether the interval has a vector and not the placeholder. -/
  wellFormed : Bool
  deriving DecidableEq, Repr

namespace IntervalRecord

/-- The waypoints of a record as three numbers with spaces between them. -/
def infoLine (r : IntervalRecord) : String :=
  s!"{r.warmup.waypoint} {r.begins.waypoint} {r.ends.waypoint}\n"

/-- Writes a line for each record. -/
def writeInfo (o : Output) (rs : List IntervalRecord) : Except Fault Unit × Output :=
  o.writeAll (rs.map infoLine)

end IntervalRecord

end PhaseSampling
