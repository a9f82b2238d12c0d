/-!
# Progress counters

The two counters an engine keeps of the program it runs, by which breakpoints are set.
-/

namespace PhaseSampling

inductive Counter where
  /-- Retired instructions. -/
  | inst
  /-- Waypoints, which the program marks itself. -/
  | waypoint
  deriving DecidableEq, Repr

def Counter.name : Counter → String
  | .inst => "inst"
  | .waypoint => "waypoint"

end PhaseSampling
