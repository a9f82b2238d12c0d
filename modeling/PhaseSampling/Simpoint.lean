import PhaseSampling.Decimal.Binary64
import PhaseSampling.Fault

/-!
# Simpoints

A simpoint is an interval chosen to stand for a part of the run: its name, its weight and the three
waypoints at which its warmup, itself and its end lie. `Simpoint.validate` says which lists can be
replayed in one pass.
-/

namespace PhaseSampling

/-- Where the warmup of an interval begins, where the interval begins, and where it ends. -/
structure Waypoints where
  warmup : Nat
  interval : Nat
  stop : Nat
  deriving DecidableEq, Repr

def Waypoints.Ordered (w : Waypoints) : Prop := w.warmup ≤ w.interval ∧ w.interval ≤ w.stop

instance (w : Waypoints) : Decidable w.Ordered := inferInstanceAs (Decidable (_ ∧ _))

structure Simpoint where
  /-- The name of its checkpoint, mostly the number of its cluster. -/
  name : String
  /-- The part of the run that it stands for. -/
  weight : Binary64
  waypoints : Waypoints
  /-- The place of the interval among the sampled ones. -/
  interval : Option Nat
  deriving DecidableEq, Repr

namespace Simpoint

/-- What two neighbours are compared by: the places of their intervals if both have one, else the
waypoints at which their intervals begin. -/
def keys (p q : Simpoint) : Nat × Nat :=
  match p.interval, q.interval with
  | some a, some b => (a, b)
  | _, _ => (p.waypoints.interval, q.waypoints.interval)

/-- The first name that occurred before. -/
def firstRepeated (seen : List String) : List Simpoint → Option String
  | [] => none
  | p :: ps => if p.name ∈ seen then some p.name else firstRepeated (p.name :: seen) ps

/-- The first simpoint whose own waypoints are out of order. -/
def firstUnordered (ps : List Simpoint) : Option Simpoint := ps.find? fun p => !p.waypoints.Ordered

/-- The first two neighbours that do not increase. -/
def firstNotIncreasing : List Simpoint → Option (Simpoint × Simpoint)
  | p :: q :: ps =>
    if (p.keys q).2 ≤ (p.keys q).1 then some (p, q) else firstNotIncreasing (q :: ps)
  | _ => none

/-- Names must be unique, since each owns a snapshot; the waypoints of each must be in order; and
neighbours must increase. Of several faults the first of these kinds is reported. -/
def validate (ps : List Simpoint) : Except Fault Unit :=
  match firstRepeated [] ps with
  | some name => .error (.duplicateName name)
  | none =>
    match firstUnordered ps with
    | some p => .error
        (.unorderedWaypoints p.name p.waypoints.warmup p.waypoints.interval p.waypoints.stop)
    | none =>
      match firstNotIncreasing ps with
      | some (p, q) => .error (.notIncreasing p.name q.name (p.keys q).1 (p.keys q).2)
      | none => .ok ()

end Simpoint

end PhaseSampling
