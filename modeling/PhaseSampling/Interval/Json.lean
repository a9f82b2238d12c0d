import PhaseSampling.Interval
import PhaseSampling.Json.Value

/-!
# Records as JSON values

Records of intervals as values and back. A record may be given as an object or as the list of its
fields; fields that are not known do not count.
-/

namespace PhaseSampling

namespace Json

/-- The fields of a record: those of an object by their keys, or all items of a list. -/
def fields? (v : Json) (keys : List String) : Option (List Json) :=
  match v with
  | .object _ => keys.mapM v.field?
  | .list items => if items.length = keys.length then some items else none
  | _ => none

def word? : Json → Option Nat
  | .word n => some n
  | _ => none

def bool? : Json → Option Bool
  | .bool b => some b
  | _ => none

end Json

namespace Boundary

def toJson (b : Boundary) : Json := .object [("waypoint", .word b.waypoint), ("inst", .word b.inst)]

def ofJson? (v : Json) : Option Boundary := do
  match ← v.fields? ["waypoint", "inst"] with
  | [waypoint, inst] => return ⟨← waypoint.word?, ← inst.word?⟩
  | _ => none

end Boundary

namespace IntervalRecord

def toJson (r : IntervalRecord) : Json :=
  .object [("warmup", r.warmup.toJson), ("interval_begin", r.begins.toJson),
    ("interval_end", r.ends.toJson), ("total_insts", .word r.total),
    ("well_formed", .bool r.wellFormed)]

def ofJson? (v : Json) : Option IntervalRecord := do
  let keys := ["warmup", "interval_begin", "interval_end", "total_insts", "well_formed"]
  match ← v.fields? keys with
  | [warmup, begins, ends, total, wellFormed] =>
    return ⟨← Boundary.ofJson? warmup, ← Boundary.ofJson? begins, ← Boundary.ofJson? ends,
      ← total.word?, ← wellFormed.bool?⟩
  | _ => none

/-- The records of a list. A value of another shape is a mismatch. -/
def listOfJson (v : Json) : Except JsonFault (List IntervalRecord) :=
  match v with
  | .list items =>
    match items.mapM ofJson? with
    | some rs => .ok rs
    | none => .error .mismatch
  | _ => .error .mismatch

end IntervalRecord

end PhaseSampling
