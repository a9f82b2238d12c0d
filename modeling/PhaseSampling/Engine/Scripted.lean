import PhaseSampling.Engine.Basic

/-!
# A scripted engine

Answers from queues, whatever it is asked, until a queue is empty. An answer may be a fault. It
leaves the files alone.
-/

namespace PhaseSampling

/-- A scripted answer: a value, or the text of a fault. -/
abbrev Scripted.Entry (α : Type) := Except String α

structure Scripted where
  counts : List (Scripted.Entry Nat)
  causes : List (Scripted.Entry StopCause)
  dumps : List (Scripted.Entry String)
  /-- The answers to snapshots, statistics and resets, which all succeed once it is empty. -/
  acks : List (Scripted.Entry Unit)

namespace Scripted

/-- The next entry of a queue. -/
def next {α : Type} (kind : String) : List (Entry α) → Except Fault α × List (Entry α)
  | [] => (.error (.other s!"script: no more {kind}"), [])
  | .ok a :: rest => (.ok a, rest)
  | .error text :: rest => (.error (.other text), rest)

def count (s : Scripted) : Except Fault Nat × Scripted :=
  let (r, counts) := next "counts" s.counts
  (r, { s with counts })

def stop (s : Scripted) : Except Fault StopCause × Scripted :=
  let (r, causes) := next "causes" s.causes
  (r, { s with causes })

def dump (s : Scripted) : Except Fault String × Scripted :=
  let (r, dumps) := next "dumps" s.dumps
  (r, { s with dumps })

def acknowledge (s : Scripted) : Except Fault Unit × Scripted :=
  match s.acks with
  | [] => (.ok (), s)
  | _ :: _ =>
    let (r, acks) := next "acks" s.acks
    (r, { s with acks })

def answer (c : Call) (s : Scripted) (w : World) : Except Fault c.Answer × Scripted × World :=
  let (r, s) := (match c with
    | .count _ => s.count
    | .advance .. => s.stop
    | .complete => s.stop
    | .checkpoint _ => s.acknowledge
    | .stats => s.acknowledge
    | .dump => s.dump
    | .reset => s.acknowledge : Except Fault c.Answer × Scripted)
  (r, s, w)

/-- Every cycle of a run uses up a count. -/
def engine : Engine Scripted where
  answer := answer
  budget s := 2 * s.counts.length + 4

end Scripted

end PhaseSampling
