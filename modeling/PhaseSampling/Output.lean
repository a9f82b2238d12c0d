import PhaseSampling.Fault

/-!
# Bounded outputs

An output takes bytes until it is full. A write beyond its room keeps what fits and then fails;
`toBytes_write` says that the content is always cut from what an unbounded output would hold.
-/

namespace PhaseSampling

structure Output where
  content : Array UInt8
  /-- How many bytes it holds at most; `none` for no bound. -/
  capacity : Option Nat
  deriving DecidableEq, Repr

namespace Output

def unbounded : Output := ⟨#[], none⟩

def bounded (capacity : Nat) : Output := ⟨#[], some capacity⟩

def toBytes (o : Output) : Bytes := o.content.toList

/-- What of some bytes still fits. -/
def fitting (o : Output) (bs : Bytes) : Bytes :=
  match o.capacity with
  | some n => bs.take (n - o.content.size)
  | none => bs

/-- Adds bytes at the end, and fails when not all of them fit. -/
def write (o : Output) (bs : Bytes) : Except Fault Unit × Output :=
  let kept := o.fitting bs
  (if kept.length = bs.length then .ok () else .error (.system .outputFull),
    { o with content := o.content ++ kept })

/-- Adds text at the end. -/
def writeText (o : Output) (s : String) : Except Fault Unit × Output := o.write (Text.Utf8.encode s)

/-- Adds several texts, up to the first that does not fit. -/
def writeAll (o : Output) : List String → Except Fault Unit × Output
  | [] => (.ok (), o)
  | s :: ss =>
    match o.writeText s with
    | (.ok _, o) => o.writeAll ss
    | (.error f, o) => (.error f, o)

theorem toBytes_write (o : Output) (bs : Bytes) :
    (o.write bs).2.toBytes = o.toBytes ++ o.fitting bs := by
  simp [write, toBytes]

theorem capacity_write (o : Output) (bs : Bytes) : (o.write bs).2.capacity = o.capacity := rfl

end Output

end PhaseSampling
