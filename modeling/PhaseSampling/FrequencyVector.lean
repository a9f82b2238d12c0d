import PhaseSampling.Histogram
import PhaseSampling.Output
import PhaseSampling.Registry

/-!
# Frequency vectors

The vector of an interval is one line `T :<number>:<weight> …` with an entry for each block of the
histogram. An interval that ran far past its nominal length has the placeholder instead.

* `VectorWriter.entry`: the line of a histogram, and what the writer remembers.
* `VectorWriter.emit`: the same, written to an output.
-/

namespace PhaseSampling

/-- Stands for the vector of an interval that is too heavy. -/
def placeholderLine : String := "T :1:1\n"

/-- The vector of a histogram. Blocks seen for the first time get the next numbers. -/
def vectorLine (r : Registry) (h : Histogram) : String × Registry :=
  let (ns, r) := r.numbers (h.blocks.map Block.key)
  let entries := (ns.zip h.blocks).map fun (n, b) => s!" :{n}:{b.weight}"
  ("T" ++ String.join entries ++ "\n", r)

structure VectorWriter where
  registry : Registry
  /-- Heavier intervals get the placeholder. -/
  limit : Nat
  deriving DecidableEq, Repr

/-- What a writer makes of a histogram. -/
structure VectorEntry where
  line : String
  wellFormed : Bool
  /-- What there is to say about it. -/
  warning : Option String

namespace VectorWriter

/-- A writer whose limit is the tolerated multiple of the interval, at most the largest word. -/
def new (interval tolerance : Nat) : VectorWriter :=
  ⟨.empty, min (interval * tolerance) Text.wordMax⟩

def fits (w : VectorWriter) (h : Histogram) : Bool := h.total ≤ w.limit

/-- The line of a histogram. The placeholder takes no numbers. -/
def entry (w : VectorWriter) (h : Histogram) : VectorEntry × VectorWriter :=
  if w.fits h then
    let (line, r) := vectorLine w.registry h
    (⟨line, true, none⟩, { w with registry := r })
  else
    (⟨placeholderLine, false,
      some s!"Interval covers {h.total} instructions (limit {w.limit}), emitting placeholder"⟩, w)

/-- Appends the line of a histogram to an output and tells whether it is a vector. Its blocks keep
their numbers also when the output is full. -/
def emit (w : VectorWriter) (o : Output) (h : Histogram) :
    Except Fault Bool × VectorWriter × Output :=
  let (e, w) := w.entry h
  match o.writeText e.line with
  | (.ok _, o) => (.ok e.wellFormed, w, o)
  | (.error f, o) => (.error f, w, o)

end VectorWriter

end PhaseSampling
