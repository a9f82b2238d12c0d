import PhaseSampling.Flow
import PhaseSampling.Text.Numeral

/-!
# Running for a while

`runFor` sets a breakpoint relative to where the program stands.
-/

namespace PhaseSampling

open PhaseSampling.Flow

/-- Runs `n` more units of a counter and tells whether they were reached; the program may exit
first. A target that is no word is not asked for. -/
def runFor (counter : Counter) (n : Nat) : Flow Bool := do
  let count ← call (.count counter)
  if count + n < Text.wordLimit then
    match ← call (.advance counter (count + n)) with
    | .breakpoint => pure true
    | .completed => pure false
    | cause => fail (cause.unexpected .breakpoint)
  else fail (.protocol (.targetOverflow counter count n))

end PhaseSampling
