import PhaseSampling.Decimal.Style
import PhaseSampling.FileTree.Path
import PhaseSampling.Text.Numeral

/-!
# Names of checkpoints

In the output directory a snapshot `cpt.<name>` is reached through a link whose long name tells
what it is for:

    cpt.simpoint_<label>_inst_<n>_weight_<w>_interval_<m>_warmup_<k>

The manifest stands beside them.
-/

namespace PhaseSampling

/-- The name of a snapshot. -/
def shortName (name : String) : String := "cpt." ++ name

/-- The name of the link to a snapshot. -/
def longName (label : String) (inst : Nat) (weight : String) (interval warmup : Nat) : String :=
  s!"cpt.simpoint_{label}_inst_{inst}_weight_{weight}_interval_{interval}_warmup_{warmup}"

/-- Pads a numeral on the left to two digits. -/
def padTwo (ds : List Char) : List Char := List.replicate (2 - ds.length) '0' ++ ds

/-- How a simpoint's name stands in long names: a numeral by its value, with two digits at least,
and any other name as it is. -/
def simpointLabel (name : String) : String :=
  match Text.readWord? name.toList with
  | some n => String.ofList (padTwo (Nat.toDigits 10 n))
  | none => name

/-- Weights are written positionally in the fewest digits that read back, a tie going up. -/
def weightStyle : Decimal.Style := ⟨.upper, none, ""⟩

/-- The text of a weight in long names. A whole number has all its digits and one decimal place. -/
def weightText (w : Binary64) : String :=
  match w.view, w.whole? with
  | .finite negative _ _, some n => (if negative then "-" else "") ++ s!"{n}.0"
  | _, _ => weightStyle.text w

/-- The path of a snapshot. -/
def checkpointPath (outdir short : String) : String := joinPath outdir short

/-- The path of the manifest. -/
def manifestPath (outdir : String) : String := joinPath outdir "checkpoints.json"

end PhaseSampling
