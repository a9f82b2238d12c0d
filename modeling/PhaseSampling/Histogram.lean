import PhaseSampling.Fault
import PhaseSampling.Text.Blank
import PhaseSampling.Text.Numeral

/-!
# Basic block histograms

A dump has a line `<count> <block>` for each block the program entered in an interval. A block is
a list of instruction addresses joined by commas and is otherwise opaque.

* `Block.length`, `Block.weight`: the instructions of a block, once and as often as it ran.
* `Histogram.parse`: the histogram of a dump, with its total, which must be a word.
-/

namespace PhaseSampling

open Text

/-- A block and how often it was entered. -/
structure Block where
  key : String
  count : Nat
  deriving DecidableEq, Repr

/-- The number of instructions of a block: its parts between commas. -/
def blockLength (key : String) : Nat := key.toList.count ',' + 1

def Block.length (b : Block) : Nat := blockLength b.key

/-- The instructions a block retired, at most the largest word. -/
def Block.weight (b : Block) : Nat := min (b.count * b.length) wordMax

/-- The blocks of an interval in dump order, and the instructions they retired. -/
structure Histogram where
  blocks : List Block
  total : Nat
  deriving DecidableEq, Repr

namespace Histogram

def empty : Histogram := ⟨[], 0⟩

/-- Reads a line: two fields, of which the first is a numeral other than zero. -/
def parseLine? (line : List Char) : Option Block :=
  match fields line with
  | [count, key] =>
    match readWord? count with
    | some (n + 1) => some ⟨String.ofList key, n + 1⟩
    | _ => none
  | _ => none

/-- Reads the lines from number `k` on, after lines that retired `total`. The sum may not leave
the range of words at any line. -/
def parseLines (k total : Nat) : List (List Char) → Except Fault Histogram
  | [] => .ok ⟨[], total⟩
  | line :: lines =>
    match parseLine? line with
    | some b =>
      let total := total + b.count * b.length
      if total < wordLimit then
        match parseLines (k + 1) total lines with
        | .ok h => .ok { h with blocks := b :: h.blocks }
        | .error f => .error f
      else .error (.malformedHistogram k (String.ofList line))
    | none => .error (.malformedHistogram k (String.ofList line))

/-- The histogram of a dump. A last line that is not ended means that the engine and the reader
disagree on where the interval ended, so it is refused whatever the lines hold. -/
def parse (dump : String) : Except Fault Histogram :=
  match closedLines dump.toList with
  | some lines => parseLines 1 0 lines
  | none => .error .unterminatedHistogram

end Histogram

end PhaseSampling
