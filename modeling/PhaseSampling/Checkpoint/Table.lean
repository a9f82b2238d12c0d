import PhaseSampling.Checkpoint
import PhaseSampling.Text.Pieces
import PhaseSampling.Text.Width

/-!
# Tables of checkpoints

A table is drawn with rules of dashes between its rows. Cells are aligned to the left and padded
by one space on each side to the widest cell of their column.
-/

namespace PhaseSampling

namespace Table

open Text

/-- The lines of a cell. A line end at the very end opens no further line, and a carriage return
before one belongs to it. -/
def cellLines (s : String) : List (List Char) :=
  let ls := pieces '\n' s.toList
  let ended := ls.dropLast.map fun l => if l.getLast? = some '\r' then l.dropLast else l
  match ls.getLast? with
  | some (c :: cs) => ended ++ [c :: cs]
  | _ => ended

/-- The width of a cell without its padding. -/
def cellWidth (s : String) : Nat := ((cellLines s).map width).foldl max 0

/-- The widths of the columns of some rows. -/
def columnWidths : List (List String) → List Nat
  | [] => []
  | [row] => row.map cellWidth
  | row :: rows => List.zipWith max (row.map cellWidth) (columnWidths rows)

/-- The rule between two rows. -/
def rule (widths : List Nat) : List Char :=
  '+' :: widths.flatMap (fun w => List.replicate (w + 2) '-' ++ ['+']) ++ ['\n']

/-- One line of a cell, padded. -/
def paddedLine (w : Nat) (line : List Char) : List Char :=
  ' ' :: line ++ List.replicate (w - width line) ' ' ++ [' ', '|']

/-- A row. A cell of fewer lines than others is filled up with empty ones. -/
def rowText (widths : List Nat) (row : List String) : List Char :=
  let cells := row.map cellLines
  let height := (cells.map List.length).foldl max 0
  (List.range height).flatMap fun i =>
    '|' :: (List.zipWith (fun w ls => paddedLine w (ls.getD i [])) widths cells).flatten ++ ['\n']

/-- The text of a table. -/
def text (rows : List (List String)) : String :=
  let widths := columnWidths rows
  String.ofList (rule widths ++ rows.flatMap fun row => rowText widths row ++ rule widths)

end Table

namespace Checkpoint

/-- The titles of the columns. -/
def titles : List String :=
  ["Checkpoint", "Warmup Inst", "Interval Inst", "End Inst", "Warmup Length", "Interval Length",
    "Weight"]

/-- The cells of a checkpoint. -/
def cells (c : Checkpoint) : List String :=
  [c.short, toString c.warmup, toString c.interval, toString c.stop, toString c.warmupLength,
    toString c.intervalLength, (c.weight.map weightText).getD "-"]

/-- The table of some checkpoints. -/
def table (cs : List Checkpoint) : String := Table.text (titles :: cs.map cells)

end Checkpoint

end PhaseSampling
