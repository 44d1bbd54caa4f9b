import FlowScope.Text.Width
/-!
Tables with a frame of lines and round corners. A cell may have several lines; every column is as
wide as its widest line, with one blank on both sides.
-/
namespace FlowScope.Report

/-- The rest of a text after an escape sequence that sets colors or the like, of which the part up
to the bracket has been read. -/
def skipSequence : List Char → List Char
  | [] => []
  | c :: rest => if '\x40' ≤ c && c ≤ '\x7e' then rest else skipSequence rest

theorem length_skipSequence_le (cs : List Char) : (skipSequence cs).length ≤ cs.length := by
  induction cs with
  | nil => simp [skipSequence]
  | cons c rest ih =>
      rw [skipSequence]
      split
      · simp
      · exact Nat.le_succ_of_le ih

/-- The characters of a text that are shown. -/
def shown : List Char → List Char
  | [] => []
  | '\x1b' :: '[' :: rest => shown (skipSequence rest)
  | c :: rest => c :: shown rest
termination_by cs => cs.length
decreasing_by
  · have := length_skipSequence_le rest
    simp only [List.length_cons]
    omega
  · simp

def lineWidth (line : List Char) : Nat := Text.columns (shown line)

def cellLines (cell : String) : List (List Char) := cell.toList.splitOn '\n'

def cellWidth (cell : String) : Nat :=
  ((cellLines cell).map lineWidth).foldl max 0

/-- A table: the heads of its columns, and its rows. -/
structure Table where
  heads : List String
  rows : List (List String)
deriving Repr

namespace Table

/-- The width of every column. -/
def widths (t : Table) : List Nat :=
  t.heads.mapIdx fun i head =>
    (t.rows.map fun row => cellWidth (row[i]?.getD "")).foldl max (cellWidth head)

/-- A line across the table. -/
def rule (left middle right : Char) (widths : List Nat) : List Char :=
  left :: ([middle].intercalate (widths.map fun w => List.replicate (w + 2) '─') ++ [right])

/-- A line filled up with blanks. -/
def padded (width : Nat) (line : List Char) : List Char :=
  line ++ List.replicate (width - lineWidth line) ' '

/-- The lines of a row. Cells with fewer lines than others go on with empty ones. -/
def rowLines (widths : List Nat) (row : List String) : List (List Char) :=
  let cells := row.map cellLines
  let height := (cells.map List.length).foldl max 1
  (List.range height).map fun k =>
    '│' :: (widths.mapIdx fun i width =>
      ' ' :: (padded width (((cells[i]?).bind (·[k]?)).getD []) ++ [' ', '│'])).flatten

/-- The table as text, without an end of line after the last line. A table without rows is empty. -/
def render (t : Table) : String :=
  if t.rows.isEmpty then ""
  else
    let widths := t.widths
    let lines := [rule '╭' '┬' '╮' widths] ++ rowLines widths t.heads ++
      [rule '├' '┼' '┤' widths] ++ t.rows.flatMap (rowLines widths) ++ [rule '╰' '┴' '╯' widths]
    String.ofList (['\n'].intercalate lines)

end Table

end FlowScope.Report
