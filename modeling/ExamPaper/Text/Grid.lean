import ExamPaper.Text.Pieces

/-!
# Grids

Rows of cells as text, in a frame with rounded corners and with a rule under the first row. A column
is as wide as its widest cell, a row as high as the cell with the most lines; cells are aligned to
the left and have a space on both sides.

Mirrors the table that `check` prints, in the style with rounded corners.
-/

namespace ExamPaper

namespace Grid

/-- The lines of a cell. -/
def cellLines (cell : String) : List String :=
  (Text.splitAtChar '\n' cell.toList).map String.ofList

/-- The width of a cell. -/
def cellWidth (cell : String) : Nat :=
  ((cellLines cell).map String.length).foldl max 0

/-- The widths of the columns, given those so far. -/
def widen (widths : List Nat) (row : List String) : List Nat :=
  List.zipWith max widths (row.map cellWidth)

/-- The widths of the columns of rows. -/
def widths : List (List String) → List Nat
  | [] => []
  | row :: rows => rows.foldl widen (row.map cellWidth)

/-- A text with spaces up to a width. -/
def pad (width : Nat) (s : String) : String :=
  s ++ String.ofList (List.replicate (width - s.length) ' ')

/-- A line of the frame, with its left end, its crossings and its right end. -/
def rule (left crossing right : String) (widths : List Nat) : String :=
  left ++ String.intercalate crossing
    (widths.map fun n => String.ofList (List.replicate (n + 2) '─')) ++ right

/-- The line of a row with the given number. -/
def rowLine (widths : List Nat) (row : List String) (k : Nat) : String :=
  let part (width : Nat) (cell : String) : String := pad width ((cellLines cell)[k]?.getD "")
  "│ " ++ String.intercalate " │ " (List.zipWith part widths row) ++ " │"

/-- The lines of a row. -/
def rowLines (widths : List Nat) (row : List String) : List String :=
  let height := (row.map fun cell => (cellLines cell).length).foldl max 0
  (List.range height).map (rowLine widths row)

/-- The lines of a grid with the given first row. -/
def lines (header : List String) (rows : List (List String)) : List String :=
  let widths := widths (header :: rows)
  rule "╭" "┬" "╮" widths :: rowLines widths header ++ rule "├" "┼" "┤" widths ::
    rows.flatMap (rowLines widths) ++ [rule "╰" "┴" "╯" widths]

end Grid

end ExamPaper
