namespace CilListing

/-- To which side of a column its cells go. -/
inductive Alignment
  | left
  | right
deriving DecidableEq, Repr

/-- A cell filled with blanks up to the width of its column. -/
def padCell (alignment : Alignment) (width : Nat) (cell : String) : List Char :=
  match alignment with
  | .left => cell.toList.rightpad width ' '
  | .right => cell.toList.leftpad width ' '

/-- The width of each column: that of its widest cell. -/
def columnWidths (columns : Nat) (rows : List (List String)) : List Nat :=
  (List.range columns).map fun column =>
    (rows.map fun row => (row.getD column "").length).foldl max 0

/-- One row as a line, two blanks between its cells and none behind the last. -/
def rowLine (layout : List (Alignment × Nat)) (row : List String) : String :=
  let cells := List.zipWith (fun (alignment, width) cell => padCell alignment width cell) layout row
  let line := [' ', ' '].intercalate cells
  String.ofList (line.reverse.dropWhile (· == ' ')).reverse

/-- Rows as lines with aligned columns. -/
def columnLines (alignments : List Alignment) (rows : List (List String)) : List String :=
  rows.map (rowLine (alignments.zip (columnWidths alignments.length rows)))

end CilListing
