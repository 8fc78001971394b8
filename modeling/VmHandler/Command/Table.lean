import VmHandler.Text.Characters

/-!
# Tables

Rows of cells under the titles of their columns. A column is as wide as its widest cell, two blanks
stand between columns, and no line ends in a blank. A cell with several lines makes its row as high
as it has lines.
-/

set_option autoImplicit false

namespace VmHandler.Command

/-- A column. -/
structure Column where
  title : String
  /-- Whether its cells stand to the right, as numbers do. -/
  toRight : Bool := false
  deriving DecidableEq, Repr

/-- The lines of a text; there is one more than there are line ends. -/
def linesOf : List Char → List (List Char)
  | [] => [[]]
  | c :: cs =>
      if c = '\n' then [] :: linesOf cs
      else
        match linesOf cs with
        | [] => [[c]]
        | line :: lines => (c :: line) :: lines

/-- The lines of a cell. -/
def cellLines (cell : String) : List (List Char) := linesOf cell.toList

/-- The length of the longest line. -/
def widthOf (lines : List (List Char)) : Nat := lines.foldl (fun w line => max w line.length) 0

/-- The width of each column, given the rows in which each column has a cell. -/
def columnWidths (rows : List (List (List (List Char)))) (columns : Nat) : List Nat :=
  (List.range columns).map fun i =>
    rows.foldl (fun w row => max w (widthOf (row.getD i []))) 0

/-- A line of a cell in its column. -/
def Column.fill (c : Column) (width : Nat) (line : List Char) : List Char :=
  if c.toRight then line.leftpad width ' ' else line.rightpad width ' '

/-- One line of a row. -/
def rowLine (columns : List Column) (widths : List Nat) (cells : List (List Char)) : List Char :=
  Text.dropTrailingBlanks
    ([' ', ' '].intercalate
      (List.zipWith (fun (cell : List Char) (c, width) => Column.fill c width cell) cells
        (columns.zip widths)))

/-- The lines of a row. -/
def rowLines (columns : List Column) (widths : List Nat) (row : List (List (List Char))) :
    List (List Char) :=
  let height := row.foldl (fun h lines => max h lines.length) 0
  (List.range height).map fun i => rowLine columns widths (row.map fun lines => lines.getD i [])

/-- The lines of a table, the line of the titles first. -/
def tableLines (columns : List Column) (rows : List (List String)) : List String :=
  let all := (columns.map Column.title :: rows).map fun row => row.map cellLines
  let widths := columnWidths all columns.length
  (all.flatMap (rowLines columns widths)).map String.ofList

end VmHandler.Command
