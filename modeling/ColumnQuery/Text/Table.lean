import ColumnQuery.Batch
import ColumnQuery.Text.Wrap

/-! # Text tables

A table is drawn with rules of `-` and `+` around a header and the rows. Cells are aligned to the
left with a blank on each side; a column is as wide as its widest line, up to a greatest width. A
cell of several lines makes its row as high.
-/

namespace ColumnQuery

/-- A header, unless there is none, and rows of cells. -/
structure TextTable where
  header : Option (List String)
  rows : List (List String)
  deriving DecidableEq, Repr

namespace TextTable

def cellLines (cell : String) : List (List Char) := (cell.splitOn "\n").map String.toList

/-- The greatest width of a column, and of the part of a rule over one. -/
def greatestWidth : Nat := 65535

/-- The width of the widest line of some cells, at least one. -/
def columnWidth (cells : List String) : Nat :=
  min greatestWidth (((cells.flatMap cellLines).map Text.width).foldl max 1)

def columnWidths (table : TextTable) : List Nat :=
  let all := table.header.toList ++ table.rows
  (List.range ((all.map List.length).foldl max 0)).map fun index =>
    columnWidth (all.map (·.getD index ""))

/-- The rule above, between and below the parts of a table. -/
def rule (widths : List Nat) : String :=
  let parts := widths.map fun width =>
    String.ofList (List.replicate (min greatestWidth (width + 2)) '-')
  "+" ++ "+".intercalate parts ++ "+"

/-- A line of a cell, filled up to a width, with a blank on each side. -/
def padded (width : Nat) (line : List Char) : String :=
  String.ofList (' ' :: line ++ List.replicate (width + 1 - Text.width line) ' ')

def rowLines (widths : List Nat) (cells : List String) : List String :=
  let blocks := List.zipWith
    (fun width cell => (cellLines cell).flatMap (Text.wrap width)) widths cells
  let height := (blocks.map List.length).foldl max 0
  (List.range height).map fun index =>
    let parts := List.zipWith (fun width block => padded width (block.getD index [])) widths blocks
    "|" ++ "|".intercalate parts ++ "|"

def lines (table : TextTable) : List String :=
  let widths := table.columnWidths
  let header := table.header.elim [] fun cells => rowLines widths cells ++ [rule widths]
  [rule widths] ++ header ++ table.rows.flatMap (rowLines widths) ++ [rule widths]

/-- The table of some records. Nulls are left empty. -/
def ofRecords (records : List RecordSet) : TextTable where
  header := records.head?.map fun first => first.schema.names
  rows := records.flatMap fun set =>
    (rowsOf set.rowCount (set.columns.map (·.cells))).map fun row => row.map (Scalar.rowText "")

end TextTable

end ColumnQuery
