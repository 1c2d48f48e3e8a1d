import ColumnQuery.Source.StoredTable
import Mathlib.Data.List.Destutter

/-! # Reading row groups

The reader of a file is given a row group and a set of its columns, and reads these columns in runs
of rows. It yields them in the order of the file and each once, in whatever order and however often
they were asked for. A scan sorts the ordinals to know the order in which it will get the columns,
searches it for the place of each column, and takes the columns from their places.
-/

namespace ColumnQuery

/-- How the columns at some ordinals of a row group are read, in runs of at most a number of rows.
The ordinals stand for a set. -/
abbrev GroupReader := RowGroup → (ordinals : List Nat) → (size : Nat) → List RowGroup

/-- The ordinals as the file has them: ascending, each once. -/
def fileOrder (ordinals : List Nat) : List Nat :=
  (ordinals.mergeSort fun left right => left ≤ right).destutter (· ≠ ·)

/-- The position of an item of an ascending list, searched between two positions by halving. -/
def searchBetween (items : List Nat) (item low high : Nat) : Option Nat :=
  if low < high then
    let middle := low + (high - low) / 2
    match compare (items.getD middle 0) item with
    | .eq => some middle
    | .lt => searchBetween items item (middle + 1) high
    | .gt => searchBetween items item low middle
  else none
  termination_by high - low

/-- The place of an ordinal among the columns that are read, the first if it is not among them. -/
def placeIn (order : List Nat) (ordinal : Nat) : Nat :=
  (searchBetween order ordinal 0 order.length).getD 0

/-- The columns of a row group that are in a set of ordinals, in the order of the file. -/
def RowGroup.masked (group : RowGroup) (ordinals : List Nat) : RowGroup where
  rowCount := group.rowCount
  columns := ((List.range group.columns.length).filter ordinals.contains).filterMap
    (group.columns[·]?)

/-- The reader that makes every run but the last of a row group as long as allowed. -/
def GroupReader.cutting : GroupReader := fun group ordinals size =>
  (cuts size group.rowCount).map fun (start, length) =>
    ⟨length, (group.masked ordinals).columns.map fun column => column.slice start length⟩

namespace FileTable

/-- The column at an ordinal, from its place in a run that was read of `width` columns. -/
def takeColumn (order : List Nat) (width : Nat) (run : RowGroup) (ordinal : Nat) :
    Except Error Column :=
  match run.columns[placeIn order ordinal]? with
  | some column => Column.ofRaw column
  | none => .error (.ordinalOutOfBounds ordinal width)

/-- The batch of a run: the columns at some ordinals, in the order given. -/
def takeRun (schema : Schema) (ordinals : List Nat) (width : Nat) (run : RowGroup) :
    Except Error Batch := do
  let columns ← ordinals.mapM (takeColumn (fileOrder ordinals) width run)
  Batch.build schema columns run.rowCount

/-- The batches of a row group: the columns at some ordinals, in the runs that a reader yields. -/
def loadThrough (reader : GroupReader) (schema : Schema) (ordinals : List Nat) (batchSize : Nat)
    (group : RowGroup) : Except Error (List Batch) :=
  (reader group ordinals batchSize).mapM (takeRun schema ordinals group.columns.length)

/-- The row groups of the file as it is now, and how they are loaded through a reader. -/
def prepareThrough (reader : GroupReader) (table : FileTable) (content : FileContent)
    (batchSize : Nat) (projection : Option (List String)) :
    Except Error (List RowGroup × (RowGroup → Except Error (List Batch))) := do
  let stored ← StoredTable.read table.path content
  let positions ← table.positions projection
  let schema ← table.schema.project positions
  let ordinals := positions.map fun position => table.ordinals.getD position 0
  return (stored.groups, loadThrough reader schema ordinals batchSize)

variable {World : Type}

/-- Deliver the rows of the file, as it is now, in the batches that a reader makes. -/
def pushThrough (reader : GroupReader) (table : FileTable) (content : FileContent)
    (consumers : Consumers World) (batchSize : Nat) (projection : Option (List String))
    (cancelled : Bool) (world : World) : Delivery.Report World :=
  match table.prepareThrough reader content batchSize projection with
  | .error error => .refused error world
  | .ok (groups, load) =>
    let delivery : Delivery RowGroup World := { consumers with load }
    (delivery.run groups world cancelled).report

end FileTable

end ColumnQuery
