import ColumnQuery.Delivery.Schedule

/-! # Tables in files

A stored table is a schema and some row groups. It is opened under a path with the schema of the
file or with a declared one, whose fields are bound to columns of the file by name, ignoring the
case of ASCII letters. The file is opened again for each scan, so that it may have changed or gone.
A row group is read in batches of bounded size; no batch spans two row groups.
-/

namespace ColumnQuery

/-- Some rows of a stored table, by column. -/
structure RowGroup where
  rowCount : Nat
  columns : List RawColumn
  deriving DecidableEq, Repr

structure StoredTable where
  schema : Schema
  groups : List RowGroup
  deriving DecidableEq, Repr

/-- What is found under a path. -/
inductive FileContent where
  | unopened (fault : FileFault)
  /-- A file that is opened but cannot be read. -/
  | unread (fault : FileFault)
  | table (table : StoredTable)
  /-- A text, and why it is no table. -/
  | text (content : String) (fault : FormatFault)
  /-- Bytes that are neither a table nor a text. -/
  | binary (fault : FormatFault)
  deriving DecidableEq, Repr

/-- Cut a number of rows into runs of a size, each given by its start and its length. -/
def cuts (size total : Nat) : List (Nat × Nat) :=
  (List.range ((total + size - 1) / size)).map fun i => (i * size, min size (total - i * size))

/-- The cells of a run of rows. -/
def RawColumn.slice (column : RawColumn) (start length : Nat) : RawColumn :=
  { column with cells := (column.cells.drop start).take length }

/-- A stored table of some columns, cut into row groups of a size. -/
def StoredTable.ofColumns (schema : Schema) (columns : List RawColumn) (groupRows : Nat) :
    StoredTable where
  schema := schema
  groups := (cuts groupRows (columns.head?.elim 0 (·.cells.length))).map fun (start, length) =>
    ⟨length, columns.map fun column => column.slice start length⟩

def StoredTable.read (path : String) : FileContent → Except Error StoredTable
  | .unopened fault => .error (.fileUnopened path fault)
  | .unread fault => .error (.fileUnread fault)
  | .text _ fault | .binary fault => .error (.fileUnformed fault)
  | .table table => .ok table

/-- A table file opened under a path. -/
structure FileTable where
  path : String
  schema : Schema
  /-- The column of the file for each field of the schema. -/
  ordinals : List Nat
  deriving DecidableEq, Repr

namespace FileTable

/-- Check that the types of all fields can be held by columns. -/
def checkSupported (schema : Schema) : Except Error Unit :=
  match schema.fields.find? fun field => !field.type.isSupported with
  | some field => .error (.unsupportedColumn field.type field.name)
  | none => .ok ()

/-- Check a field against the type of the column that it is bound to. -/
def checkStored (path : String) (field stored : Field) : Except Error Unit :=
  if stored.type = field.type then .ok ()
  else .error (.declaredTypeDiffers field.name field.type path stored.type)

/-- Bind the fields of a schema to the columns of a file. -/
def bind (path : String) (schema stored : Schema) : Except Error FileTable := do
  checkSupported schema
  let ordinals ← stored.resolve schema.names
  let bound ← stored.project ordinals
  (schema.fields.zip bound.fields).forM fun (field, stored) => checkStored path field stored
  return ⟨path, schema, ordinals⟩

/-- Open a table file, with a declared schema or the schema of the file. -/
def openAt (path : String) (declared : Option Schema) (content : FileContent) :
    Except Error FileTable := do
  let stored ← StoredTable.read path content
  bind path (declared.getD stored.schema) stored.schema

/-- The batches of a row group: the columns at some ordinals, in runs of at most `batchSize`
rows. -/
def load (schema : Schema) (ordinals : List Nat) (batchSize : Nat) (group : RowGroup) :
    Except Error (List Batch) :=
  (cuts batchSize group.rowCount).mapM fun (start, length) => do
    let columns ← ordinals.mapM fun ordinal =>
      match group.columns[ordinal]? with
      | some column => Column.ofRaw (column.slice start length)
      | none => .error (.ordinalOutOfBounds ordinal group.columns.length)
    Batch.build schema columns length

/-- The positions in the schema of the columns that a scan asks for. -/
def positions (table : FileTable) : Option (List String) → Except Error (List Nat)
  | some names => table.schema.resolve names
  | none => .ok (List.range table.schema.fields.length)

/-- How the row groups of a stored table are loaded for a scan, with all columns or only some. -/
def loader (table : FileTable) (batchSize : Nat) (projection : Option (List String)) :
    Except Error (RowGroup → Except Error (List Batch)) := do
  let positions ← table.positions projection
  let schema ← table.schema.project positions
  return load schema (positions.map fun position => table.ordinals.getD position 0) batchSize

/-- The row groups of the file as it is now, and how they are loaded. -/
def prepare (table : FileTable) (content : FileContent) (batchSize : Nat)
    (projection : Option (List String)) :
    Except Error (List RowGroup × (RowGroup → Except Error (List Batch))) := do
  let stored ← StoredTable.read table.path content
  return (stored.groups, ← table.loader batchSize projection)

variable {World : Type}

/-- Deliver the rows of the file, as it is now. -/
def push (table : FileTable) (content : FileContent) (consumers : Consumers World)
    (batchSize : Nat) (projection : Option (List String)) (cancelled : Bool) (world : World) :
    Delivery.Report World :=
  match table.prepare content batchSize projection with
  | .error error => .refused error world
  | .ok (groups, load) =>
    let delivery : Delivery RowGroup World := { consumers with load }
    (delivery.run groups world cancelled).report

end FileTable

end ColumnQuery
