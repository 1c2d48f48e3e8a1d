import ColumnQuery.Batch

/-! # A batch at hand

Whoever works on a batch holds its parts: a schema, some columns and a row count. Nothing but the
steps of the work keeps them together. Most steps compute a new batch, which takes the place of the
one at hand. A mask changes the parts where they are, one column after the other, and this may fail
before the last of them.
-/

namespace ColumnQuery

/-- The parts of a batch, whether they fit each other or not. -/
structure HeldBatch where
  schema : Schema
  columns : List Column
  rowCount : Nat
  deriving DecidableEq

/-- The parts of a batch that is well formed. -/
def Batch.parts (batch : Batch) : HeldBatch := ⟨batch.schema, batch.columns, batch.rowCount⟩

/-- How the rows of one column are filtered by a mask. -/
abbrev ColumnFilter := List (Option Bool) → Column → Except Error Column

/-- The number of true entries of a mask: of its values if none is null, else of its rows. -/
def countTrue (mask : List (Option Bool)) : Nat :=
  if mask.all Option.isSome then (mask.filterMap id).count true
  else (List.range mask.length).countP fun row => mask[row]? == some (some true)

/-- A step of work on a batch. -/
inductive HandlingStep where
  | ofColumns (schema : Schema) (columns : List Column)
  | build (schema : Schema) (columns : List Column) (rowCount : Nat)
  | ofRecordSet (records : RecordSet)
  | shrink (mask : List (Option Bool))
  | project (ordinals : List Nat)
  /-- Hand the batch to a client and take it back. -/
  | exchange

namespace HeldBatch

/-- Keep the rows whose mask entry is true. The columns and the row count are changed when all
columns have been filtered. -/
def shrink (filter : ColumnFilter) (mask : List (Option Bool)) (held : HeldBatch) :
    Except Error Unit × HeldBatch :=
  if mask.length ≠ held.rowCount then (.error (.maskLength mask.length held.rowCount), held)
  else
    match held.columns.mapM (filter mask) with
    | .error error => (.error error, held)
    | .ok columns => (.ok (), { held with columns, rowCount := countTrue mask })

def project (held : HeldBatch) (ordinals : List Nat) : Except Error Batch := do
  let schema ← held.schema.project ordinals
  let columns ← ordinals.mapM fun ordinal =>
    match held.columns[ordinal]? with
    | some column => .ok column
    | none => .error (.ordinalOutOfBounds ordinal held.columns.length)
  Batch.build schema columns held.rowCount

def nullInRequired? (held : HeldBatch) : Option Field :=
  ((held.schema.fields.zip held.columns).find? fun (field, column) =>
    !field.nullable && column.cells.any Scalar.isNull).map (·.1)

def toRecordSet (held : HeldBatch) : Except Error RecordSet :=
  match held.nullInRequired? with
  | some field => .error (.nullInRequiredField field.name)
  | none => .ok ⟨held.schema, held.columns.map Column.toRaw, held.rowCount⟩

/-- Put a batch in the place of the one at hand, if it could be computed. -/
def replace (held : Option HeldBatch) : Except Error Batch → Except Error Unit × Option HeldBatch
  | .ok batch => (.ok (), some batch.parts)
  | .error error => (.error error, held)

/-- Take a step. Without a batch at hand there is none to work on. -/
def take (filter : ColumnFilter) :
    Option HeldBatch → HandlingStep → Except Error Unit × Option HeldBatch
  | held, .ofColumns schema columns => replace held (Batch.ofColumns schema columns)
  | held, .build schema columns rowCount => replace held (Batch.build schema columns rowCount)
  | held, .ofRecordSet records => replace held (Batch.ofRecordSet records)
  | some held, .shrink mask =>
    let (outcome, next) := held.shrink filter mask
    (outcome, some next)
  | some held, .project ordinals => replace (some held) (held.project ordinals)
  | some held, .exchange =>
    replace (some held) do Batch.ofRecordSet (← held.toRecordSet)
  | none, .shrink _ | none, .project _ | none, .exchange => (.ok (), none)

/-- What is at hand after some steps, of which those that fail are passed over. -/
def handle (filter : ColumnFilter) (steps : List HandlingStep) : Option HeldBatch :=
  steps.foldl (fun held step => (take filter held step).2) none

end HeldBatch

end ColumnQuery
