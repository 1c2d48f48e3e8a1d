import ColumnQuery.Column

/-! # Batches

A batch is a schema with one column per field, each of the field's type and of the batch's row
count. The row count is kept apart from the columns, so that a batch without columns still has
rows. Building a batch checks the columns in order, first the length and then the type of each.
-/

namespace ColumnQuery

/-- One column per field, each of the field's type and of `rowCount` rows. -/
structure Batch.Matches (schema : Schema) (columns : List Column) (rowCount : Nat) : Prop where
  types : columns.map (·.type) = schema.types
  lengths : ∀ column ∈ columns, column.length = rowCount

/-- Some rows of a relation, stored by column. -/
structure Batch where
  schema : Schema
  columns : List Column
  rowCount : Nat
  matching : Batch.Matches schema columns rowCount
  deriving DecidableEq

/-- Columns of any type with a schema, as a file or a client offers them and takes them. -/
structure RecordSet where
  schema : Schema
  columns : List RawColumn
  rowCount : Nat
  deriving DecidableEq, Repr

namespace Batch

/-- The first column that has the wrong length or type for its field. -/
def mismatch? (rowCount : Nat) : List Field → List Column → Option Error
  | field :: fields, column :: columns =>
    if column.length ≠ rowCount then
      some (.columnLength field.name column.length rowCount)
    else if column.type ≠ field.type then
      some (.columnType field.name column.type field.type)
    else mismatch? rowCount fields columns
  | _, _ => none

private theorem matches_of_mismatch?_eq_none {rowCount : Nat} {fields : List Field}
    {columns : List Column} (count : columns.length = fields.length)
    (none : mismatch? rowCount fields columns = none) :
    Matches ⟨fields⟩ columns rowCount := by
  induction fields generalizing columns with
  | nil =>
    have : columns = [] := List.length_eq_zero_iff.mp count
    subst this
    exact ⟨rfl, by simp⟩
  | cons field fields ih =>
    cases columns with
    | nil => cases count
    | cons column columns =>
      simp only [mismatch?] at none
      split at none
      · cases none
      · split at none
        · cases none
        · rename_i length type
          have rest := ih (by simpa using count) none
          have restTypes : columns.map (·.type) = fields.map (·.type) := rest.types
          refine ⟨?_, ?_⟩
          · simp only [Schema.types, List.map_cons, restTypes]
            rw [Decidable.not_not.mp type]
          · intro other isMember
            rcases List.mem_cons.mp isMember with same | later
            · exact same ▸ Decidable.not_not.mp length
            · exact rest.lengths other later

/-- A batch of the given columns, with an explicit row count. -/
def build (schema : Schema) (columns : List Column) (rowCount : Nat) : Except Error Batch :=
  if count : columns.length = schema.fields.length then
    match found : mismatch? rowCount schema.fields columns with
    | some error => .error error
    | none => .ok ⟨schema, columns, rowCount, matches_of_mismatch?_eq_none count found⟩
  else .error (.columnCount columns.length schema.fields.length)

/-- A batch of the given columns, with as many rows as the first of them. -/
def ofColumns (schema : Schema) (columns : List Column) : Except Error Batch :=
  build schema columns (columns.head?.elim 0 Column.length)

def ofRecordSet (records : RecordSet) : Except Error Batch := do
  let columns ← records.columns.mapM Column.ofRaw
  build records.schema columns records.rowCount

/-- The first required field whose column holds a null. -/
def nullInRequired? (batch : Batch) : Option Field :=
  ((batch.schema.fields.zip batch.columns).find? fun (field, column) =>
    !field.nullable && column.cells.any Scalar.isNull).map (·.1)

/-- The batch as it is handed to a client, which is not possible with a null in a required field. -/
def toRecordSet (batch : Batch) : Except Error RecordSet :=
  match batch.nullInRequired? with
  | some field => .error (.nullInRequiredField field.name)
  | none => .ok ⟨batch.schema, batch.columns.map Column.toRaw, batch.rowCount⟩

def column? (batch : Batch) (index : Nat) : Option Column := batch.columns[index]?

def keepRows (batch : Batch) (mask : List (Option Bool))
    (sameLength : mask.length = batch.rowCount) : Batch where
  schema := batch.schema
  columns := batch.columns.map (·.keepRows mask)
  rowCount := keptCount mask
  matching :=
    { types := by
        rw [← batch.matching.types, List.map_map]
        rfl
      lengths := by
        intro column isMember
        obtain ⟨whole, isColumn, rfl⟩ := List.mem_map.mp isMember
        exact length_keep (sameLength.trans (batch.matching.lengths whole isColumn).symm) }

/-- The rows whose mask entry is true, all columns alike. -/
def shrink (batch : Batch) (mask : List (Option Bool)) : Except Error Batch :=
  if sameLength : mask.length = batch.rowCount then .ok (batch.keepRows mask sameLength)
  else .error (.maskLength mask.length batch.rowCount)

/-- The columns at the given positions, in the order given. -/
def project (batch : Batch) (ordinals : List Nat) : Except Error Batch := do
  let schema ← batch.schema.project ordinals
  let columns ← ordinals.mapM fun ordinal =>
    match batch.columns[ordinal]? with
    | some column => .ok column
    | none => .error (.ordinalOutOfBounds ordinal batch.columns.length)
  build schema columns batch.rowCount

end Batch

/-- The first `count` rows of cells stored by column; a missing cell is null. -/
def rowsOf : (count : Nat) → List (List Scalar) → List (List Scalar)
  | 0, _ => []
  | count + 1, columns => columns.map (·.headD .null) :: rowsOf count (columns.map List.tail)

def rowsOfColumns (count : Nat) (columns : List Column) : List (List Scalar) :=
  rowsOf count (columns.map (·.cells))

def Batch.rows (batch : Batch) : List (List Scalar) := rowsOfColumns batch.rowCount batch.columns

def rowLine (row : List Scalar) : String := ", ".intercalate (row.map (Scalar.rowText "null"))

def Batch.rowStrings (batch : Batch) : List String := batch.rows.map rowLine

@[simp] theorem length_rowsOf (count : Nat) (columns : List (List Scalar)) :
    (rowsOf count columns).length = count := by
  induction count generalizing columns with
  | zero => rfl
  | succ count ih => simp [rowsOf, ih]

end ColumnQuery
