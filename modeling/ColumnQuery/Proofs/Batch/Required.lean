import ColumnQuery.Proofs.Batch.Build
import ColumnQuery.Proofs.Batch.Rows

/-! # Required columns

A row is allowed by a schema when each cell is of the type of its field and a null stands only where
the field may hold one. A batch can be handed to a client exactly when all its rows are allowed.
-/

namespace ColumnQuery

/-- A cell of the type of a field, null only where the field may hold nulls. -/
structure Field.Allows (field : Field) (cell : Scalar) : Prop where
  fits : cell.FitsIn field.type
  nullable : cell = .null → field.nullable = true

/-- A row each of whose cells is allowed by its field. -/
def Schema.Allows (schema : Schema) (row : Row) : Prop :=
  List.Forall₂ Field.Allows schema.fields row

theorem Schema.Allows.fits {schema : Schema} {row : Row} (allows : schema.Allows row) :
    RowFits schema.types row := by
  rw [RowFits, Schema.types, List.forall₂_map_right_iff]
  exact (allows.imp fun _ _ allowed => allowed.fits).flip

theorem Schema.Allows.getD {schema : Schema} {row : Row} (allows : schema.Allows row) {index : Nat}
    {field : Field} (found : schema.fields[index]? = some field) :
    field.Allows (row.getD index .null) := by
  obtain ⟨length, each⟩ := List.forall₂_iff_get.mp allows
  obtain ⟨isField, rfl⟩ := List.getElem?_eq_some_iff.mp found
  have isCell : index < row.length := by omega
  simpa [isCell] using each index isField isCell

namespace Batch

private theorem mem_zip_fields {batch : Batch} {field : Field} {column : Column} :
    (field, column) ∈ batch.schema.fields.zip batch.columns ↔
      ∃ index : Nat, batch.schema.fields[index]? = some field ∧
        batch.columns[index]? = some column := by
  rw [List.mem_iff_getElem?]
  simp only [List.getElem?_zip_eq_some]

/-- The columns of required fields hold no nulls. -/
theorem nullInRequired?_eq_none {batch : Batch} :
    batch.nullInRequired? = none ↔
      ∀ (index : Nat) (field : Field) (column : Column), batch.schema.fields[index]? = some field →
        batch.columns[index]? = some column → .null ∈ column.cells → field.nullable = true := by
  have holdsNull (column : Column) : column.cells.any Scalar.isNull = true ↔
      .null ∈ column.cells := by
    rw [List.any_eq_true]
    constructor
    · rintro ⟨cell, isMember, isNull⟩
      cases cell <;> first
        | exact isMember
        | cases isNull
    · exact fun isMember => ⟨.null, isMember, rfl⟩
  rw [nullInRequired?, Option.map_eq_none_iff, List.find?_eq_none]
  constructor
  · intro none index field column isField isColumn isNull
    have kept := none (field, column) (mem_zip_fields.mpr ⟨index, isField, isColumn⟩)
    simpa [(holdsNull column).mpr isNull] using kept
  · rintro allowed ⟨field, column⟩ isPair
    obtain ⟨index, isField, isColumn⟩ := mem_zip_fields.mp isPair
    have nullable := allowed index field column isField isColumn
    rw [← holdsNull] at nullable
    cases required : field.nullable <;> simp_all

/-- A batch can be handed to a client exactly when its schema allows all its rows. -/
theorem nullInRequired?_eq_none_iff (batch : Batch) :
    batch.nullInRequired? = none ↔ ∀ row ∈ batch.rows, batch.schema.Allows row := by
  rw [nullInRequired?_eq_none]
  constructor
  · intro required row isRow
    have width := length_of_mem_rows isRow
    have columns := batch.length_columns
    refine List.forall₂_iff_get.mpr ⟨by omega, ?_⟩
    intro index isField isCell
    have cell : row.getD index .null = row[index] := by simp [isCell]
    have found : batch.schema.types[index]? = some batch.schema.fields[index].type := by
      simp [Schema.types, List.getElem?_eq_getElem isField]
    have typed := (fits_of_mem_rows isRow).fits_getD found
    rw [cell] at typed
    refine ⟨typed, ?_⟩
    intro isNull
    have isColumn : index < batch.columns.length := by omega
    refine required index _ _ (List.getElem?_eq_getElem isField)
      (List.getElem?_eq_getElem isColumn) ?_
    rw [cells_eq_read (List.getElem?_eq_getElem isColumn)]
    exact List.mem_map.mpr ⟨row, isRow, cell.trans isNull⟩
  · intro allowed index field column isField isColumn holdsNull
    rw [cells_eq_read isColumn] at holdsNull
    obtain ⟨row, isRow, isNull⟩ := List.mem_map.mp holdsNull
    exact ((allowed row isRow).getD isField).nullable isNull

theorem toRecordSet_of_allows {batch : Batch}
    (allowed : ∀ row ∈ batch.rows, batch.schema.Allows row) :
    ∃ records, batch.toRecordSet = .ok records ∧ records.schema = batch.schema := by
  rw [toRecordSet, batch.nullInRequired?_eq_none_iff.mpr allowed]
  exact ⟨_, rfl, rfl⟩

end Batch

end ColumnQuery
