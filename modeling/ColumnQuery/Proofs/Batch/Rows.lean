import ColumnQuery.Expr.Meaning
import ColumnQuery.Proofs.Batch.Build
import ColumnQuery.Proofs.Plan.Rows
import Mathlib.Data.List.Forall2

/-! # Batches by row

The columns of a batch and its rows hold the same cells: a column is its position read off every
row. So columns that are computed from each row are the rows that are computed, and a mask that is
applied to every column keeps whole rows.
-/

namespace ColumnQuery

def RowFits (types : List DataType) (row : Row) : Prop := List.Forall₂ Scalar.FitsIn row types

theorem RowFits.fits_getD {types : List DataType} {row : Row} (fits : RowFits types row)
    {index : Nat} {type : DataType} (found : types[index]? = some type) :
    (row.getD index .null).FitsIn type := by
  obtain ⟨length, each⟩ := List.forall₂_iff_get.mp fits
  obtain ⟨isType, rfl⟩ := List.getElem?_eq_some_iff.mp found
  have isCell : index < row.length := by omega
  simpa [isCell] using each index isCell isType

private theorem length_of_mem_rowsOf {count : Nat} {columns : List (List Scalar)} {row : Row}
    (isRow : row ∈ rowsOf count columns) : row.length = columns.length := by
  induction count generalizing columns with
  | zero => cases isRow
  | succ count ih =>
    rcases List.mem_cons.mp isRow with rfl | later
    · exact List.length_map _
    · simpa using ih later

/-- The rows of columns of some types are of these types, a missing cell being null. -/
theorem fits_of_mem_rowsOf {count : Nat} {columns : List (List Scalar)} {types : List DataType}
    (typed : List.Forall₂ (fun cells type => ∀ cell ∈ cells, cell.FitsIn type) columns types)
    {row : Row} (isRow : row ∈ rowsOf count columns) : RowFits types row := by
  induction count generalizing columns with
  | zero => cases isRow
  | succ count ih =>
    rcases List.mem_cons.mp isRow with rfl | later
    · refine List.forall₂_map_left_iff.mpr (typed.imp fun cells type fits => ?_)
      cases cells with
      | nil => exact .inl rfl
      | cons cell cells => exact fits cell List.mem_cons_self
    · refine ih (List.forall₂_map_left_iff.mpr (typed.imp fun cells type fits => ?_)) later
      exact fun cell isCell => fits cell (List.mem_of_mem_tail isCell)

theorem fits_of_mem_rowsOfColumns {count : Nat} {columns : List Column} {row : Row}
    (isRow : row ∈ rowsOfColumns count columns) : RowFits (columns.map (·.type)) row :=
  fits_of_mem_rowsOf (List.forall₂_map_left_iff.mpr (List.forall₂_map_right_iff.mpr
    (List.forall₂_same.mpr fun column _ => column.typed))) isRow

/-- Columns that are read off some rows have the rows that are read. -/
theorem rowsOf_map {ι : Type} (items : List ι) (value : ι → Row → Scalar) (rows : List Row) :
    rowsOf rows.length (items.map fun item => rows.map (value item)) =
      rows.map fun row => items.map fun item => value item row := by
  induction rows with
  | nil => rfl
  | cons row rows ih =>
    simp only [List.length_cons, rowsOf, List.map_map, List.map_cons]
    exact congrArg (_ :: ·) ih

/-- Columns of one length are read off their own rows. -/
theorem getElem_eq_read {count : Nat} {columns : List (List Scalar)}
    (lengths : ∀ cells ∈ columns, cells.length = count) {index : Nat}
    (bound : index < columns.length) :
    columns[index] = (rowsOf count columns).map fun row => row.getD index .null := by
  induction count generalizing columns with
  | zero =>
    rw [List.length_eq_zero_iff.mp (lengths _ (List.getElem_mem bound))]
    rfl
  | succ count ih =>
    have tails : ∀ cells ∈ columns.map List.tail, cells.length = count := by
      intro cells isMember
      obtain ⟨whole, isColumn, rfl⟩ := List.mem_map.mp isMember
      rw [List.length_tail, lengths whole isColumn, Nat.add_sub_cancel]
    have rest := ih tails (by simpa using bound)
    rw [List.getElem_map] at rest
    have nonempty : columns[index] ≠ [] := by
      intro empty
      have := lengths _ (List.getElem_mem bound)
      simp [empty] at this
    rw [rowsOf, List.map_cons, ← rest, List.getD_eq_getElem?_getD, List.getElem?_map,
      List.getElem?_eq_getElem bound]
    cases cells : columns[index] with
    | nil => exact absurd cells nonempty
    | cons cell others => rfl

private theorem columns_eq_read {count : Nat} {columns : List (List Scalar)}
    (lengths : ∀ cells ∈ columns, cells.length = count) :
    columns = (List.range columns.length).map fun index =>
      (rowsOf count columns).map fun row => row.getD index .null := by
  apply List.ext_getElem (by simp)
  intro index bound _
  simp only [List.getElem_map, List.getElem_range]
  exact getElem_eq_read lengths bound

theorem map_getD_range {row : Row} {count : Nat} (length : row.length = count) :
    ((List.range count).map fun index => row.getD index .null) = row := by
  apply List.ext_getElem (by simp [length])
  intro index bound _
  simp only [List.length_map, List.length_range] at bound
  simp [List.getD_eq_getElem?_getD, List.getElem?_eq_getElem (length ▸ bound)]

/-- A mask that is applied to each column keeps whole rows. -/
theorem rowsOf_keep {count : Nat} {columns : List (List Scalar)} {mask : List (Option Bool)}
    (lengths : ∀ cells ∈ columns, cells.length = count) (masked : mask.length = count) :
    rowsOf (keptCount mask) (columns.map (keep mask)) = keep mask (rowsOf count columns) := by
  have kept : (keep mask (rowsOf count columns)).length = keptCount mask :=
    length_keep (by rw [masked, length_rowsOf])
  have widths : ∀ row ∈ keep mask (rowsOf count columns), row.length = columns.length :=
    fun row isKept => length_of_mem_rowsOf (mem_of_mem_keep isKept)
  have columnsKept : columns.map (keep mask) =
      ((List.range columns.length).map fun index (row : Row) => row.getD index .null).map
        fun value => (keep mask (rowsOf count columns)).map value := by
    conv_lhs => rw [columns_eq_read lengths]
    rw [List.map_map, List.map_map]
    exact List.map_congr_left fun index _ => keep_map _ mask _
  rw [columnsKept, ← kept, rowsOf_map]
  refine (List.map_congr_left fun row isKept => ?_).trans (List.map_id _)
  rw [List.map_map]
  exact map_getD_range (widths row isKept)

namespace Batch

@[simp] theorem length_rows (batch : Batch) : batch.rows.length = batch.rowCount :=
  length_rowsOf ..

private theorem lengths_cells (batch : Batch) :
    ∀ cells ∈ batch.columns.map (·.cells), cells.length = batch.rowCount := by
  intro cells isMember
  obtain ⟨column, isColumn, rfl⟩ := List.mem_map.mp isMember
  exact batch.matching.lengths column isColumn

theorem length_of_mem_rows {batch : Batch} {row : Row} (isRow : row ∈ batch.rows) :
    row.length = batch.columns.length := by
  simpa using length_of_mem_rowsOf isRow

theorem cells_eq_read {batch : Batch} {column : Column} {index : Nat}
    (found : batch.columns[index]? = some column) :
    column.cells = batch.rows.map fun row => row.getD index .null := by
  obtain ⟨bound, rfl⟩ := List.getElem?_eq_some_iff.mp found
  have bound : index < (batch.columns.map (·.cells)).length := by simpa using bound
  have read := getElem_eq_read batch.lengths_cells bound
  rw [List.getElem_map] at read
  exact read

/-- The cells of a row are of the types of the batch. -/
theorem fits_of_mem_rows {batch : Batch} {row : Row} (isRow : row ∈ batch.rows) :
    RowFits batch.schema.types row := by
  rw [← batch.matching.types]
  exact fits_of_mem_rowsOfColumns isRow

/-- Columns that are computed from each row make the rows that are computed. -/
theorem rows_of_read {ι : Type} {batch : Batch} {rows : List Row} {items : List ι}
    {value : ι → Row → Scalar} (count : batch.rowCount = rows.length)
    (read : batch.columns.map (·.cells) = items.map fun item => rows.map (value item)) :
    batch.rows = rows.map fun row => items.map fun item => value item row := by
  rw [Batch.rows, rowsOfColumns, read, count, rowsOf_map]

/-- Columns of the types of a schema that are computed from each row make a batch. -/
theorem exists_build {ι : Type} {schema : Schema} {columns : List Column} {rows : List Row}
    {items : List ι} {value : ι → Row → Scalar} (types : columns.map (·.type) = schema.types)
    (read : columns.map (·.cells) = items.map fun item => rows.map (value item)) :
    ∃ batch, build schema columns rows.length = .ok batch ∧ batch.schema = schema ∧
      batch.rows = rows.map fun row => items.map fun item => value item row := by
  have lengths : ∀ column ∈ columns, column.length = rows.length := by
    intro column isColumn
    have isCells := List.mem_map_of_mem (f := Column.cells) isColumn
    rw [read] at isCells
    obtain ⟨item, -, same⟩ := List.mem_map.mp isCells
    rw [Column.length, ← same, List.length_map]
  have valid : Matches schema columns rows.length := ⟨types, lengths⟩
  exact ⟨⟨schema, columns, rows.length, valid⟩, build_of_matches valid, rfl,
    rows_of_read rfl read⟩

/-- Chosen columns have the chosen cells of each row. -/
theorem rows_of_chosen {batch chosen : Batch} {ordinals : List Nat}
    (columns : ordinals.map (batch.columns[·]?) = chosen.columns.map some)
    (rowCount : chosen.rowCount = batch.rowCount) :
    chosen.rows = batch.rows.map fun row => ordinals.map fun ordinal => row.getD ordinal .null := by
  have read : chosen.columns.map (·.cells) =
      ordinals.map fun ordinal => batch.rows.map fun row => row.getD ordinal .null := by
    apply map_some_inj.mp
    have cells := congrArg (List.map (Option.map (·.cells))) columns
    rw [List.map_map, List.map_map] at cells
    rw [List.map_map, List.map_map]
    refine cells.symm.trans (List.map_congr_left ?_)
    intro ordinal isMember
    obtain ⟨column, isColumn⟩ : ∃ column, batch.columns[ordinal]? = some column := by
      have present := isSome_of_map_some columns ordinal isMember
      exact Option.isSome_iff_exists.mp present
    simp only [Function.comp_apply, isColumn, Option.map_some, cells_eq_read isColumn]
  exact rows_of_read (by rw [rowCount, length_rows]) read

theorem rows_keepRows (batch : Batch) {mask : List (Option Bool)}
    (sameLength : mask.length = batch.rowCount) :
    (batch.keepRows mask sameLength).rows = keep mask batch.rows := by
  have kept := rowsOf_keep batch.lengths_cells sameLength
  rw [List.map_map] at kept
  rw [Batch.rows, rowsOfColumns, keepRows, List.map_map]
  exact kept

end Batch

end ColumnQuery
