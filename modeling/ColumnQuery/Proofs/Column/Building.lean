import ColumnQuery.Column
import ColumnQuery.Proofs.Traversal

/-! # Building and reading columns

A column of a type takes nulls, values of the type and, if it is of 64-bit integers, 32-bit ones.
Each of them has one cell: the value itself or the equal number of 64 bits. A supported type makes a
column of values that it takes, which holds their cells in order; of other values the first is
refused. The cells are then read by the numbers of their rows.
-/

namespace ColumnQuery

/-- The values that can be put into a column of a type. -/
def DataType.Takes (type : DataType) (value : Scalar) : Prop :=
  value.FitsIn type ∨ (value.type? = some .int32 ∧ type = .int64)

namespace Scalar

variable {type : DataType} {value cell : Scalar}

private theorem exists_heldAs_iff : (∃ cell, value.HeldAs type cell) ↔ type.Takes value := by
  constructor
  · rintro ⟨cell, held⟩
    cases held with
    | kept fits => exact .inl fits
    | widened isWide => exact .inr ⟨rfl, isWide⟩
  · rintro (fits | ⟨isNarrow, isWide⟩)
    · exact ⟨value, .kept fits⟩
    · cases value <;> cases isNarrow
      exact ⟨_, .widened isWide (Int32.toInt_toInt64 _)⟩

private theorem place?_eq_none_iff : value.place? type = none ↔ ¬type.Takes value := by
  rw [← exists_heldAs_iff, Option.eq_none_iff_forall_ne_some, not_exists]
  exact forall_congr' fun cell => not_congr place?_eq_some_iff

/-- The cell of a value, or the value if it has none. -/
def place (type : DataType) (value : Scalar) : Except Scalar Scalar :=
  (value.place? type).elim (.error value) .ok

private theorem place_eq_ok_iff : value.place type = .ok cell ↔ value.HeldAs type cell := by
  rw [← place?_eq_some_iff, place]
  cases value.place? type <;> simp

private theorem exists_place_iff : (∃ cell, value.place type = .ok cell) ↔ type.Takes value := by
  simp only [place_eq_ok_iff, exists_heldAs_iff]

private theorem place_eq_error_iff {refused : Scalar} :
    value.place type = .error refused ↔ value = refused ∧ ¬type.Takes value := by
  rw [← place?_eq_none_iff, place]
  cases value.place? type <;> simp

end Scalar

/-- The first of some values that a column of a type cannot hold. -/
def DataType.FirstRefused (type : DataType) (values : List Scalar) (refused : Scalar) : Prop :=
  ∃ front back, values = front ++ refused :: back ∧ (∀ value ∈ front, type.Takes value) ∧
    ¬type.Takes refused

namespace Column

open Scalar (HeldAs place)

variable {type : DataType} {values : List Scalar}

private theorem placeAll_eq_mapM (type : DataType) (values : List Scalar) :
    (placeAll type values).map Subtype.val = values.mapM (place type) := by
  induction values with
  | nil => rfl
  | cons value rest ih =>
    rw [List.mapM_cons, ← ih, placeAll]
    split
    · rename_i none
      have first : place type value = .error value := by rw [place, none]; rfl
      rw [first]
      rfl
    · rename_i cell placed
      have first : place type value = .ok cell := by rw [place, placed]; rfl
      rw [first]
      cases placeAll type rest <;> rfl

private theorem placeAll_eq_ok_iff
    {placed : { cells : List Scalar // ∀ cell ∈ cells, cell.FitsIn type }} :
    placeAll type values = .ok placed ↔ List.Forall₂ (HeldAs type) values placed.1 := by
  have cells : placeAll type values = .ok placed ↔ values.mapM (place type) = .ok placed.1 := by
    rw [← placeAll_eq_mapM]
    exact (map_injective Subtype.val_injective).eq_iff.symm
  rw [cells, mapM_eq_ok_iff_forall₂]
  simp only [Scalar.place_eq_ok_iff]

private theorem placeAll_eq_error_iff {refused : Scalar} :
    placeAll type values = .error refused ↔ type.FirstRefused values refused := by
  have failure : placeAll type values = .error refused ↔
      values.mapM (place type) = .error refused := by
    rw [← placeAll_eq_mapM]
    exact (map_injective Subtype.val_injective).eq_iff.symm
  rw [failure, mapM_eq_error_iff]
  simp only [Scalar.exists_place_iff, Scalar.place_eq_error_iff, DataType.FirstRefused]
  constructor
  · rintro ⟨front, value, back, same, taken, rfl, notTaken⟩
    exact ⟨front, back, same, taken, notTaken⟩
  · rintro ⟨front, back, same, taken, notTaken⟩
    exact ⟨front, refused, back, same, taken, rfl, notTaken⟩

/-- The cells of a list of values are those of its parts, of which the first one is placed first. -/
theorem placeAll_append (type : DataType) (front back : List Scalar) :
    placeAll type (front ++ back) = do
      let first ← placeAll type front
      let second ← placeAll type back
      return ⟨first.1 ++ second.1, List.forall_mem_append.mpr ⟨first.2, second.2⟩⟩ := by
  apply map_injective Subtype.val_injective
  rw [placeAll_eq_mapM, List.mapM_append, ← placeAll_eq_mapM, ← placeAll_eq_mapM]
  cases placeAll type front <;> cases placeAll type back <;> rfl

theorem append_of_type {column other : Column} (same : other.type = column.type) :
    column.append other = .ok ⟨column.type, column.cells ++ other.cells, column.supported,
      List.forall_mem_append.mpr ⟨column.typed, same ▸ other.typed⟩⟩ :=
  dif_pos same

theorem append_of_type_ne {column other : Column} (differ : other.type ≠ column.type) :
    column.append other = .error (.appendMismatch other.type column.type) :=
  dif_neg differ

/-- Values of a supported type that a column holds make a column of their cells. -/
theorem ofScalars_eq_ok_iff {column : Column} :
    ofScalars values type = .ok column ↔
      type.isSupported = true ∧ column.type = type ∧
        List.Forall₂ (HeldAs type) values column.cells := by
  rw [ofScalars]
  split
  · rename_i supported
    constructor
    · intro made
      split at made
      · rename_i cells typed placed
        cases made
        exact ⟨supported, rfl, placeAll_eq_ok_iff.mp placed⟩
      · cases made
    · rintro ⟨-, rfl, held⟩
      have placed : placeAll column.type values = .ok ⟨column.cells, column.typed⟩ :=
        placeAll_eq_ok_iff.mpr held
      rw [placed]
  · rename_i unsupported
    constructor
    · intro made
      cases made
    · rintro ⟨supported, -⟩
      exact absurd supported unsupported

theorem exists_ofScalars_iff :
    (∃ column, ofScalars values type = .ok column) ↔
      type.isSupported = true ∧ ∀ value ∈ values, type.Takes value := by
  constructor
  · rintro ⟨column, made⟩
    obtain ⟨supported, -, held⟩ := ofScalars_eq_ok_iff.mp made
    refine ⟨supported, fun value isMember => Scalar.exists_heldAs_iff.mp ?_⟩
    obtain ⟨cell, -, isCell⟩ := exists_of_mem_forall₂ held.flip isMember
    exact ⟨cell, isCell⟩
  · rintro ⟨supported, taken⟩
    obtain ⟨cells, held⟩ := exists_forall₂ fun value isMember =>
      Scalar.exists_heldAs_iff.mpr (taken value isMember)
    have typed : ∀ cell ∈ cells, cell.FitsIn type := by
      intro cell isMember
      obtain ⟨value, -, isCell⟩ := exists_of_mem_forall₂ held isMember
      exact isCell.fitsIn
    exact ⟨⟨type, cells, supported, typed⟩, ofScalars_eq_ok_iff.mpr ⟨supported, rfl, held⟩⟩

/-- A type that is not supported is refused, else the first value that has no cell. -/
theorem ofScalars_eq_error_iff {error : Error} :
    ofScalars values type = .error error ↔
      (type.isSupported = false ∧ error = .unsupportedElement type) ∨
        (type.isSupported = true ∧
          ∃ refused, type.FirstRefused values refused ∧ error = .misplacedValue refused type) := by
  simp only [← placeAll_eq_error_iff]
  rw [ofScalars]
  split
  · rename_i supported
    split
    · rename_i cells typed placed
      simp [supported, placed]
    · rename_i refused placed
      simp [supported, placed, eq_comm]
  · rename_i unsupported
    simp [unsupported, eq_comm]

/-- Building a column of two lists of values builds one of each, the first one first, and appends
them. -/
theorem ofScalars_append (front back : List Scalar) (type : DataType) :
    ofScalars (front ++ back) type = (do
      (← ofScalars front type).append (← ofScalars back type)) := by
  by_cases supported : type.isSupported = true
  · simp only [ofScalars, dif_pos supported, placeAll_append]
    cases placeAll type front <;> cases placeAll type back
    case ok.ok first second => simp only [ok_bind, pure_eq_ok, append_of_type]
    all_goals rfl
  · simp only [ofScalars, dif_neg supported, error_bind]

/-- Values of a supported type make a column of just these values. -/
theorem ofScalars_of_fitsIn (supported : type.isSupported = true)
    (fits : ∀ value ∈ values, value.FitsIn type) :
    ofScalars values type = .ok ⟨type, values, supported, fits⟩ :=
  ofScalars_eq_ok_iff.mpr ⟨supported, rfl,
    List.forall₂_same.mpr fun value isMember => .kept (fits value isMember)⟩

theorem ofRaw_toRaw (column : Column) : ofRaw column.toRaw = .ok column :=
  ofScalars_of_fitsIn column.supported column.typed

variable {column : Column} {row : Nat} {cell : Scalar}

theorem value_eq_ok_iff : column.value row = .ok cell ↔ column.cells[row]? = some cell := by
  unfold value
  split <;> simp_all

theorem value_of_length_le (beyond : column.length ≤ row) :
    column.value row = .error (.rowOutOfBounds row column.length) := by
  rw [value, List.getElem?_eq_none_iff.mpr beyond]

/-- A cell of a column is of its type. -/
theorem fits_of_value (found : column.value row = .ok cell) : cell.FitsIn column.type :=
  column.typed cell (List.mem_of_getElem? (value_eq_ok_iff.mp found))

end Column

end ColumnQuery
