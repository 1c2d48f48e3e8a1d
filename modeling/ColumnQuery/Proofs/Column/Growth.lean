import ColumnQuery.Column.Growth
import ColumnQuery.Proofs.Column.Building

/-! # Columns are typed lists

What can be read from a column, row by row, is a list of cells, and the column can be built from it
again. An append needs columns of one type and reads as the one list after the other; if it fails,
the column stays as it was. How several appends are grouped does not matter, and a column built of
two lists of values is one of the first to which one of the second is appended.
-/

namespace ColumnQuery

/-- A join puts the cells of columns of one type one after the other. With columns of different
types it may do anything. -/
def ColumnJoin.Concatenates (join : ColumnJoin) : Prop :=
  ∀ front back, back.type = front.type → ∃ joined, join front back = .ok joined ∧
    joined.type = front.type ∧ joined.cells = front.cells ++ back.cells

namespace Column

private theorem append_concatenates : ColumnJoin.Concatenates append := fun _ _ same =>
  ⟨_, append_of_type same, rfl, rfl⟩

/-- What is read from a column, row by row. -/
structure ReadsAs (column : Column) (cells : List Scalar) : Prop where
  length : column.length = cells.length
  within : ∀ row cell, cells[row]? = some cell → column.value row = .ok cell
  beyond : ∀ row, cells.length ≤ row →
    column.value row = .error (.rowOutOfBounds row cells.length)

/-- What building a column of some values does. -/
structure BuildsFrom (values : List Scalar) (type : DataType) : Prop where
  success : (∃ column, ofScalars values type = .ok column) ↔
    type.isSupported = true ∧ ∀ value ∈ values, type.Takes value
  reads : ∀ column, ofScalars values type = .ok column → column.type = type ∧
    ∃ cells, List.Forall₂ (Scalar.HeldAs type) values cells ∧ column.ReadsAs cells
  refusal : ∀ error, ofScalars values type = .error error ↔
    (type.isSupported = false ∧ error = .unsupportedElement type) ∨
      (type.isSupported = true ∧
        ∃ refused, type.FirstRefused values refused ∧ error = .misplacedValue refused type)

/-- What appending a column to another one does, whether the cells of both are in a new column then
or in the receiver. -/
structure Grows (join : ColumnJoin) (receiver other : Column) : Prop where
  success : (∃ joined, receiver.append other = .ok joined) ↔ other.type = receiver.type
  reads : ∀ joined, receiver.append other = .ok joined → joined.type = receiver.type ∧
    ∀ own added, receiver.ReadsAs own → other.ReadsAs added → joined.ReadsAs (own ++ added)
  inPlace : ∀ joined, receiver.append other = .ok joined →
    receiver.extend join other = (.ok (), joined)
  refusal : ∀ error, receiver.append other = .error error →
    error = .appendMismatch other.type receiver.type ∧
      receiver.extend join other = (.error error, receiver)
  /-- A join that fails leaves the receiver too. -/
  unchanged : ∀ (join : ColumnJoin) (error : Error),
    (receiver.extend join other).1 = .error error → (receiver.extend join other).2 = receiver

section Reading

variable {column : Column} {cells : List Scalar}

private theorem readsAs_cells (column : Column) : column.ReadsAs column.cells :=
  ⟨rfl, fun _ _ => value_eq_ok_iff.mpr, fun _ => value_of_length_le⟩

/-- There is one list that a column reads as. -/
theorem readsAs_iff : column.ReadsAs cells ↔ column.cells = cells := by
  constructor
  · intro reads
    apply List.ext_getElem?
    intro row
    cases found : cells[row]? with
    | some cell => exact value_eq_ok_iff.mp (reads.within row cell found)
    | none =>
      rw [List.getElem?_eq_none_iff] at found ⊢
      exact Nat.le_trans (Nat.le_of_eq reads.length) found
  · rintro rfl
    exact readsAs_cells column

/-- Reading all rows of a column gives the cells, of which the column is built again. -/
theorem mapM_value (column : Column) :
    (List.range column.length).mapM column.value = .ok column.cells :=
  (mapM_eq_ok_iff_of_find fun _ _ => value_eq_ok_iff).mpr (map_getElem?_range column.cells)

private theorem buildsFrom (values : List Scalar) (type : DataType) : BuildsFrom values type where
  success := exists_ofScalars_iff
  reads column made := by
    obtain ⟨-, isType, held⟩ := ofScalars_eq_ok_iff.mp made
    exact ⟨isType, column.cells, held, readsAs_cells column⟩
  refusal _ := ofScalars_eq_error_iff

end Reading

section Appends

variable {join : ColumnJoin} {receiver other joined : Column}

private theorem append_eq_ok_iff :
    receiver.append other = .ok joined ↔
      other.type = receiver.type ∧ joined.type = receiver.type ∧
        joined.cells = receiver.cells ++ other.cells := by
  by_cases same : other.type = receiver.type
  · rw [append_of_type same, Except.ok.injEq, Column.ext_iff]
    exact ⟨fun ⟨types, cells⟩ => ⟨same, types.symm, cells.symm⟩,
      fun ⟨_, types, cells⟩ => ⟨types.symm, cells.symm⟩⟩
  · rw [append_of_type_ne same]
    exact iff_of_false nofun fun made => same made.1

private theorem exists_append_iff :
    (∃ joined, receiver.append other = .ok joined) ↔ other.type = receiver.type :=
  ⟨fun ⟨_, made⟩ => (append_eq_ok_iff.mp made).1, fun same => ⟨_, append_of_type same⟩⟩

private theorem extend_of_append (joins : join.Concatenates)
    (made : receiver.append other = .ok joined) :
    receiver.extend join other = (.ok (), joined) := by
  obtain ⟨same, types, cells⟩ := append_eq_ok_iff.mp made
  obtain ⟨grown, success, grownType, grownCells⟩ := joins receiver other same
  have isJoined : grown = joined :=
    Column.ext (grownType.trans types.symm) (grownCells.trans cells.symm)
  rw [extend, if_neg (not_not.mpr same.symm), success, isJoined]

private theorem extend_of_type_ne (differ : other.type ≠ receiver.type) :
    receiver.extend join other = (.error (.appendMismatch other.type receiver.type), receiver) :=
  if_pos differ.symm

private theorem extend_of_error {error : Error}
    (failed : (receiver.extend join other).1 = .error error) :
    (receiver.extend join other).2 = receiver := by
  unfold extend at failed ⊢
  split
  · rfl
  · rename_i sameType
    rw [if_neg sameType] at failed
    -- The receiver is given its new cells last.
    cases joined : join receiver other with
    | error error => rfl
    | ok column =>
      rw [joined] at failed
      cases failed

theorem grows (joins : join.Concatenates) (receiver other : Column) :
    receiver.Grows join other where
  success := exists_append_iff
  reads joined made := by
    obtain ⟨-, types, cells⟩ := append_eq_ok_iff.mp made
    refine ⟨types, fun own added ownReads addedReads => readsAs_iff.mpr ?_⟩
    rw [cells, readsAs_iff.mp ownReads, readsAs_iff.mp addedReads]
  inPlace _ := extend_of_append joins
  refusal error failed := by
    have differ : other.type ≠ receiver.type := by
      intro same
      cases (append_of_type same).symm.trans failed
    rw [append_of_type_ne differ] at failed
    cases failed
    exact ⟨rfl, extend_of_type_ne differ⟩
  unchanged _ _ := extend_of_error

/-- The cells that one column takes from another one. -/
theorem extend_eq (joins : join.Concatenates) (receiver other : Column) :
    (receiver.extend join other).2.type = receiver.type ∧
      (receiver.extend join other).2.cells =
        receiver.cells ++ if other.type = receiver.type then other.cells else [] := by
  by_cases same : other.type = receiver.type
  · rw [extend_of_append joins (append_of_type same), if_pos same]
    exact ⟨rfl, rfl⟩
  · rw [extend_of_type_ne same, if_neg same, List.append_nil]
    exact ⟨rfl, rfl⟩

/-- However many columns are appended, those of the type of the receiver leave their cells in it. -/
theorem extendAll_eq (joins : join.Concatenates) (receiver : Column) (others : List Column) :
    (receiver.extendAll join others).type = receiver.type ∧
      (receiver.extendAll join others).cells =
        receiver.cells ++ (others.filter (·.type = receiver.type)).flatMap (·.cells) := by
  induction others generalizing receiver with
  | nil => exact ⟨rfl, (List.append_nil _).symm⟩
  | cons other others ih =>
    obtain ⟨types, cells⟩ := extend_eq joins receiver other
    obtain ⟨laterTypes, laterCells⟩ := ih (receiver.extend join other).2
    refine ⟨laterTypes.trans types, laterCells.trans ?_⟩
    rw [cells, types, List.append_assoc, List.filter_cons]
    by_cases same : other.type = receiver.type <;> simp [same]

end Appends

end Column

namespace Appending

/-- Grouped appends need columns of one type, and put their cells one after the other. -/
theorem result_eq_ok_iff {appending : Appending} {joined : Column} :
    appending.result = .ok joined ↔
      (∀ column ∈ appending.columns, column.type = joined.type) ∧
        joined.cells = appending.columns.flatMap (·.cells) := by
  induction appending generalizing joined with
  | single column =>
    rw [result, columns, Except.ok.injEq, Column.ext_iff]
    simp [eq_comm]
  | append receiver other receiverIh otherIh =>
    simp only [result, columns, bind_eq_ok_iff, receiverIh, otherIh, Column.append_eq_ok_iff,
      List.forall_mem_append, List.flatMap_append]
    constructor
    · rintro ⟨held, ⟨heldTypes, heldCells⟩, added, ⟨addedTypes, addedCells⟩, same, types, cells⟩
      rw [types, cells, heldCells, addedCells]
      exact ⟨⟨heldTypes, same ▸ addedTypes⟩, rfl⟩
    · rintro ⟨⟨heldTypes, addedTypes⟩, cells⟩
      have typed := List.forall_mem_append.mp (cells ▸ joined.typed)
      exact ⟨⟨joined.type, receiver.columns.flatMap (·.cells), joined.supported, typed.1⟩,
        ⟨heldTypes, rfl⟩,
        ⟨joined.type, other.columns.flatMap (·.cells), joined.supported, typed.2⟩,
        ⟨addedTypes, rfl⟩, rfl, rfl, cells⟩

private theorem exists_mem_columns (appending : Appending) :
    ∃ column, column ∈ appending.columns := by
  induction appending with
  | single column => exact ⟨column, List.mem_singleton_self column⟩
  | append receiver other receiverIh _ =>
    exact receiverIh.imp fun _ isMember => List.mem_append_left _ isMember

private theorem exists_result_iff {appending : Appending} :
    (∃ joined, appending.result = .ok joined) ↔
      ∃ type, ∀ column ∈ appending.columns, column.type = type := by
  constructor
  · rintro ⟨joined, made⟩
    exact ⟨joined.type, (result_eq_ok_iff.mp made).1⟩
  · rintro ⟨type, types⟩
    obtain ⟨first, isFirst⟩ := appending.exists_mem_columns
    have typed : ∀ cell ∈ appending.columns.flatMap (·.cells), cell.FitsIn type := by
      intro cell isCell
      obtain ⟨column, isMember, isCell⟩ := List.mem_flatMap.mp isCell
      exact types column isMember ▸ column.typed cell isCell
    exact ⟨⟨type, _, types first isFirst ▸ first.supported, typed⟩,
      result_eq_ok_iff.mpr ⟨types, rfl⟩⟩

/-- What appends do that are grouped in some way. -/
structure Regroups (appending : Appending) : Prop where
  success : (∃ joined, appending.result = .ok joined) ↔
    ∃ type, ∀ column ∈ appending.columns, column.type = type
  reads : ∀ joined, appending.result = .ok joined →
    (∀ column ∈ appending.columns, column.type = joined.type) ∧
      joined.ReadsAs (appending.columns.flatMap (·.cells))
  /-- Grouped in another way they succeed just as well, and make the same column. -/
  associative : ∀ other : Appending, other.columns = appending.columns →
    ∀ joined, other.result = .ok joined ↔ appending.result = .ok joined

theorem regroups (appending : Appending) : appending.Regroups where
  success := exists_result_iff
  reads joined made := by
    obtain ⟨types, cells⟩ := result_eq_ok_iff.mp made
    exact ⟨types, Column.readsAs_iff.mpr cells⟩
  associative other same joined := by
    rw [result_eq_ok_iff, result_eq_ok_iff, same]

end Appending

namespace Column

/-- A column can be used as the list of its cells. Building one takes the values that its type
takes, with integers widened where need be, and reading it gives what builds it again. A column of
the same type, such as the column itself, can be appended to it, and one of another type leaves it
as it was. Two lists of values together make the column of the first one with that of the second one
appended, and how appends are grouped does not matter. -/
theorem columns_are_typed_lists {join : ColumnJoin} (joins : join.Concatenates) :
    (∀ values type, BuildsFrom values type) ∧
    (∀ column : Column, (do
      ofScalars (← (List.range column.length).mapM column.value) column.type) = .ok column) ∧
    (∀ receiver other : Column, receiver.Grows join other) ∧
    (∀ (receiver : Column) (others : List Column),
      (receiver.extendAll join others).type = receiver.type ∧
      ∀ own, receiver.ReadsAs own → (receiver.extendAll join others).ReadsAs
        (own ++ (others.filter (·.type = receiver.type)).flatMap (·.cells))) ∧
    (∀ front back type, ofScalars (front ++ back) type = (do
      (← ofScalars front type).append (← ofScalars back type))) ∧
    ∀ appending : Appending, appending.Regroups := by
  refine ⟨buildsFrom, fun column => ?_, grows joins, fun receiver others => ?_, ofScalars_append,
    Appending.regroups⟩
  · rw [mapM_value]
    exact ofScalars_of_fitsIn column.supported column.typed
  · obtain ⟨types, cells⟩ := extendAll_eq joins receiver others
    exact ⟨types, fun own reads => readsAs_iff.mpr (readsAs_iff.mp reads ▸ cells)⟩

/-- An integer is widened, the column is appended to itself, and three of it are joined in two
ways. -/
theorem columns_are_typed_lists_widened :
    let join : ColumnJoin := append
    let values : List Scalar := [.int32 7, .null, .int64 (-1)]
    let cells : List Scalar := [.int64 7, .null, .int64 (-1)]
    let numbers : Column := ⟨.int64, cells, rfl, by decide⟩
    let twice : Column := ⟨.int64, cells ++ cells, rfl, by decide⟩
    let left : Appending := .append (.append (.single numbers) (.single numbers)) (.single numbers)
    let right : Appending := .append (.single numbers) (.append (.single numbers) (.single numbers))
    join.Concatenates ∧ ofScalars values .int64 = .ok numbers ∧
      (∃ read, List.Forall₂ (Scalar.HeldAs .int64) values read ∧ numbers.ReadsAs read) ∧
      numbers.append numbers = .ok twice ∧ numbers.extend join numbers = (.ok (), twice) ∧
      numbers.ReadsAs cells ∧ twice.ReadsAs (cells ++ cells) ∧
      left.columns = right.columns ∧
      ∀ joined, left.result = .ok joined ↔ right.result = .ok joined := by
  intro join values cells numbers twice left right
  obtain ⟨builds, -, grows, -, -, regroups⟩ := columns_are_typed_lists append_concatenates
  have built : ofScalars values .int64 = .ok numbers := by rfl
  have appended : numbers.append numbers = .ok twice := by rfl
  have reads : numbers.ReadsAs cells := readsAs_cells numbers
  have same : left.columns = right.columns := rfl
  exact ⟨append_concatenates, built, ((builds values .int64).reads numbers built).2, appended,
    (grows numbers numbers).inPlace twice appended, reads,
    ((grows numbers numbers).reads twice appended).2 cells cells reads reads, same,
    (regroups right).associative left same⟩

end Column

end ColumnQuery
