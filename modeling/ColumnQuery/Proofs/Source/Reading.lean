import ColumnQuery.Proofs.Traversal
import ColumnQuery.Source.Reading
import Mathlib.Algebra.GroupWithZero.Nat
import Mathlib.Data.List.Chain
import Mathlib.Data.List.GetD
import Mathlib.Data.List.Pairwise
import Mathlib.Data.List.Sort

/-! # Readers of row groups

A reader is faithful when it yields the columns that it is asked for as the file has them, ascending
and each once, in runs that together are the row group. The place that a scan works out for a column
is the one where such a reader puts it. A file is read by the reader that cuts row groups into equal
runs, and this one is faithful.
-/

namespace ColumnQuery

section Order

private theorem mem_destutter' {first item : Nat} {items : List Nat} :
    item ∈ items.destutter' (· ≠ ·) first ↔ item ∈ first :: items := by
  induction items generalizing first with
  | nil => simp
  | cons second rest ih =>
    by_cases same : first = second
    · subst same
      rw [List.destutter'_cons_neg _ (not_not.mpr rfl), ih]
      simp
    · rw [List.destutter'_cons_pos _ same, List.mem_cons, ih, ← List.mem_cons]

@[simp] theorem mem_fileOrder {ordinals : List Nat} {ordinal : Nat} :
    ordinal ∈ fileOrder ordinals ↔ ordinal ∈ ordinals := by
  have kept (items : List Nat) : ordinal ∈ items.destutter (· ≠ ·) ↔ ordinal ∈ items := by
    cases items with
    | nil => rfl
    | cons first rest => exact mem_destutter'
  rw [fileOrder, kept, List.mem_mergeSort]

theorem ascending_fileOrder (ordinals : List Nat) : (fileOrder ordinals).Pairwise (· < ·) := by
  have sorted : (ordinals.mergeSort fun left right => left ≤ right).Pairwise (· ≤ ·) :=
    List.sortedLE_mergeSort.pairwise
  have ordered := sorted.sublist (List.destutter_sublist (· ≠ ·) _)
  have changing := List.isChain_destutter (· ≠ ·)
    (ordinals.mergeSort fun left right => left ≤ right)
  rw [← List.isChain_iff_pairwise, List.isChain_iff_getElem]
  intro index bound
  exact lt_of_le_of_ne (List.pairwise_iff_getElem.mp ordered _ _ _ _ index.lt_succ_self)
    (List.isChain_iff_getElem.mp changing index bound)

/-- Two ascending lists of the same ordinals are the same. -/
theorem eq_fileOrder {order ordinals : List Nat} (ascending : order.Pairwise (· < ·))
    (same : ∀ ordinal, ordinal ∈ order ↔ ordinal ∈ ordinals) : order = fileOrder ordinals :=
  ascending.eq_of_mem_iff (ascending_fileOrder ordinals) fun ordinal => by rw [same, mem_fileOrder]

end Order

section Search

variable {order : List Nat}

private theorem getElem_lt_getElem_iff (ascending : order.Pairwise (· < ·)) {left right : Nat}
    (isLeft : left < order.length) (isRight : right < order.length) :
    order[left] < order[right] ↔ left < right := by
  have precedes := List.pairwise_iff_getElem.mp ascending
  constructor
  · intro less
    by_contra notBefore
    rcases Nat.lt_or_eq_of_le (Nat.le_of_not_lt notBefore) with after | rfl
    · exact Nat.lt_asymm less (precedes right left isRight isLeft after)
    · exact Nat.lt_irrefl _ less
  · exact precedes left right isLeft isRight

/-- An item of an ascending list is found wherever it stands between the two positions. -/
theorem searchBetween_of_getElem? (ascending : order.Pairwise (· < ·)) {item index low high : Nat}
    (isItem : order[index]? = some item) (above : low ≤ index) (below : index < high)
    (inside : high ≤ order.length) : searchBetween order item low high = some index := by
  obtain ⟨bound, rfl⟩ := List.getElem?_eq_some_iff.mp isItem
  -- The item stays between the two positions, since what lies on the other side of the middle is
  -- too small or too large for it.
  fun_induction searchBetween order order[index] low high with
  | case1 low high _ middle found =>
    have bounded : middle < order.length := by omega
    rw [List.getD_eq_getElem _ _ bounded, Nat.compare_eq_eq] at found
    have notBefore := (getElem_lt_getElem_iff ascending bounded bound).not.mp found.not_lt
    have notAfter := (getElem_lt_getElem_iff ascending bound bounded).not.mp found.not_gt
    exact congrArg some (by omega)
  | case2 low high _ middle found ih =>
    have bounded : middle < order.length := by omega
    rw [List.getD_eq_getElem _ _ bounded, Nat.compare_eq_lt,
      getElem_lt_getElem_iff ascending] at found
    exact ih found below inside
  | case3 low high _ middle found ih =>
    have bounded : middle < order.length := by omega
    rw [List.getD_eq_getElem _ _ bounded, Nat.compare_eq_gt,
      getElem_lt_getElem_iff ascending] at found
    exact ih above found (by omega)
  | case4 low high outside => omega

private theorem placeIn_of_getElem? (ascending : order.Pairwise (· < ·)) {ordinal index : Nat}
    (isOrdinal : order[index]? = some ordinal) : placeIn order ordinal = index := by
  obtain ⟨bound, _⟩ := List.getElem?_eq_some_iff.mp isOrdinal
  rw [placeIn, searchBetween_of_getElem? ascending isOrdinal index.zero_le bound le_rfl]
  rfl

/-- The place of an ordinal is where it stands. -/
theorem getElem?_placeIn (ascending : order.Pairwise (· < ·)) {ordinal : Nat}
    (isMember : ordinal ∈ order) : order[placeIn order ordinal]? = some ordinal := by
  obtain ⟨index, isOrdinal⟩ := List.mem_iff_getElem?.mp isMember
  rwa [placeIn_of_getElem? ascending isOrdinal]

end Search

section Cutting

/-- Of an ascending list of ordinals, those that a list has come first. -/
theorem getElem?_filterMap_ascending {α : Type} {items : List α} {order : List Nat}
    (ascending : order.Pairwise (· < ·)) (index : Nat) :
    (order.filterMap (items[·]?))[index]? = order[index]?.bind (items[·]?) := by
  induction order generalizing index with
  | nil => rfl
  | cons first rest ih =>
    obtain ⟨before, ascending⟩ := List.pairwise_cons.mp ascending
    cases found : items[first]? with
    | some item =>
      rw [List.filterMap_cons_some found]
      cases index with
      | zero => simp [found]
      | succ index => exact ih ascending index
    | none =>
      have missing (ordinal : Nat) (isMember : ordinal ∈ first :: rest) :
          items[ordinal]? = none := by
        rw [List.getElem?_eq_none_iff] at found ⊢
        rcases List.mem_cons.mp isMember with rfl | later
        · exact found
        · exact found.trans (before ordinal later).le
      rw [List.filterMap_eq_nil_iff.mpr missing]
      cases isOrdinal : (first :: rest)[index]? with
      | none => rfl
      | some ordinal => exact (missing ordinal (List.mem_of_getElem? isOrdinal)).symm

namespace RowGroup

private theorem masked_columns (group : RowGroup) (ordinals : List Nat) :
    (group.masked ordinals).columns = (fileOrder ordinals).filterMap (group.columns[·]?) := by
  have present : (List.range group.columns.length).filter ordinals.contains =
      (fileOrder ordinals).filter (· < group.columns.length) := by
    refine (List.pairwise_lt_range.filter _).eq_of_mem_iff
      ((ascending_fileOrder ordinals).filter _) fun ordinal => ?_
    simp [and_comm]
  rw [masked, present, List.filterMap_filter]
  refine List.filterMap_congr fun ordinal _ => ?_
  by_cases bound : ordinal < group.columns.length <;> simp [bound]

/-- A column that is read stands at its place. -/
theorem masked_placeIn (group : RowGroup) {ordinals : List Nat} {ordinal : Nat}
    (isMember : ordinal ∈ ordinals) :
    (group.masked ordinals).columns[placeIn (fileOrder ordinals) ordinal]? =
      group.columns[ordinal]? := by
  have ascending := ascending_fileOrder ordinals
  rw [masked_columns, getElem?_filterMap_ascending ascending,
    getElem?_placeIn ascending (mem_fileOrder.mpr isMember), Option.bind_some]

end RowGroup

namespace FileTable

/-- A file is read by the reader that cuts its row groups. -/
theorem load_eq_loadThrough : load = loadThrough .cutting := by
  funext schema ordinals batchSize group
  rw [load, loadThrough, GroupReader.cutting, List.mapM_map]
  -- An ordinal that a row group does not have is missed in both ways, with the same error.
  refine mapM_congr fun ⟨start, length⟩ _ => ?_
  dsimp only [Function.comp_apply]
  refine congrArg (· >>= _) (mapM_congr fun ordinal isMember => ?_)
  rw [takeColumn, List.getElem?_map, group.masked_placeIn isMember]
  cases group.columns[ordinal]? <;> rfl

theorem push_eq_pushThrough {World : Type} (table : FileTable) (content : FileContent)
    (consumers : Consumers World) :
    table.push content consumers = table.pushThrough .cutting content consumers := by
  have prepared (batchSize : Nat) (projection : Option (List String)) :
      table.prepare content batchSize projection =
        table.prepareThrough .cutting content batchSize projection := by
    simp only [prepare, prepareThrough, loader, load_eq_loadThrough, bind_assoc, pure_bind]
  funext batchSize projection cancelled world
  rw [push, prepared]
  rfl

end FileTable

end Cutting

/-- All columns of a row group have its row count. -/
def RowGroup.IsEven (group : RowGroup) : Prop :=
  ∀ column ∈ group.columns, column.cells.length = group.rowCount

instance (group : RowGroup) : Decidable group.IsEven :=
  inferInstanceAs (Decidable (∀ column ∈ group.columns, column.cells.length = group.rowCount))

/-- A file whose row groups are of the columns of its schema. -/
structure StoredTable.WellFormed (stored : StoredTable) : Prop where
  even : ∀ group ∈ stored.groups, group.IsEven
  types : ∀ group ∈ stored.groups, group.columns.map (·.type) = stored.schema.types
  /-- The cells of a type that columns cannot hold may be any. -/
  typed : ∀ group ∈ stored.groups, ∀ column ∈ group.columns, column.type.isSupported = true →
    ∀ cell ∈ column.cells, cell.FitsIn column.type

/-- The cells of a column of a row group, none if there is no such column. -/
def RowGroup.cellsAt (group : RowGroup) (ordinal : Nat) : List Scalar :=
  group.columns[ordinal]?.elim [] (·.cells)

/-- Runs of at most `size` rows that hold the columns of a row group at some ordinals. -/
structure RowGroup.ReadAs (group : RowGroup) (order : List Nat) (size : Nat)
    (runs : List RowGroup) : Prop where
  sizes : ∀ run ∈ runs, 0 < run.rowCount ∧ run.rowCount ≤ size
  even : ∀ run ∈ runs, run.IsEven
  types : ∀ run ∈ runs, run.columns.map (fun column => some column.type) =
    order.map fun ordinal => group.columns[ordinal]?.map (·.type)
  /-- This is all that is known of the rows when no column is read. -/
  rowCount : (runs.map (·.rowCount)).sum = group.rowCount
  cells : ∀ index ordinal, order[index]? = some ordinal →
    runs.flatMap (·.cellsAt index) = group.cellsAt ordinal

/-- A reader that yields the columns of a set of ordinals in the order of the file, each once. -/
def GroupReader.IsFaithful (reader : GroupReader) : Prop :=
  ∀ (group : RowGroup) (ordinals order : List Nat) (size : Nat), group.IsEven → 0 < size →
    (∀ ordinal ∈ ordinals, ordinal < group.columns.length) → order.Pairwise (· < ·) →
      (∀ ordinal, ordinal ∈ order ↔ ordinal ∈ ordinals) →
        group.ReadAs order size (reader group ordinals size)

section Pieces

/-- The rows of a row group from a start on, cut into runs of some lengths. -/
def RowGroup.cutInto (group : RowGroup) (start : Nat) : (lengths : List Nat) → List RowGroup
  | [] => []
  | length :: lengths =>
    ⟨length, group.columns.map fun column => column.slice start length⟩ ::
      group.cutInto (start + length) lengths

/-- A run that is read of a row group has the columns of a piece of it at their places. -/
structure RowGroup.PartOf (run piece : RowGroup) (order : List Nat) : Prop where
  rowCount : run.rowCount = piece.rowCount
  columns : ∀ index ordinal : Nat, order[index]? = some ordinal →
    run.columns[index]? = piece.columns[ordinal]?

/-- Runs whose columns continue those of a row group from a start on are its pieces from there. -/
theorem RowGroup.forall₂_cutInto {group : RowGroup} {order : List Nat} {runs : List RowGroup}
    {start : Nat} (even : ∀ run ∈ runs, run.IsEven)
    (types : ∀ run ∈ runs, run.columns.map (fun column => some column.type) =
      order.map fun ordinal => group.columns[ordinal]?.map (·.type))
    (cells : ∀ index ordinal, order[index]? = some ordinal →
      runs.flatMap (·.cellsAt index) = (group.cellsAt ordinal).drop start) :
    List.Forall₂ (fun run piece => run.PartOf piece order) runs
      (group.cutInto start (runs.map (·.rowCount))) := by
  induction runs generalizing start with
  | nil => exact .nil
  | cons run rest ih =>
    obtain ⟨evenRun, evenRest⟩ := List.forall_mem_cons.mp even
    obtain ⟨typesRun, typesRest⟩ := List.forall_mem_cons.mp types
    have found (index ordinal : Nat) (isOrdinal : order[index]? = some ordinal) :
        ∃ part whole, run.columns[index]? = some part ∧ group.columns[ordinal]? = some whole ∧
          part.type = whole.type := by
      have atIndex := congrArg (·[index]?) typesRun
      simp only [List.getElem?_map, isOrdinal, Option.map_some] at atIndex
      obtain ⟨part, isPart, same⟩ := Option.map_eq_some_iff.mp atIndex
      obtain ⟨whole, isWhole, type⟩ := Option.map_eq_some_iff.mp same.symm
      exact ⟨part, whole, isPart, isWhole, type.symm⟩
    -- The cells of the run end where its rows do, and the rest begin there.
    have split (index ordinal : Nat) (isOrdinal : order[index]? = some ordinal) :
        run.cellsAt index = ((group.cellsAt ordinal).drop start).take run.rowCount ∧
          rest.flatMap (·.cellsAt index) = (group.cellsAt ordinal).drop (start + run.rowCount) := by
      obtain ⟨part, whole, isPart, -, -⟩ := found index ordinal isOrdinal
      have length : (run.cellsAt index).length = run.rowCount := by
        rw [RowGroup.cellsAt, isPart]
        exact evenRun part (List.mem_of_getElem? isPart)
      rw [← List.drop_drop, ← cells index ordinal isOrdinal, List.flatMap_cons]
      exact ⟨(List.take_left' length).symm, (List.drop_left' length).symm⟩
    refine .cons ⟨rfl, fun index ordinal isOrdinal => ?_⟩
      (ih evenRest typesRest fun index ordinal isOrdinal => (split index ordinal isOrdinal).2)
    obtain ⟨part, whole, isPart, isWhole, type⟩ := found index ordinal isOrdinal
    have cells := (split index ordinal isOrdinal).1
    rw [RowGroup.cellsAt, RowGroup.cellsAt, isPart, isWhole] at cells
    rw [List.getElem?_map, isPart, isWhole]
    cases part
    cases type
    cases cells
    rfl

/-- The runs that are read of a row group are the pieces of their lengths. -/
theorem RowGroup.ReadAs.forall₂_cutInto {group : RowGroup} {order : List Nat} {size : Nat}
    {runs : List RowGroup} (readAs : group.ReadAs order size runs) :
    List.Forall₂ (fun run piece => run.PartOf piece order) runs
      (group.cutInto 0 (runs.map (·.rowCount))) :=
  RowGroup.forall₂_cutInto readAs.even readAs.types readAs.cells

end Pieces

section Faithful

/-- The runs that a list is cut into are the list. -/
theorem flatMap_cuts {α : Type} {size : Nat} (positive : 0 < size) (items : List α) :
    (cuts size items.length).flatMap (fun (start, length) => (items.drop start).take length) =
      items := by
  have front (count : Nat) : (List.range count).flatMap (fun index =>
      (items.drop (index * size)).take (min size (items.length - index * size))) =
        items.take (count * size) := by
    induction count with
    | zero => simp
    | succ count ih =>
      rw [List.range_succ, List.flatMap_append, ih, List.flatMap_singleton, Nat.succ_mul,
        List.take_add, ← List.length_drop, ← List.take_eq_take_min]
  rw [cuts, List.flatMap_map, front]
  refine List.take_of_length_le ?_
  have whole := Nat.div_add_mod' (items.length + size - 1) size
  have rest := Nat.mod_lt (items.length + size - 1) positive
  omega

private theorem mem_cuts {size total : Nat} (positive : 0 < size) {start length : Nat}
    (isCut : (start, length) ∈ cuts size total) :
    0 < length ∧ length ≤ size ∧ start + length ≤ total := by
  obtain ⟨index, isIndex, same⟩ := List.mem_map.mp isCut
  cases same
  have before : index + 1 ≤ (total + size - 1) / size := List.mem_range.mp isIndex
  rw [Nat.le_div_iff_mul_le positive, Nat.succ_mul] at before
  omega

private theorem sum_cuts {size : Nat} (positive : 0 < size) (total : Nat) :
    ((cuts size total).map (·.2)).sum = total := by
  have whole := congrArg List.length (flatMap_cuts positive (List.range total))
  rw [List.length_range, List.length_flatMap] at whole
  refine Eq.trans (congrArg List.sum (List.map_congr_left fun ⟨start, length⟩ isCut => ?_)) whole
  obtain ⟨-, -, bound⟩ := mem_cuts positive isCut
  simp only [List.length_take, List.length_drop, List.length_range]
  omega

theorem GroupReader.cutting_isFaithful : cutting.IsFaithful := by
  intro group ordinals order size even positive inside ascending same
  have atIndex (index : Nat) : (group.masked ordinals).columns[index]? =
      order[index]?.bind (group.columns[·]?) := by
    rw [group.masked_columns, ← eq_fileOrder ascending same, getElem?_filterMap_ascending ascending]
  have isColumn {index ordinal : Nat} (isOrdinal : order[index]? = some ordinal) :
      ∃ column, group.columns[ordinal]? = some column ∧
        (group.masked ordinals).columns[index]? = some column := by
    have bound := inside ordinal ((same ordinal).mp (List.mem_of_getElem? isOrdinal))
    have found := List.getElem?_eq_getElem bound
    exact ⟨_, found, by rw [atIndex, isOrdinal, Option.bind_some, found]⟩
  refine ⟨fun run isRun => ?_, fun run isRun => ?_, fun run isRun => ?_, ?_, ?_⟩
  · obtain ⟨⟨start, length⟩, isCut, rfl⟩ := List.mem_map.mp isRun
    obtain ⟨some, atMost, -⟩ := mem_cuts positive isCut
    exact ⟨some, atMost⟩
  · obtain ⟨⟨start, length⟩, isCut, rfl⟩ := List.mem_map.mp isRun
    intro column isMember
    obtain ⟨whole, isWhole, rfl⟩ := List.mem_map.mp isMember
    rw [group.masked_columns] at isWhole
    obtain ⟨ordinal, -, found⟩ := List.mem_filterMap.mp isWhole
    have count := even whole (List.mem_of_getElem? found)
    obtain ⟨-, -, bound⟩ := mem_cuts positive isCut
    simp only [RawColumn.slice, List.length_take, List.length_drop]
    omega
  · obtain ⟨⟨start, length⟩, -, rfl⟩ := List.mem_map.mp isRun
    refine List.ext_getElem? fun index => ?_
    simp only [List.getElem?_map]
    cases isOrdinal : order[index]? with
    | none => simp [atIndex, isOrdinal]
    | some ordinal =>
      obtain ⟨column, found, isRead⟩ := isColumn isOrdinal
      simp [found, isRead, RawColumn.slice]
  · rw [cutting, List.map_map]
    exact sum_cuts positive group.rowCount
  · intro index ordinal isOrdinal
    obtain ⟨column, found, isRead⟩ := isColumn isOrdinal
    have count := even column (List.mem_of_getElem? found)
    rw [cutting, List.flatMap_map, ← count]
    simp only [RowGroup.cellsAt, List.getElem?_map, isRead, found]
    exact flatMap_cuts positive column.cells

end Faithful

end ColumnQuery
