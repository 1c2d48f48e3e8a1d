import ColumnQuery.Pipeline.Strategy
import ColumnQuery.Proofs.Column.Building
import ColumnQuery.Proofs.Pipeline.Aggregation

/-! # Absorbing and flushing

An aggregation that has absorbed some batches holds the groups of all their rows, and what it
flushes are the rows that it makes of them, in the order in which the table gives up the groups. It
fails to absorb a batch only for an integer sum that leaves 64 bits, and then the rows have no
aggregation.
-/

namespace ColumnQuery

/-- The types of all fields are supported. -/
def Schema.IsSupported (schema : Schema) : Prop :=
  ∀ type ∈ schema.types, type.isSupported = true

namespace Aggregation

variable {aggregation : Aggregation} {types groupTypes resultTypes : List DataType}
  {fresh : List Accumulator} {table : GroupTable} {rows : List Row}

/-- The rows of a group are refused on the way into its accumulators. -/
def Refuses (aggregation : Aggregation) (fresh : List Accumulator) (rows : List Row)
    (error : Error) : Prop :=
  ∃ key ∈ rows.map aggregation.key,
    Accumulator.foldRows fresh (groupMembers (aggregation.entered rows) key) = .error error

private theorem entered_append (front back : List Row) :
    aggregation.entered (front ++ back) = aggregation.entered front ++ aggregation.entered back :=
  List.map_append

theorem Refuses.append {front : List Row} {error : Error}
    (refuses : aggregation.Refuses fresh front error) (back : List Row) :
    aggregation.Refuses fresh (front ++ back) error := by
  obtain ⟨key, isKey, refused⟩ := refuses
  refine ⟨key, by rw [List.map_append]; exact List.mem_append_left _ isKey, ?_⟩
  rw [entered_append, groupMembers_append, Accumulator.foldRows_append, refused]
  rfl

/-- Rows enter a table in one go as they do in two. -/
theorem absorbRows_append (front back : List (Row × Row)) :
    aggregation.absorbRows (front ++ back) table =
      match aggregation.absorbRows front table with
      | (.ok (), next) => aggregation.absorbRows back next
      | (.error error, next) => (.error error, next) := by
  induction front generalizing table with
  | nil => rfl
  | cons row front ih =>
    rw [List.cons_append, absorbRows, absorbRows]
    rcases table.update _ _ _ with ⟨error | _, next⟩
    · rfl
    · exact ih

/-- Rows enter a table one by one, up to the first that is refused. -/
theorem absorbRows_of_represents (created : aggregation.newAccumulators = .ok fresh)
    {before : List Row} (represents : table.Represents fresh (aggregation.entered before))
    (rows : List Row) :
    (∃ next, aggregation.absorbRows (rows.map aggregation.contribution) table = (.ok (), next) ∧
        next.strategy = table.strategy ∧
        next.Represents fresh (aggregation.entered (before ++ rows))) ∨
      ∃ error next, aggregation.absorbRows (rows.map aggregation.contribution) table =
          (.error error, next) ∧ aggregation.Refuses fresh (before ++ rows) error := by
  induction rows generalizing before table with
  | nil => exact .inl ⟨table, rfl, rfl, by rwa [List.append_nil]⟩
  | cons row rows ih =>
    have whole : before ++ row :: rows = before ++ [row] ++ rows := by simp
    rw [List.map_cons, contribution, absorbRows, created]
    rcases represents.update (GroupKey.isCanonical_map _) (aggregation.operands row) with
      ⟨next, updated, sameStrategy, nextRepresents⟩ | ⟨error, next, updated, refused⟩
    · rw [updated, whole, ← sameStrategy]
      apply ih
      rw [entered_append]
      exact nextRepresents
    · rw [updated, whole]
      refine .inr ⟨error, next, rfl, Refuses.append ⟨aggregation.key row, by simp, ?_⟩ rows⟩
      rw [entered_append]
      exact refused

section Typed

private theorem foldRows_members (typed : aggregation.Typed types groupTypes resultTypes)
    (created : aggregation.newAccumulators = .ok fresh) (fits : ∀ row ∈ rows, RowFits types row)
    (key : Row) {results : Row} :
    (∃ accumulators, Accumulator.foldRows fresh (groupMembers (aggregation.entered rows) key) =
        .ok accumulators ∧ accumulators.map Accumulator.result = results) ↔
      aggregation.resultsOn (aggregation.membersOf rows key) = .ok results := by
  rw [groupMembers_entered]
  exact foldRows_eq_ok_iff typed.aggregates created
    fun row isMember => fits row (mem_of_mem_membersOf isMember)

/-- The only reason for rows to have no aggregation is a sum. -/
theorem eq_sumOverflow_of_rowsOn {arrange : List Row → List Row} {error : Error}
    (failed : aggregation.rowsOn arrange rows = .error error) : error = .sumOverflow := by
  obtain ⟨key, -, failed⟩ := exists_of_mapM_error failed
  rcases bind_eq_error_iff.mp failed with failed | ⟨results, -, success⟩
  · obtain ⟨input, -, failed⟩ := exists_of_mapM_error failed
    exact AggregateFunction.eq_sumOverflow_of_valueOn failed
  · cases success

/-- Some group of these rows has no aggregates. -/
def LacksResults (aggregation : Aggregation) (rows : List Row) : Prop :=
  ∃ key ∈ rows.map aggregation.key, ∀ results,
    aggregation.resultsOn (aggregation.membersOf rows key) ≠ .ok results

/-- Rows that are refused are refused for a sum, and some group of them has no aggregates. -/
theorem lacksResults_of_refuses (typed : aggregation.Typed types groupTypes resultTypes)
    (created : aggregation.newAccumulators = .ok fresh) (fits : ∀ row ∈ rows, RowFits types row)
    {error : Error} (refuses : aggregation.Refuses fresh rows error) :
    error = .sumOverflow ∧ aggregation.LacksResults rows := by
  obtain ⟨key, isKey, refused⟩ := refuses
  refine ⟨?_, key, isKey, fun results success => ?_⟩
  · rw [groupMembers_entered] at refused
    exact foldRows_error typed.aggregates created
      (fun row isMember => fits row (mem_of_mem_membersOf isMember)) refused
  · obtain ⟨accumulators, folded, -⟩ := (foldRows_members typed created fits key).mpr success
    rw [refused] at folded
    cases folded

/-- Rows of which a group has no aggregates have no aggregation, in whatever order the groups
come. -/
theorem LacksResults.rowsOn (lacks : aggregation.LacksResults rows) {arrange : List Row → List Row}
    (isPerm : ∀ keys, (arrange keys).Perm keys) :
    aggregation.rowsOn arrange rows = .error .sumOverflow := by
  obtain ⟨key, isKey, resultless⟩ := lacks
  cases made : aggregation.rowsOn arrange rows with
  | error error => rw [eq_sumOverflow_of_rowsOn made]
  | ok result =>
    have inOrder : key ∈ groupOrder arrange aggregation.groups.length
        (rows.map aggregation.key) := by
      refine (GroupStrategy.groupOrder_perm isPerm _ _).mem_iff.mpr ?_
      apply GroupStrategy.mem_groupKeys isKey
      intro ungrouped
      obtain ⟨row, -, rfl⟩ := List.mem_map.mp isKey
      rw [key, BoundExpr.valuesAt, List.length_eq_zero_iff.mp ungrouped]
      rfl
    obtain ⟨row, -, made⟩ := exists_result_of_mapM made inOrder
    obtain ⟨results, success, -⟩ := bind_eq_ok_iff.mp made
    exact absurd success (resultless results)

/-- A batch is absorbed, or its rows and those before it have no aggregation. -/
theorem absorb_of_represents {batch : Batch} {before : List Row}
    (typed : aggregation.Typed batch.schema.types groupTypes resultTypes)
    (created : aggregation.newAccumulators = .ok fresh)
    (fits : ∀ row ∈ before, RowFits batch.schema.types row)
    (represents : table.Represents fresh (aggregation.entered before)) :
    (∃ next, aggregation.absorb table batch = (.ok (), next) ∧
        next.Represents fresh (aggregation.entered (before ++ batch.rows))) ∨
      ∃ next, aggregation.absorb table batch = (.error (.error .sumOverflow), next) ∧
        aggregation.Refuses fresh (before ++ batch.rows) .sumOverflow := by
  have allFit : ∀ row ∈ before ++ batch.rows, RowFits batch.schema.types row := by
    intro row isMember
    rcases List.mem_append.mp isMember with early | late
    · exact fits row early
    · exact Batch.fits_of_mem_rows late
  rw [absorb, contributions_of_typed typed]
  rcases absorbRows_of_represents created represents batch.rows with
    ⟨next, absorbed, -, nextRepresents⟩ | ⟨error, next, absorbed, refuses⟩
  · exact .inl ⟨next, by simp only [absorbed, liftError_ok], nextRepresents⟩
  · obtain ⟨rfl, -⟩ := lacksResults_of_refuses typed created allFit refuses
    exact .inr ⟨next, by simp only [absorbed]; rfl, refuses⟩

theorem fits_canonical {row : Row} (fits : RowFits types row) :
    RowFits types (row.map Scalar.canonical) := by
  induction fits with
  | nil => exact .nil
  | @cons value type _ _ first _ ih =>
    refine .cons ?_ ih
    rcases first with isNull | isType
    · exact .inl (by rw [isNull]; rfl)
    · exact .inr (by rw [← isType]; cases value <;> rfl)

/-- The rows of an aggregation have a column per field of its schema. -/
theorem Typed.width (typed : aggregation.Typed types groupTypes resultTypes) :
    aggregation.groups.length + aggregation.aggregates.length =
      aggregation.schema.types.length := by
  rw [typed.schema, List.length_append, typed.groups.length_eq, typed.aggregates.length_eq]

/-- The key of a row is of the types of the group columns. -/
theorem fits_key (typed : aggregation.Typed types groupTypes resultTypes) {row : Row}
    (fits : RowFits types row) : RowFits groupTypes (aggregation.key row) :=
  fits_canonical (BoundExpr.fits_valuesAt typed.groups fits)

theorem fits_resultsOn {inputs : List AggregateInput}
    (typed : List.Forall₂ (AggregateInput.HasType types) inputs resultTypes)
    (fits : ∀ row ∈ rows, RowFits types row) {results : Row}
    (success : inputs.mapM (fun input => input.function.valueOn input.type
      (rows.map fun row => input.operand.valueAt row)) = .ok results) :
    RowFits resultTypes results := by
  induction typed generalizing results with
  | nil =>
    cases success
    exact .nil
  | @cons input result _ _ first _ ih =>
    obtain ⟨value, values, made, others, rfl⟩ := mapM_cons_eq_ok_iff.mp success
    exact .cons (AggregateFunction.fits_of_valueOn first.2 (first.operandsFit fits) made)
      (ih others)

/-- The groups that leave are those that the rows have, in the order of the strategy. -/
theorem leaving_of_represents (created : aggregation.newAccumulators = .ok fresh)
    (represents : table.Represents fresh (aggregation.entered rows)) :
    ∃ entries, aggregation.leaving table.entries = .ok entries ∧
      entries.map (·.values) =
        table.strategy.groupKeys aggregation.groups.length (rows.map aggregation.key) ∧
      ∀ entry ∈ entries, Accumulator.foldRows fresh
        (groupMembers (aggregation.entered rows) entry.values) = .ok entry.accumulators := by
  have keys : table.entries.map (·.values) = table.strategy.arrange (rows.map aggregation.key) := by
    rw [represents.keys, entered, List.map_map]
    rfl
  by_cases grouped : aggregation.groups.length ≠ 0
  · have nonempty : aggregation.groups.isEmpty = false := by
      simpa using grouped
    refine ⟨table.entries, by simp [leaving, nonempty], ?_, represents.folds⟩
    rw [keys, GroupStrategy.groupKeys, if_neg grouped]
  have ungrouped : aggregation.groups = [] := List.length_eq_zero_iff.mp (not_not.mp grouped)
  rw [GroupStrategy.groupKeys, if_pos (not_not.mp grouped)]
  cases rows with
  | nil =>
    rw [List.map_nil, GroupStrategy.arrange_nil, List.map_eq_nil_iff] at keys
    refine ⟨[⟨[], fresh⟩], by simp [leaving, keys, ungrouped, created], rfl, ?_⟩
    intro entry isMember
    rw [List.mem_singleton.mp isMember]
    rfl
  | cons row rows =>
    have single : table.strategy.arrange ((row :: rows).map aggregation.key) = [[]] := by
      apply GroupStrategy.arrange_same (by simp)
      intro key isKey
      obtain ⟨other, -, rfl⟩ := List.mem_map.mp isKey
      rw [key, ungrouped]
      rfl
    have nonempty : table.entries.isEmpty = false := by
      rw [single] at keys
      cases entries : table.entries with
      | nil => simp [entries] at keys
      | cons entry rest => rfl
    exact ⟨table.entries, by simp [leaving, nonempty], keys.trans single, represents.folds⟩

/-- The key of a group is of the types of the group columns. -/
theorem fits_of_mem_groupKeys (typed : aggregation.Typed types groupTypes resultTypes)
    (fits : ∀ row ∈ rows, RowFits types row) {strategy : GroupStrategy} {key : Row}
    (isKey : key ∈ strategy.groupKeys aggregation.groups.length (rows.map aggregation.key)) :
    RowFits groupTypes key := by
  rcases GroupStrategy.mem_of_mem_groupKeys isKey with ⟨ungrouped, rfl⟩ | isKey
  · have columnless := typed.groups
    rw [List.length_eq_zero_iff.mp ungrouped, List.forall₂_nil_left_iff] at columnless
    rw [columnless]
    exact .nil
  · obtain ⟨row, isRow, rfl⟩ := List.mem_map.mp isKey
    exact fits_key typed (fits row isRow)

/-- Groups whose accumulators have folded their members have the rows of their keys. -/
theorem rowOf_of_folds (typed : aggregation.Typed types groupTypes resultTypes)
    (created : aggregation.newAccumulators = .ok fresh) (fits : ∀ row ∈ rows, RowFits types row)
    {strategy : GroupStrategy} {entries : List GroupEntry}
    (keys : ∀ key ∈ entries.map (·.values),
      key ∈ strategy.groupKeys aggregation.groups.length (rows.map aggregation.key))
    (folds : ∀ entry ∈ entries, Accumulator.foldRows fresh
      (groupMembers (aggregation.entered rows) entry.values) = .ok entry.accumulators) :
    (entries.map (·.values)).mapM (aggregation.rowOf rows) = .ok (entries.map GroupEntry.row) ∧
      ∀ entry ∈ entries, RowFits (groupTypes ++ resultTypes) entry.row := by
  have results (entry : GroupEntry) (isEntry : entry ∈ entries) :
      aggregation.resultsOn (aggregation.membersOf rows entry.values) =
        .ok (entry.accumulators.map Accumulator.result) :=
    (foldRows_members typed created fits entry.values).mp ⟨_, folds entry isEntry, rfl⟩
  constructor
  · rw [mapM_eq_ok_iff, List.map_map, List.map_map]
    apply List.map_congr_left
    intro entry isEntry
    simp only [Function.comp_apply, rowOf, results entry isEntry, ok_bind, pure_eq_ok,
      GroupEntry.row]
  · intro entry isEntry
    have isKey := keys entry.values (List.mem_map_of_mem isEntry)
    have resultsFit := fits_resultsOn typed.aggregates
      (fun row isMember => fits row (mem_of_mem_membersOf isMember)) (results entry isEntry)
    exact List.rel_append (fits_of_mem_groupKeys typed fits isKey) resultsFit

private theorem columnAt_of_fits {schema : Schema} {cells : List Row} {index : Nat}
    {type : DataType} (found : schema.types[index]? = some type)
    (supported : type.isSupported = true)
    (fits : ∀ row ∈ cells, RowFits schema.types row) :
    ∃ column, columnAt schema cells index = .ok column ∧ column.type = type ∧
      column.cells = cells.map fun row => row.getD index .null := by
  obtain ⟨field, isField, rfl⟩ := Option.map_eq_some_iff.mp (List.getElem?_map ▸ found)
  have cellsFit : ∀ value ∈ cells.map fun row => row.getD index .null, value.FitsIn field.type := by
    intro value isMember
    obtain ⟨row, isRow, rfl⟩ := List.mem_map.mp isMember
    exact (fits row isRow).fits_getD found
  refine ⟨⟨field.type, _, supported, cellsFit⟩, ?_, rfl, rfl⟩
  simp only [columnAt, isField, Column.ofScalars_of_fitsIn supported cellsFit, liftError_ok]

/-- Rows of the types of a schema have columns at all its positions. -/
theorem columns_of_fits {schema : Schema} {cells : List Row}
    (supported : schema.IsSupported)
    (fits : ∀ row ∈ cells, RowFits schema.types row) :
    ∃ columns, (List.range schema.types.length).mapM (columnAt schema cells) = .ok columns ∧
      columns.map (·.type) = schema.types ∧
      columns.map (·.cells) = (List.range schema.types.length).map fun index =>
        cells.map fun row => row.getD index .null := by
  have columnwise (index : Nat) (isIndex : index ∈ List.range schema.types.length) :
      ∃ column, columnAt schema cells index = .ok column ∧
        schema.types[index]? = some column.type ∧
        (cells.map fun row => row.getD index .null) = column.cells := by
    have found := List.getElem?_eq_getElem (List.mem_range.mp isIndex)
    obtain ⟨column, made, type, read⟩ :=
      columnAt_of_fits found (supported _ (List.getElem_mem _)) fits
    exact ⟨column, made, by rw [found, type], read.symm⟩
  obtain ⟨columns, made, each⟩ := exists_mapM columnwise
  refine ⟨columns, made, ?_, ?_⟩
  · have same := map_eq_map_of_forall₂ (each.imp fun _ _ holds => holds.1)
    rw [map_getElem?_range] at same
    exact map_some_inj.mp (List.map_map.trans same.symm)
  · exact (map_eq_map_of_forall₂ (each.imp fun _ _ holds => holds.2)).symm

/-- Groups whose rows are of the types of the schema make a batch of these rows. -/
theorem batchOf_of_fits {entries : List GroupEntry}
    (supported : aggregation.schema.IsSupported)
    (width : aggregation.groups.length + aggregation.aggregates.length =
      aggregation.schema.types.length)
    (fits : ∀ entry ∈ entries, RowFits aggregation.schema.types entry.row) :
    ∃ batch, aggregation.batchOf entries = .ok batch ∧ batch.schema = aggregation.schema ∧
      batch.rows = entries.map GroupEntry.row := by
  let rows := entries.map GroupEntry.row
  have rowsFit : ∀ row ∈ rows, RowFits aggregation.schema.types row := by
    intro row isMember
    obtain ⟨entry, isEntry, rfl⟩ := List.mem_map.mp isMember
    exact fits entry isEntry
  obtain ⟨columns, made, types, cells⟩ := columns_of_fits supported rowsFit
  obtain ⟨batch, built, schema, read⟩ := Batch.exists_build types cells
  rw [List.length_map] at built
  refine ⟨batch, ?_, schema, read.trans ?_⟩
  · simp only [batchOf, width, made, ok_bind, built, liftError_ok, rows]
  · refine (List.map_congr_left ?_).trans (List.map_id rows)
    intro row isRow
    exact map_getD_range (rowsFit row isRow).length_eq

/-- The groups that leave a table are flushed as their batch, if they make one. -/
theorem flush_of_leaving (order : DrainOrder) (later : Nat) {entries : List GroupEntry}
    (left : aggregation.leaving (table.drain order later).1 = .ok entries) :
    aggregation.flush order later table =
      (aggregation.batchOf entries, .empty table.strategy) := by
  simp only [flush, left, liftError_ok, ok_bind]
  rfl

/-- A batch of groups has columns of types that a column can hold. -/
theorem isSupported_of_batchOf (width : aggregation.groups.length + aggregation.aggregates.length =
      aggregation.schema.types.length) {entries : List GroupEntry} {batch : Batch}
    (made : aggregation.batchOf entries = .ok batch) : aggregation.schema.IsSupported := by
  obtain ⟨columns, succeeded, -⟩ := bind_eq_ok_iff.mp made
  intro type isMember
  obtain ⟨index, bound, found⟩ := List.mem_iff_getElem.mp isMember
  have isIndex : index ∈ List.range (aggregation.groups.length + aggregation.aggregates.length) :=
    List.mem_range.mpr (width ▸ bound)
  obtain ⟨column, -, isColumn⟩ := exists_result_of_mapM succeeded isIndex
  have isType := found ▸ List.getElem?_eq_getElem bound
  obtain ⟨field, isField, rfl⟩ := Option.map_eq_some_iff.mp (List.getElem?_map ▸ isType)
  simp only [columnAt, isField, liftError_eq_ok_iff] at isColumn
  exact (Column.ofScalars_eq_ok_iff.mp isColumn).1

/-- The groups that leave a table do so in any order that they are put into. -/
theorem leaving_perm {entries arranged left : List GroupEntry} (perm : arranged.Perm entries)
    (success : aggregation.leaving entries = .ok left) :
    ∃ arrangedLeft, aggregation.leaving arranged = .ok arrangedLeft ∧ arrangedLeft.Perm left := by
  rw [leaving] at success ⊢
  rw [perm.isEmpty_eq]
  cases alone : entries.isEmpty && aggregation.groups.isEmpty with
  | true =>
    rw [alone, if_pos rfl] at success
    exact ⟨left, success, .refl left⟩
  | false =>
    rw [alone, if_neg Bool.false_ne_true] at success
    cases success
    exact ⟨arranged, rfl, perm⟩

/-- What an aggregation makes of some rows is, group by group, the rows of their keys. -/
def Makes (aggregation : Aggregation) (strategy : GroupStrategy) (rows made : List Row) : Prop :=
  ∃ keys : List Row,
    keys.Perm (strategy.groupKeys aggregation.groups.length (rows.map aggregation.key)) ∧
    (strategy = .ordered →
      keys = strategy.groupKeys aggregation.groups.length (rows.map aggregation.key)) ∧
    keys.mapM (aggregation.rowOf rows) = .ok made

/-- What an aggregation makes of some rows with the standard strategy are the rows that they have,
with the groups in some order. -/
theorem Makes.exists_rowsOn {made : List Row}
    (makes : aggregation.Makes (StrategyRegistry.byArity aggregation) rows made) :
    ∃ arrange : List Row → List Row, (∀ keys, (arrange keys).Perm keys) ∧
      aggregation.rowsOn arrange rows = .ok made := by
  obtain ⟨keys, perm, inOrder, each⟩ := makes
  obtain ⟨arrange, isPerm, arranged⟩ := GroupStrategy.exists_groupOrder perm inOrder
  exact ⟨arrange, isPerm, by rw [rowsOn, arranged, each]⟩

/-- A table that has absorbed some rows is flushed, in whatever order it gives up its groups, as
what the aggregation makes of the rows. -/
theorem exists_flush (typed : aggregation.Typed types groupTypes resultTypes)
    (supported : aggregation.schema.IsSupported) (created : aggregation.newAccumulators = .ok fresh)
    (fits : ∀ row ∈ rows, RowFits types row)
    (represents : table.Represents fresh (aggregation.entered rows)) (order : DrainOrder)
    (later : Nat) :
    ∃ batch : Batch, aggregation.flush order later table = (.ok batch, .empty table.strategy) ∧
      batch.schema = aggregation.schema ∧ aggregation.Makes table.strategy rows batch.rows := by
  obtain ⟨entries, left, keys, folds⟩ := leaving_of_represents created represents
  obtain ⟨drained, drainedLeft, same⟩ := leaving_perm (table.drain_perm order later) left
  have members : ∀ key ∈ drained.map (·.values),
      key ∈ table.strategy.groupKeys aggregation.groups.length (rows.map aggregation.key) := by
    intro key isKey
    rw [← keys]
    exact (same.map _).mem_iff.mp isKey
  obtain ⟨made, fit⟩ := rowOf_of_folds typed created fits members
    fun entry isEntry => folds entry (same.mem_iff.mp isEntry)
  rw [← typed.schema] at fit
  obtain ⟨batch, built, schema, ownRows⟩ := batchOf_of_fits supported typed.width fit
  refine ⟨batch, by rw [flush_of_leaving order later drainedLeft, built], schema,
    drained.map (·.values), keys ▸ same.map _, fun sorted => ?_, ownRows ▸ made⟩
  rw [table.drain_of_ordered order later sorted, left] at drainedLeft
  rw [← Except.ok.inj drainedLeft, keys]

end Typed

end Aggregation

end ColumnQuery
