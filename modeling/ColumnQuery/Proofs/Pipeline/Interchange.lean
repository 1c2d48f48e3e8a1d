import ColumnQuery.Proofs.Column.Building
import ColumnQuery.Proofs.Group.Agreement
import ColumnQuery.Proofs.Pipeline.Nodes

/-! # Aggregations in step

A hash table and an ordered table that absorb the same batches hold the same groups at all times,
also after a row that was refused half way. They are flushed as batches of the same rows, and the
rows of the ordered table are ascending by key. A type that no column can hold keeps a batch from
being made, but then there are no groups either.
-/

namespace ColumnQuery

/-- An expression refers to columns of a schema, each with the type that it has there. -/
def BoundExpr.IsBoundTo (schema : Schema) : BoundExpr → Prop
  | column index type => schema.types[index]? = some type
  | literal _ => True
  | binary _ left right => left.IsBoundTo schema ∧ right.IsBoundTo schema
  | aggregate _ operand => operand.IsBoundTo schema

/-- A type is the one of an expression, unless the expression has none. -/
def BoundExpr.MayHaveType (expr : BoundExpr) (type : DataType) : Prop :=
  ∀ own, expr.type = .ok own → own = type

/-- A bound expression that has a column has a type, which is that of the column. -/
theorem BoundExpr.type_of_evaluate {batch : Batch} {expr : BoundExpr} {column : Column}
    (bound : expr.IsBoundTo batch.schema) (evaluated : expr.evaluate batch = .ok column) :
    expr.type = .ok column.type := by
  cases expr with
  | column index declared =>
    rw [IsBoundTo, ← batch.matching.types, List.getElem?_map] at bound
    obtain ⟨found, isColumn, rfl⟩ := Option.map_eq_some_iff.mp bound
    simp only [evaluate, Batch.column?, isColumn] at evaluated
    cases evaluated
    rfl
  | literal value =>
    rw [evaluate, Column.constant] at evaluated
    split at evaluated <;> cases evaluated
    rename_i known
    simp only [BoundExpr.type, known]
  | binary op left right =>
    obtain ⟨leftColumn, -, evaluated⟩ := bind_eq_ok_iff.mp evaluated
    obtain ⟨rightColumn, -, evaluated⟩ := bind_eq_ok_iff.mp evaluated
    have made := Operator.evaluate_eq_ok_iff.mp (liftError_eq_ok_iff.mp evaluated)
    obtain ⟨-, -, -, isBoolean, -⟩ := made
    rw [isBoolean]
    rfl
  | aggregate function operand => cases evaluated

/-- A bound expression that has a column is typed. -/
theorem BoundExpr.hasType_of_evaluate {batch : Batch} {expr : BoundExpr} {column : Column}
    (bound : expr.IsBoundTo batch.schema) (evaluated : expr.evaluate batch = .ok column) :
    expr.HasType batch.schema.types column.type := by
  induction expr generalizing column with
  | column index declared =>
    cases type_of_evaluate bound evaluated
    exact .column bound
  | literal value =>
    have known := type_of_evaluate bound evaluated
    simp only [BoundExpr.type] at known
    split at known <;> cases known
    rename_i known
    obtain ⟨literal, rfl⟩ : ∃ literal : Literal, value = literal.toScalar := by
      cases value with
      | null => cases known
      | boolean b => exact ⟨.boolean b, rfl⟩
      | int32 n => exact ⟨.int32 n, rfl⟩
      | int64 n => exact ⟨.int64 n, rfl⟩
      | float64 x => exact ⟨.float64 x, rfl⟩
      | utf8 s => exact ⟨.utf8 s, rfl⟩
    rw [← Option.some.inj (literal.type?_toScalar.symm.trans known)]
    exact .literal literal
  | binary op left right leftIH rightIH =>
    obtain ⟨leftColumn, leftMade, evaluated⟩ := bind_eq_ok_iff.mp evaluated
    obtain ⟨rightColumn, rightMade, evaluated⟩ := bind_eq_ok_iff.mp evaluated
    obtain ⟨-, same, booleans, isBoolean, -⟩ :=
      Operator.evaluate_eq_ok_iff.mp (liftError_eq_ok_iff.mp evaluated)
    have leftTyped := leftIH bound.1 leftMade
    have rightTyped := rightIH bound.2 rightMade
    rw [isBoolean]
    cases logical : op.isLogical with
    | false => exact .comparison logical (same ▸ leftTyped) rightTyped
    | true =>
      rw [← same] at rightTyped
      rw [booleans logical] at leftTyped rightTyped
      exact .logical logical leftTyped rightTyped
  | aggregate function operand => cases evaluated

namespace Aggregation

/-- The group expressions of an aggregation are bound to a schema, its functions accept the types of
their operands, and its own schema has the types of both. A null among the group expressions has no
type and may have any in the schema. -/
structure IsBound (aggregation : Aggregation) (input : Schema)
    (groupTypes resultTypes : List DataType) : Prop where
  groups : List.Forall₂ (fun expr type => expr.IsBoundTo input ∧ expr.MayHaveType type)
    aggregation.groups groupTypes
  aggregates : List.Forall₂
    (fun input result => input.function.resultType? input.type = some result)
    aggregation.aggregates resultTypes
  schema : aggregation.schema.types = groupTypes ++ resultTypes

variable {aggregation : Aggregation} {groupTypes resultTypes : List DataType}
  {fresh : List Accumulator}

private theorem IsBound.groupTypes_eq_nil {input : Schema}
    (bound : aggregation.IsBound input groupTypes resultTypes)
    (ungrouped : aggregation.groups = []) : groupTypes = [] := by
  have columnless := bound.groups
  rwa [ungrouped, List.forall₂_nil_left_iff] at columnless

section Absorb

variable {batch : Batch}

private theorem types_of_evaluateAll {exprs : List BoundExpr} {types : List DataType}
    (bound : List.Forall₂ (fun expr type => expr.IsBoundTo batch.schema ∧ expr.MayHaveType type)
      exprs types) {columns : List Column} (evaluated : evaluateAll batch exprs = .ok columns) :
    columns.map (·.type) = types := by
  induction bound generalizing columns with
  | nil =>
    cases evaluated
    rfl
  | cons first _ ih =>
    obtain ⟨column, others, made, rest, rfl⟩ := mapM_cons_eq_ok_iff.mp evaluated
    rw [List.map_cons, first.2 column.type (BoundExpr.type_of_evaluate first.1 made), ih rest]

/-- The group values that a batch contributes are of the types of the group expressions, which are
then types that a column can hold. -/
theorem fits_of_contributions (bound : aggregation.IsBound batch.schema groupTypes resultTypes)
    {rows : List (Row × Row)} (contributed : aggregation.contributions batch = .ok rows) :
    (∀ row ∈ rows, RowFits groupTypes row.1) ∧ ∀ type ∈ groupTypes, type.isSupported = true := by
  obtain ⟨values, evaluated, contributed⟩ := bind_eq_ok_iff.mp contributed
  obtain ⟨operands, -, contributed⟩ := bind_eq_ok_iff.mp contributed
  cases contributed
  rw [← types_of_evaluateAll bound.groups evaluated]
  constructor
  · intro row isMember
    exact fits_of_mem_rowsOfColumns (List.of_mem_zip isMember).1
  · intro type isMember
    obtain ⟨column, -, rfl⟩ := List.mem_map.mp isMember
    exact column.supported

/-- Two tables of the same groups stay alike when rows enter both. -/
theorem absorbRows_of_agrees (created : aggregation.newAccumulators = .ok fresh)
    (yields : Accumulator.YieldEach fresh resultTypes) {rows : List (Row × Row)}
    (fits : ∀ row ∈ rows, RowFits groupTypes row.1) {left right : GroupTable}
    (agrees : left.Agrees groupTypes resultTypes right) :
    (aggregation.absorbRows rows left).1 = (aggregation.absorbRows rows right).1 ∧
      (aggregation.absorbRows rows left).2.Agrees groupTypes resultTypes
        (aggregation.absorbRows rows right).2 := by
  induction rows generalizing left right with
  | nil => exact ⟨rfl, agrees⟩
  | cons row rows ih =>
    obtain ⟨values, operands⟩ := row
    obtain ⟨same, next⟩ := agrees.update (GroupKey.isCanonical_map values)
      (fits_canonical (fits _ List.mem_cons_self)) yields operands
    rw [absorbRows, absorbRows, created]
    generalize left.update _ _ _ = leftNext at same next ⊢
    generalize right.update _ _ _ = rightNext at same next ⊢
    obtain ⟨outcome, left⟩ := leftNext
    obtain ⟨other, right⟩ := rightNext
    obtain rfl : outcome = other := same
    cases outcome with
    | error error => exact ⟨rfl, next⟩
    | ok => exact ih (fun row isMember => fits row (List.mem_cons_of_mem _ isMember)) next

theorem strategy_absorbRows (rows : List (Row × Row)) (table : GroupTable) :
    (aggregation.absorbRows rows table).2.strategy = table.strategy := by
  induction rows generalizing table with
  | nil => rfl
  | cons row rows ih =>
    rw [absorbRows]
    split
    · rename_i updated
      rw [ih]
      exact congrArg (·.2.strategy) updated.symm
    · rename_i updated
      exact congrArg (·.2.strategy) updated.symm

/-- A hash table and an ordered table hold the same groups, and none before there are columns of the
group values. -/
structure InStep (groupTypes resultTypes : List DataType) (hash ordered : GroupTable) : Prop where
  hashed : hash.strategy = .hash
  sorted : ordered.strategy = .ordered
  agrees : hash.Agrees groupTypes resultTypes ordered
  known : hash.entries ≠ [] → ∀ type ∈ groupTypes, type.isSupported = true

theorem InStep.absorb (bound : aggregation.IsBound batch.schema groupTypes resultTypes)
    (created : aggregation.newAccumulators = .ok fresh)
    (yields : Accumulator.YieldEach fresh resultTypes) {hash ordered : GroupTable}
    (inStep : InStep groupTypes resultTypes hash ordered) :
    (aggregation.absorb hash batch).1 = (aggregation.absorb ordered batch).1 ∧
      InStep groupTypes resultTypes (aggregation.absorb hash batch).2
        (aggregation.absorb ordered batch).2 := by
  rw [Aggregation.absorb, Aggregation.absorb]
  cases contributed : aggregation.contributions batch with
  | error fault => exact ⟨rfl, inStep⟩
  | ok rows =>
    obtain ⟨fits, supported⟩ := fits_of_contributions bound contributed
    obtain ⟨same, agrees⟩ := absorbRows_of_agrees created yields fits inStep.agrees
    exact ⟨congrArg liftError same, (strategy_absorbRows rows hash).trans inStep.hashed,
      (strategy_absorbRows rows ordered).trans inStep.sorted, agrees, fun _ => supported⟩

end Absorb

section Flush

variable {input : Schema} {hash ordered : GroupTable}

/-- Two batches have the same rows, the second ascending by key. -/
structure SameGroups (aggregation : Aggregation) (batch sorted : Batch) : Prop where
  schema : batch.schema = aggregation.schema
  sortedSchema : sorted.schema = aggregation.schema
  perm : batch.rows.Perm sorted.rows
  ascending : (sorted.rows.map (·.take aggregation.groups.length)).Pairwise fun left right =>
    Scalar.compareTuples left right = .lt

/-- The groups that leave two tables of the same groups are the same. -/
theorem leaving_of_inStep (bound : aggregation.IsBound input groupTypes resultTypes)
    (created : aggregation.newAccumulators = .ok fresh)
    (yields : Accumulator.YieldEach fresh resultTypes)
    (inStep : InStep groupTypes resultTypes hash ordered) (order : DrainOrder) (later : Nat) :
    ∃ leaving sorted, aggregation.leaving (hash.drain order later).1 = .ok leaving ∧
      aggregation.leaving (ordered.drain order later).1 = .ok sorted ∧ leaving.Perm sorted ∧
      GroupStrategy.ordered.Arranged (sorted.map (·.values)) ∧
      ∀ entry ∈ sorted, entry.IsOf groupTypes resultTypes := by
  have whole := (hash.drain_perm order later).trans inStep.agrees.perm
  rw [ordered.drain_of_ordered order later inStep.sorted, Aggregation.leaving, Aggregation.leaving,
    created, whole.isEmpty_eq]
  split
  · rename_i alone
    have ungrouped : aggregation.groups = [] := by simp_all
    refine ⟨_, _, rfl, rfl, .refl _, List.pairwise_singleton .., fun entry isMember => ?_⟩
    rw [List.mem_singleton.mp isMember, bound.groupTypes_eq_nil ungrouped]
    exact ⟨rfl, .nil, yields⟩
  · refine ⟨_, _, rfl, rfl, whole, inStep.sorted ▸ inStep.agrees.rightArranged, ?_⟩
    exact fun entry isMember => inStep.agrees.typed entry (inStep.agrees.perm.mem_iff.mpr isMember)

private theorem width_of_isBound (bound : aggregation.IsBound input groupTypes resultTypes) :
    aggregation.groups.length + aggregation.aggregates.length =
      aggregation.schema.types.length := by
  rw [bound.schema, List.length_append, bound.groups.length_eq, bound.aggregates.length_eq]

/-- Two tables of the same groups are flushed as batches of the same rows. -/
theorem flush_of_inStep (bound : aggregation.IsBound input groupTypes resultTypes)
    (created : aggregation.newAccumulators = .ok fresh)
    (yields : Accumulator.YieldEach fresh resultTypes)
    (supported : aggregation.schema.IsSupported)
    (inStep : InStep groupTypes resultTypes hash ordered) (order : DrainOrder) (later : Nat) :
    ∃ batch sorted, aggregation.flush order later hash = (.ok batch, .empty .hash) ∧
      aggregation.flush order later ordered = (.ok sorted, .empty .ordered) ∧
      aggregation.SameGroups batch sorted := by
  obtain ⟨leaving, sorted, left, leftSorted, same, arranged, typed⟩ :=
    leaving_of_inStep bound created yields inStep order later
  have fits (entry : GroupEntry) (isMember : entry ∈ sorted) :
      RowFits aggregation.schema.types entry.row := by
    rw [bound.schema]
    exact (typed entry isMember).fits_row
  obtain ⟨batch, made, schema, rows⟩ := batchOf_of_fits supported (width_of_isBound bound)
    fun entry isMember => fits entry (same.mem_iff.mp isMember)
  obtain ⟨sortedBatch, sortedMade, sortedSchema, sortedRows⟩ := batchOf_of_fits supported
    (width_of_isBound bound) fits
  refine ⟨batch, sortedBatch, ?_, ?_, schema, sortedSchema, ?_, ?_⟩
  · rw [flush_of_leaving order later left, made, inStep.hashed]
  · rw [flush_of_leaving order later leftSorted, sortedMade, inStep.sorted]
  · rw [rows, sortedRows]
    exact same.map _
  · have keys : sorted.map (fun entry => entry.row.take aggregation.groups.length) =
        sorted.map (·.values) := by
      refine List.map_congr_left fun entry isMember => ?_
      have length := (typed entry isMember).fits.length_eq.trans bound.groups.length_eq.symm
      rw [GroupEntry.row, ← length, List.take_left]
    rw [sortedRows, List.map_map]
    exact keys ▸ arranged

/-- Without groups, a column that cannot be held is refused. -/
theorem batchOf_nil_of_unsupported (bound : aggregation.IsBound input groupTypes resultTypes)
    (unsupported : ¬aggregation.schema.IsSupported) :
    ∃ type ∈ aggregation.schema.types, type.isSupported = false ∧
      aggregation.batchOf [] = .error (.error (.unsupportedElement type)) := by
  have columnAt_eq (index : Nat) (type : DataType)
      (found : aggregation.schema.types[index]? = some type) :
      columnAt aggregation.schema [] index = liftError (Column.ofScalars [] type) := by
    obtain ⟨field, isField, rfl⟩ := Option.map_eq_some_iff.mp (List.getElem?_map ▸ found)
    simp only [columnAt, isField, List.map_nil]
  have width := width_of_isBound bound
  rw [batchOf, width]
  cases made : (List.range aggregation.schema.types.length).mapM
      (columnAt aggregation.schema ([].map GroupEntry.row)) with
  | ok columns =>
    refine absurd (fun type isMember => ?_) unsupported
    obtain ⟨index, bounded, found⟩ := List.mem_iff_getElem.mp isMember
    obtain ⟨column, -, succeeded⟩ := exists_result_of_mapM made (List.mem_range.mpr bounded)
    rw [List.map_nil, columnAt_eq index type (found ▸ List.getElem?_eq_getElem bounded),
      liftError_eq_ok_iff] at succeeded
    exact (Column.ofScalars_eq_ok_iff.mp succeeded).1
  | error fault =>
    obtain ⟨index, isIndex, failed⟩ := exists_of_mapM_error made
    have bounded := List.mem_range.mp isIndex
    rw [List.map_nil, columnAt_eq index _ (List.getElem?_eq_getElem bounded)] at failed
    refine ⟨_, List.getElem_mem bounded, ?_⟩
    cases built : Column.ofScalars [] aggregation.schema.types[index] with
    | ok column =>
      rw [built] at failed
      cases failed
    | error error =>
      rw [built] at failed
      cases failed
      rcases Column.ofScalars_eq_error_iff.mp built with ⟨refused, rfl⟩ | ⟨-, _, misplaced, -⟩
      · exact ⟨refused, rfl⟩
      · obtain ⟨front, back, nothing, -⟩ := misplaced
        simp at nothing

/-- Before there are columns of the group values there are no groups, and no batch to hand on. -/
theorem flush_of_unsupported (bound : aggregation.IsBound input groupTypes resultTypes)
    (unsupported : ¬aggregation.schema.IsSupported)
    (inStep : InStep groupTypes resultTypes hash ordered) (order : DrainOrder) (later : Nat) :
    ∃ type ∈ aggregation.schema.types, type.isSupported = false ∧
      aggregation.flush order later hash =
        (.error (.error (.unsupportedElement type)), .empty .hash) ∧
      aggregation.flush order later ordered =
        (.error (.error (.unsupportedElement type)), .empty .ordered) := by
  have groupless : ¬∀ type ∈ groupTypes, type.isSupported = true := by
    intro supported
    refine unsupported fun type isMember => ?_
    rw [bound.schema] at isMember
    rcases List.mem_append.mp isMember with isGroup | isResult
    · exact supported type isGroup
    · obtain ⟨aggregate, -, accepted⟩ := exists_of_mem_forall₂ bound.aggregates isResult
      exact AggregateFunction.isSupported_of_resultType? accepted
  have none : hash.entries = [] := not_not.mp fun some => groupless (inStep.known some)
  have grouped : aggregation.groups.isEmpty = false := by
    cases groups : aggregation.groups with
    | nil => simp [bound.groupTypes_eq_nil groups] at groupless
    | cons => rfl
  have noneDrained : (hash.drain order later).1 = [] :=
    List.perm_nil.mp (none ▸ hash.drain_perm order later)
  have noneSorted : (ordered.drain order later).1 = [] :=
    List.perm_nil.mp ((ordered.drain_perm order later).trans (none ▸ inStep.agrees.perm.symm))
  obtain ⟨type, isMember, refused, failed⟩ := batchOf_nil_of_unsupported bound unsupported
  have flushed {table : GroupTable} (none : (table.drain order later).1 = []) :
      aggregation.flush order later table =
        (.error (.error (.unsupportedElement type)), .empty table.strategy) := by
    have left : aggregation.leaving (table.drain order later).1 = .ok [] := by
      simp [leaving, grouped, none]
    rw [flush_of_leaving order later left, failed]
  exact ⟨type, isMember, refused, inStep.hashed ▸ flushed noneDrained,
    inStep.sorted ▸ flushed noneSorted⟩

/-- The functions of a bound aggregation have accumulators, of the types of their results. -/
theorem exists_newAccumulators (bound : aggregation.IsBound input groupTypes resultTypes) :
    ∃ fresh, aggregation.newAccumulators = .ok fresh ∧
      Accumulator.YieldEach fresh resultTypes := by
  obtain ⟨-, accepted, -⟩ := bound
  rw [newAccumulators]
  generalize aggregation.aggregates = inputs at accepted
  induction accepted with
  | nil => exact ⟨[], rfl, .nil⟩
  | @cons input result _ _ accepted _ ih =>
    obtain ⟨fresh, created, yields⟩ := ih
    cases started : Accumulator.create input.function input.type with
    | error error => simp [Accumulator.create, accepted] at started
    | ok start =>
      exact ⟨start :: fresh, by rw [List.mapM_cons, started, ok_bind, created]; rfl,
        .cons (Accumulator.yields_of_create accepted started) yields⟩

theorem inStep_empty : InStep groupTypes resultTypes (.empty .hash) (.empty .ordered) where
  hashed := rfl
  sorted := rfl
  agrees := GroupTable.agrees_empty .hash .ordered
  known some := absurd rfl some

end Flush

end Aggregation

end ColumnQuery
