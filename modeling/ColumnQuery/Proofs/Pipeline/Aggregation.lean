import ColumnQuery.Pipeline.Aggregation
import ColumnQuery.Proofs.Batch.Build
import ColumnQuery.Proofs.Expr.Binding
import ColumnQuery.Proofs.Group.Table

/-! # What an aggregation computes

Absorbing batches and flushing gives one row per group: its key and the aggregates of its members,
said of all the rows that were absorbed. Absorbing fails only where the members of a group have a
sum that leaves 64 bits, and then the rows have no aggregation either.
-/

namespace ColumnQuery

/-- The values of some bound expressions on a row. -/
def BoundExpr.valuesAt (exprs : List BoundExpr) (row : Row) : Row :=
  exprs.map fun expr => expr.valueAt row

theorem BoundExpr.fits_valuesAt {types results : List DataType} {exprs : List BoundExpr}
    (typed : List.Forall₂ (HasType types) exprs results) {row : Row} (fits : RowFits types row) :
    RowFits results (valuesAt exprs row) := by
  induction typed with
  | nil => exact .nil
  | cons first _ ih => exact .cons (fits_valueAt first fits) ih

/-- Typed expressions give columns that hold their values on each row. -/
theorem evaluateAll_of_hasType {batch : Batch} {exprs : List BoundExpr} {results : List DataType}
    (typed : List.Forall₂ (BoundExpr.HasType batch.schema.types) exprs results) :
    ∃ columns, evaluateAll batch exprs = .ok columns ∧ columns.map (·.type) = results ∧
      columns.map (·.cells) = exprs.map fun expr => batch.rows.map fun row => expr.valueAt row := by
  induction typed with
  | nil => exact ⟨[], rfl, rfl, rfl⟩
  | cons first _ ih =>
    obtain ⟨column, evaluated, type, cells⟩ := BoundExpr.evaluate_of_hasType first
    obtain ⟨columns, others, types, rest⟩ := ih
    refine ⟨column :: columns, ?_, by rw [List.map_cons, type, types],
      by rw [List.map_cons, List.map_cons, cells, rest]⟩
    rw [evaluateAll] at others ⊢
    rw [List.mapM_cons, evaluated, ok_bind, others]
    rfl

private theorem rowsOfColumns_eq {batch : Batch} {exprs : List BoundExpr} {columns : List Column}
    (cells : columns.map (·.cells) =
      exprs.map fun expr => batch.rows.map fun row => expr.valueAt row) :
    rowsOfColumns batch.rowCount columns = batch.rows.map (BoundExpr.valuesAt exprs) := by
  rw [rowsOfColumns, cells, ← Batch.length_rows]
  exact rowsOf_map exprs (fun expr row => expr.valueAt row) batch.rows

/-- An aggregate over columns of some types has a result of a type. -/
def AggregateInput.HasType (types : List DataType) (input : AggregateInput) (result : DataType) :
    Prop :=
  input.operand.HasType types input.type ∧ input.function.resultType? input.type = some result

private theorem AggregateInput.operands_hasType {types results : List DataType}
    {inputs : List AggregateInput} (typed : List.Forall₂ (HasType types) inputs results) :
    List.Forall₂ (BoundExpr.HasType types) (inputs.map (·.operand)) (inputs.map (·.type)) := by
  induction typed with
  | nil => exact .nil
  | cons first _ ih => exact .cons first.1 ih

/-- The operands of an aggregate over some rows are of the type of its operand. -/
theorem AggregateInput.HasType.operandsFit {types : List DataType} {input : AggregateInput}
    {result : DataType} (typed : input.HasType types result) {rows : List Row}
    (fits : ∀ row ∈ rows, RowFits types row) :
    ∀ value ∈ rows.map fun row => input.operand.valueAt row, value.FitsIn input.type := by
  intro value isMember
  obtain ⟨row, isRow, rfl⟩ := List.mem_map.mp isMember
  exact BoundExpr.fits_valueAt typed.1 (fits row isRow)

namespace Aggregation

/-- The expressions of an aggregation, and its schema, are typed over columns of some types. -/
structure Typed (aggregation : Aggregation) (types groupTypes resultTypes : List DataType) :
    Prop where
  groups : List.Forall₂ (BoundExpr.HasType types) aggregation.groups groupTypes
  aggregates : List.Forall₂ (AggregateInput.HasType types) aggregation.aggregates resultTypes
  schema : aggregation.schema.types = groupTypes ++ resultTypes

def key (aggregation : Aggregation) (row : Row) : Row :=
  (BoundExpr.valuesAt aggregation.groups row).map Scalar.canonical

def operands (aggregation : Aggregation) (row : Row) : Row :=
  BoundExpr.valuesAt (aggregation.aggregates.map (·.operand)) row

/-- What a row contributes: its group values and its operands. -/
def contribution (aggregation : Aggregation) (row : Row) : Row × Row :=
  (BoundExpr.valuesAt aggregation.groups row, aggregation.operands row)

/-- What enters a table for some rows. -/
def entered (aggregation : Aggregation) (rows : List Row) : List (Row × Row) :=
  rows.map fun row => (aggregation.key row, aggregation.operands row)

/-- The aggregates of the members of a group. -/
def resultsOn (aggregation : Aggregation) (members : List Row) : Except Error Row :=
  aggregation.aggregates.mapM fun input =>
    input.function.valueOn input.type (members.map fun row => input.operand.valueAt row)

/-- The members of the group of a key. -/
def membersOf (aggregation : Aggregation) (rows : List Row) (key : Row) : List Row :=
  groupMembers ((rows.map aggregation.key).zip rows) key

/-- The row of the group of a key. -/
def rowOf (aggregation : Aggregation) (rows : List Row) (key : Row) : Except Error Row := do
  return key ++ (← aggregation.resultsOn (aggregation.membersOf rows key))

/-- The rows that an aggregation makes of some rows, with the groups of a single group expression in
a given order. -/
def rowsOn (aggregation : Aggregation) (arrange : List Row → List Row) (rows : List Row) :
    Except Error (List Row) :=
  (groupOrder arrange aggregation.groups.length (rows.map aggregation.key)).mapM
    (aggregation.rowOf rows)

variable {aggregation : Aggregation} {types groupTypes resultTypes : List DataType}

theorem mem_of_mem_membersOf {rows : List Row} {key row : Row}
    (isMember : row ∈ aggregation.membersOf rows key) : row ∈ rows := by
  obtain ⟨own, found, rfl⟩ := List.mem_map.mp isMember
  exact (List.of_mem_zip (List.mem_filter.mp found).1).2

theorem groupMembers_entered (rows : List Row) (key : Row) :
    groupMembers (aggregation.entered rows) key =
      (aggregation.membersOf rows key).map aggregation.operands := by
  have zipped : aggregation.entered rows =
      (rows.map aggregation.key).zip (rows.map aggregation.operands) := by
    rw [entered, List.zip_map']
  rw [zipped, groupMembers_map, membersOf]

/-- The contributions of a batch are those of its rows. -/
theorem contributions_of_typed {batch : Batch}
    (typed : aggregation.Typed batch.schema.types groupTypes resultTypes) :
    aggregation.contributions batch = .ok (batch.rows.map aggregation.contribution) := by
  have operandsTyped := AggregateInput.operands_hasType typed.aggregates
  obtain ⟨values, evaluated, -, cells⟩ := evaluateAll_of_hasType typed.groups
  obtain ⟨others, evaluatedOthers, -, otherCells⟩ := evaluateAll_of_hasType operandsTyped
  simp only [contributions, evaluated, evaluatedOthers, ok_bind, pure_eq_ok, rowsOfColumns_eq cells,
    rowsOfColumns_eq otherCells, List.zip_map']
  rfl

section Folding

variable {types results : List DataType} {inputs : List AggregateInput} {fresh : List Accumulator}
  {rows : List Row}

theorem create_of_hasType (typed : List.Forall₂ (AggregateInput.HasType types) inputs results) :
    ∃ fresh, inputs.mapM (fun input => Accumulator.create input.function input.type) =
      .ok fresh := by
  induction typed with
  | nil => exact ⟨[], rfl⟩
  | @cons input result _ _ first _ ih =>
    obtain ⟨fresh, created⟩ := ih
    obtain ⟨start, starts⟩ : ∃ start, Accumulator.create input.function input.type = .ok start := by
      simp only [Accumulator.create, first.2, Except.ok.injEq, exists_eq']
    exact ⟨start :: fresh, by rw [List.mapM_cons, starts, ok_bind, created]; rfl⟩

/-- Folding some rows ends with accumulators that hold the aggregates of these rows, if the rows
have them. -/
theorem foldRows_eq_ok_iff (typed : List.Forall₂ (AggregateInput.HasType types) inputs results)
    (created : inputs.mapM (fun input => Accumulator.create input.function input.type) = .ok fresh)
    (fits : ∀ row ∈ rows, RowFits types row) {values : Row} :
    (∃ accumulators, Accumulator.foldRows fresh
        (rows.map (BoundExpr.valuesAt (inputs.map (·.operand)))) = .ok accumulators ∧
        accumulators.map Accumulator.result = values) ↔
      inputs.mapM (fun input =>
        input.function.valueOn input.type (rows.map fun row => input.operand.valueAt row)) =
          .ok values := by
  induction typed generalizing fresh values with
  | nil =>
    cases created
    simp [Accumulator.foldRows_nil, eq_comm]
  | @cons input result _ _ first _ ih =>
    obtain ⟨start, others, starts, rest, rfl⟩ := mapM_cons_eq_ok_iff.mp created
    have head := AggregateFunction.result_of_absorb first.2 starts (first.operandsFit fits)
    rw [mapM_cons_eq_ok_iff, ← head]
    constructor
    · rintro ⟨accumulators, folded, rfl⟩
      obtain ⟨own, more, rfl, absorbed, foldedMore⟩ := Accumulator.foldRows_columns.mp folded
      exact ⟨own.result, more.map Accumulator.result, by rw [absorbed]; rfl,
        (ih rest).mp ⟨more, foldedMore, rfl⟩, rfl⟩
    · rintro ⟨value, values, success, successes, rfl⟩
      obtain ⟨own, absorbed, rfl⟩ := map_eq_ok_iff.mp success
      obtain ⟨more, folded, rfl⟩ := (ih rest).mpr successes
      exact ⟨own :: more, Accumulator.foldRows_columns.mpr ⟨own, more, rfl, absorbed, folded⟩, rfl⟩

/-- Rows are refused only for a sum. -/
theorem foldRows_error (typed : List.Forall₂ (AggregateInput.HasType types) inputs results)
    (created : inputs.mapM (fun input => Accumulator.create input.function input.type) = .ok fresh)
    (fits : ∀ row ∈ rows, RowFits types row) {error : Error}
    (failed : Accumulator.foldRows fresh
      (rows.map (BoundExpr.valuesAt (inputs.map (·.operand)))) = .error error) :
    error = .sumOverflow := by
  induction typed generalizing fresh with
  | nil =>
    cases created
    cases (Accumulator.foldRows_nil _).symm.trans failed
  | @cons input result _ _ first _ ih =>
    obtain ⟨start, others, starts, rest, rfl⟩ := mapM_cons_eq_ok_iff.mp created
    rcases Accumulator.foldRows_columns_error failed with refused | refused
    · have head := AggregateFunction.result_of_absorb first.2 starts (first.operandsFit fits)
      rw [refused] at head
      exact AggregateFunction.eq_sumOverflow_of_valueOn head.symm
    · exact ih rest refused

end Folding

end Aggregation

end ColumnQuery
