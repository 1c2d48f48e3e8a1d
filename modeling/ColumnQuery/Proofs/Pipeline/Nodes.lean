import ColumnQuery.Pipeline.Compile
import ColumnQuery.Proofs.Batch.Required
import ColumnQuery.Proofs.Pipeline.Absorption

/-! # Typed nodes

A bound node takes rows of one schema to rows of another. This says which rows it makes of some
rows, by position, and that its stage does the same with the batches that it receives.
-/

namespace ColumnQuery

/-- A bound expression over the rows of a schema has values that a field allows. -/
structure BoundExpr.Fills (input : Schema) (expr : BoundExpr) (field : Field) : Prop where
  typed : expr.HasType input.types field.type
  nullable : ∀ row, input.Allows row → expr.valueAt row = .null → field.nullable = true

theorem BoundExpr.Fills.allows {input : Schema} {expr : BoundExpr} {field : Field}
    (fills : expr.Fills input field) {row : Row} (allows : input.Allows row) :
    field.Allows (expr.valueAt row) :=
  ⟨fits_valueAt fills.typed allows.fits, fills.nullable row allows⟩

/-- An aggregate over the rows of a schema fills a field that may hold nulls. -/
structure AggregateInput.Fills (input : Schema) (aggregate : AggregateInput) (field : Field) :
    Prop where
  typed : aggregate.HasType input.types field.type
  nullable : field.nullable = true

namespace BoundNode

/-- A node takes rows of one schema to rows of another. -/
inductive Typed (input : Schema) : BoundNode → Schema → Prop where
  | project {exprs : List BoundExpr} {fields : List Field}
      (filled : List.Forall₂ (BoundExpr.Fills input) exprs fields) :
      Typed input (project exprs ⟨fields⟩) ⟨fields⟩
  | filter {predicate : BoundExpr} (boolean : predicate.HasType input.types .boolean) :
      Typed input (filter predicate input) input
  | aggregate {groups : List BoundExpr} {aggregates : List AggregateInput}
      {groupFields resultFields : List Field}
      (groupsFilled : List.Forall₂ (BoundExpr.Fills input) groups groupFields)
      (aggregatesFilled : List.Forall₂ (AggregateInput.Fills input) aggregates resultFields) :
      Typed input (aggregate ⟨groups, aggregates, ⟨groupFields ++ resultFields⟩⟩)
        ⟨groupFields ++ resultFields⟩

/-- The rows that a node makes of some rows, with the groups of a single group expression in a given
order. -/
def rowsOn (arrange : List Row → List Row) : BoundNode → List Row → Except Error (List Row)
  | project exprs _, rows => .ok (rows.map (BoundExpr.valuesAt exprs))
  | filter predicate _, rows =>
    .ok (rows.filter fun row => Column.truthOf (predicate.valueAt row) == some true)
  | aggregate aggregation, rows => aggregation.rowsOn arrange rows

/-- The stage of a node before it has received anything. -/
def freshStage : BoundNode → Stage
  | project exprs schema => .project exprs schema
  | filter predicate schema => .filter predicate schema
  | aggregate aggregation =>
    .aggregate aggregation (.empty (StrategyRegistry.byArity aggregation))

end BoundNode

/-- The nodes of a chain take rows of one schema to rows of another. -/
inductive NodesTyped : Schema → List BoundNode → Schema → Prop where
  | nil {schema : Schema} : NodesTyped schema [] schema
  | cons {input middle output : Schema} {node : BoundNode} {rest : List BoundNode}
      (first : node.Typed input middle) (later : NodesTyped middle rest output) :
      NodesTyped input (node :: rest) output

theorem NodesTyped.snoc {input middle output : Schema} {nodes : List BoundNode} {node : BoundNode}
    (typed : NodesTyped input nodes middle) (last : node.Typed middle output) :
    NodesTyped input (nodes ++ [node]) output := by
  induction typed with
  | nil => exact .cons last .nil
  | cons first _ ih => exact .cons first (ih last)

namespace GroupArrangement

/-- The orders that are left to the nodes after the first. -/
def above (arrangement : GroupArrangement) : GroupArrangement :=
  ⟨fun depth => arrangement.arrange (depth + 1), fun depth => arrangement.isPerm (depth + 1)⟩

/-- An order for the first node, and the orders that are left to the others. -/
def under (arrange : List Row → List Row) (isPerm : ∀ keys, (arrange keys).Perm keys)
    (above : GroupArrangement) : GroupArrangement where
  arrange
    | 0 => arrange
    | depth + 1 => above.arrange depth
  isPerm
    | 0 => isPerm
    | depth + 1 => above.isPerm depth

end GroupArrangement

/-- The rows that the nodes of a chain make of some rows. -/
def rowsThrough (arrangement : GroupArrangement) :
    List BoundNode → List Row → Except Error (List Row)
  | [], rows => .ok rows
  | node :: nodes, rows => do
    rowsThrough arrangement.above nodes (← node.rowsOn (arrangement.arrange 0) rows)

theorem rowsThrough_snoc (arrangement : GroupArrangement) (nodes : List BoundNode)
    (node : BoundNode) (rows : List Row) :
    rowsThrough arrangement (nodes ++ [node]) rows =
      (rowsThrough arrangement nodes rows >>= node.rowsOn (arrangement.arrange nodes.length)) := by
  induction nodes generalizing arrangement rows with
  | nil => exact bind_pure _
  | cons first nodes ih =>
    simp only [List.cons_append, rowsThrough, ih, bind_assoc]
    rfl

/-- The only reason for nodes to make no rows is a sum. -/
theorem eq_sumOverflow_of_rowsThrough {arrangement : GroupArrangement} {nodes : List BoundNode}
    {rows : List Row} {error : Error} (failed : rowsThrough arrangement nodes rows = .error error) :
    error = .sumOverflow := by
  induction nodes generalizing arrangement rows with
  | nil => cases failed
  | cons node nodes ih =>
    rcases bind_eq_error_iff.mp failed with first | ⟨made, -, later⟩
    · cases node with
      | project | filter => cases first
      | aggregate => exact Aggregation.eq_sumOverflow_of_rowsOn first
    · exact ih later

section Types

theorem BoundExpr.HasType.isSupported {types : List DataType} {expr : BoundExpr} {type : DataType}
    (typed : expr.HasType types type) (supported : ∀ type ∈ types, type.isSupported = true) :
    type.isSupported = true := by
  cases typed with
  | column found => exact supported _ (List.mem_of_getElem? found)
  | literal value => cases value <;> rfl
  | comparison | logical => rfl

theorem AggregateFunction.isSupported_of_resultType? {function : AggregateFunction}
    {type result : DataType} (accepted : function.resultType? type = some result) :
    result.isSupported = true := by
  cases function with
  | count =>
    cases accepted
    rfl
  | sum => cases type <;> cases accepted <;> rfl
  | avg =>
    simp only [AggregateFunction.resultType?] at accepted
    split at accepted <;> cases accepted
    rfl
  | min | max =>
    simp only [AggregateFunction.resultType?] at accepted
    split at accepted <;> cases accepted
    assumption

theorem hasType_of_fills {input : Schema} {exprs : List BoundExpr} {fields : List Field}
    (filled : List.Forall₂ (BoundExpr.Fills input) exprs fields) :
    List.Forall₂ (BoundExpr.HasType input.types) exprs (fields.map (·.type)) :=
  List.forall₂_map_right_iff.mpr (filled.imp fun _ _ fills => fills.typed)

/-- A typed aggregation node is typed by its columns. -/
theorem Aggregation.typed_of_fills {input : Schema} {groups : List BoundExpr}
    {aggregates : List AggregateInput} {groupFields resultFields : List Field}
    (groupsFilled : List.Forall₂ (BoundExpr.Fills input) groups groupFields)
    (aggregatesFilled : List.Forall₂ (AggregateInput.Fills input) aggregates resultFields) :
    Aggregation.Typed ⟨groups, aggregates, ⟨groupFields ++ resultFields⟩⟩ input.types
      (groupFields.map (·.type)) (resultFields.map (·.type)) where
  groups := hasType_of_fills groupsFilled
  aggregates := List.forall₂_map_right_iff.mpr (aggregatesFilled.imp fun _ _ fills => fills.typed)
  schema := List.map_append

theorem Aggregation.build_of_newAccumulators {aggregation : Aggregation}
    {fresh : List Accumulator} (created : aggregation.newAccumulators = .ok fresh)
    (strategy : GroupStrategy) :
    strategy.build aggregation = .ok (.aggregate aggregation (.empty strategy)) := by
  rw [GroupStrategy.build, discard_bind, created]
  rfl

private theorem isSupported_of_fills {input : Schema} (supported : input.IsSupported)
    {exprs : List BoundExpr} {fields : List Field}
    (filled : List.Forall₂ (BoundExpr.Fills input) exprs fields) :
    Schema.IsSupported ⟨fields⟩ := by
  induction filled with
  | nil => exact fun _ isMember => (List.not_mem_nil isMember).elim
  | cons first _ ih => exact List.forall_mem_cons.mpr ⟨first.typed.isSupported supported, ih⟩

/-- The columns that a node makes of columns of supported types are of supported types. -/
theorem BoundNode.Typed.isSupported {input output : Schema} {node : BoundNode}
    (typed : node.Typed input output) (supported : input.IsSupported) : output.IsSupported := by
  cases typed with
  | project filled => exact isSupported_of_fills supported filled
  | filter => exact supported
  | aggregate groupsFilled aggregatesFilled =>
    intro type isMember
    rw [Schema.types, List.map_append, List.mem_append] at isMember
    rcases isMember with isGroup | isResult
    · exact isSupported_of_fills supported groupsFilled type isGroup
    · clear groupsFilled
      induction aggregatesFilled with
      | nil => cases isResult
      | cons first _ ih =>
        rcases List.mem_cons.mp isResult with rfl | later
        · exact AggregateFunction.isSupported_of_resultType? first.typed.2
        · exact ih later

end Types

section Batches

/-- A projection makes a batch of the projected rows. -/
theorem Stage.projected_of_typed {batch : Batch} {exprs : List BoundExpr} {schema : Schema}
    (typed : List.Forall₂ (BoundExpr.HasType batch.schema.types) exprs schema.types) :
    ∃ next, projected exprs schema batch = .ok next ∧ next.schema = schema ∧
      next.rows = batch.rows.map (BoundExpr.valuesAt exprs) := by
  obtain ⟨columns, evaluated, types, cells⟩ := evaluateAll_of_hasType typed
  obtain ⟨next, built, sameSchema, rows⟩ := Batch.exists_build types cells
  rw [Batch.length_rows] at built
  refine ⟨next, ?_, sameSchema, rows⟩
  simp only [projected, evaluated, ok_bind, built, liftError_ok]

/-- A filter makes a batch of the rows on which its predicate is true. -/
theorem Stage.filtered_of_typed {batch : Batch} {predicate : BoundExpr}
    (boolean : predicate.HasType batch.schema.types .boolean) :
    ∃ next, filtered predicate batch = .ok next ∧ next.schema = batch.schema ∧
      next.rows = batch.rows.filter fun row =>
        Column.truthOf (predicate.valueAt row) == some true := by
  obtain ⟨truths, evaluated, type, cells⟩ := BoundExpr.evaluate_of_hasType boolean
  have mask : truths.asBoolean =
      .ok (batch.rows.map fun row => Column.truthOf (predicate.valueAt row)) := by
    rw [Column.asBoolean, if_pos type, cells, List.map_map]
    rfl
  have sameLength : (batch.rows.map fun row => Column.truthOf (predicate.valueAt row)).length =
      batch.rowCount := by
    rw [List.length_map, Batch.length_rows]
  refine ⟨batch.keepRows _ sameLength, ?_, rfl, ?_⟩
  · simp only [filtered, evaluated, ok_bind, mask, liftError_ok, Batch.shrink, dif_pos sameLength]
  · rw [Batch.rows_keepRows, keep_map_self]

/-- A stage changes the rows of each batch by itself and keeps nothing. -/
structure Stage.Passes (stage : Stage) (types middle : List DataType)
    (change : List Row → List Row) : Prop where
  receives : ∀ batch : Batch, batch.schema.types = types →
    ∃ next, stage.receive batch = (.ok (some next), stage) ∧ next.schema.types = middle ∧
      next.rows = change batch.rows
  closes : ∀ order later, stage.close order later = (.ok none, stage)
  whole : ∀ batches : List Batch,
    batches.flatMap (fun batch => change batch.rows) = change (batches.flatMap Batch.rows)

private theorem BoundNode.passes_of_project {input : Schema} {exprs : List BoundExpr}
    {fields : List Field} (filled : List.Forall₂ (BoundExpr.Fills input) exprs fields) :
    (project exprs ⟨fields⟩).freshStage.Passes input.types (Schema.types ⟨fields⟩)
      (List.map (BoundExpr.valuesAt exprs)) where
  receives batch sameTypes := by
    have exprsTyped : List.Forall₂ (BoundExpr.HasType batch.schema.types) exprs
        (Schema.types ⟨fields⟩) := by
      rw [sameTypes]
      exact hasType_of_fills filled
    obtain ⟨next, made, schema, rows⟩ := Stage.projected_of_typed exprsTyped
    exact ⟨next, by rw [freshStage, Stage.receive, made]; rfl, by rw [schema], rows⟩
  closes _ _ := rfl
  whole _ := List.map_flatMap.symm

theorem BoundNode.passes_of_filter {input : Schema} {predicate : BoundExpr}
    (boolean : predicate.HasType input.types .boolean) :
    (filter predicate input).freshStage.Passes input.types input.types
      (List.filter fun row => Column.truthOf (predicate.valueAt row) == some true) where
  receives batch sameTypes := by
    rw [← sameTypes] at boolean
    obtain ⟨next, made, schema, rows⟩ := Stage.filtered_of_typed boolean
    exact ⟨next, by rw [freshStage, Stage.receive, made]; rfl, by rw [schema, sameTypes], rows⟩
  closes _ _ := rfl
  whole _ := List.filter_flatMap.symm

/-- A typed node changes each batch by itself, or it is an aggregation. -/
theorem BoundNode.Typed.passes_or_aggregates {input output : Schema} {node : BoundNode}
    (typed : node.Typed input output) :
    (∃ change, node.freshStage.Passes input.types output.types change ∧
        ∀ arrange rows, node.rowsOn arrange rows = .ok (change rows)) ∨
      ∃ aggregation groupTypes resultTypes, node = .aggregate aggregation ∧
        output = aggregation.schema ∧ aggregation.Typed input.types groupTypes resultTypes := by
  cases typed with
  | project filled => exact .inl ⟨_, passes_of_project filled, fun _ _ => rfl⟩
  | filter boolean => exact .inl ⟨_, passes_of_filter boolean, fun _ _ => rfl⟩
  | aggregate groupsFilled aggregatesFilled =>
    exact .inr ⟨_, _, _, rfl, rfl, Aggregation.typed_of_fills groupsFilled aggregatesFilled⟩

end Batches

end ColumnQuery
