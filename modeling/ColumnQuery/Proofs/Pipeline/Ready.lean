import ColumnQuery.Proofs.Pipeline.Nodes

/-! # Stages that cannot go wrong

A stage is ready for batches of a schema when its expressions are typed over this schema and its
table holds groups of rows that the schema allows. A ready stage that receives a batch of the schema
stays ready, and what it hands on is a batch of its own schema without a null in a required column.
The only failure is an integer sum that leaves 64 bits.
-/

namespace ColumnQuery

/-- A batch of exactly a schema, which allows all its rows. -/
structure Batch.IsOf (batch : Batch) (schema : Schema) : Prop where
  same : batch.schema = schema
  allowed : ∀ row ∈ batch.rows, schema.Allows row

/-- The fields of some expressions allow their values. -/
theorem allows_valuesAt {input : Schema} {exprs : List BoundExpr} {fields : List Field}
    (filled : List.Forall₂ (BoundExpr.Fills input) exprs fields) {row : Row}
    (allows : input.Allows row) : Schema.Allows ⟨fields⟩ (BoundExpr.valuesAt exprs row) := by
  induction filled with
  | nil => exact .nil
  | cons first _ ih => exact .cons (first.allows allows) ih

theorem Field.Allows.canonical {field : Field} {cell : Scalar} (allows : field.Allows cell) :
    field.Allows cell.canonical := by
  cases cell with
  | float64 x => exact ⟨.inr (allows.fits.resolve_left nofun), nofun⟩
  | _ => exact allows

theorem Schema.Allows.canonical {fields : List Field} {row : Row}
    (allows : Schema.Allows ⟨fields⟩ row) :
    Schema.Allows ⟨fields⟩ (row.map Scalar.canonical) :=
  List.forall₂_map_right_iff.mpr (List.Forall₂.imp (fun _ _ allowed => allowed.canonical) allows)

/-- Fields that may all hold nulls allow every row of their types. -/
theorem allows_of_fits {fields : List Field} (nullable : ∀ field ∈ fields, field.nullable = true)
    {row : Row} (fits : RowFits (fields.map (·.type)) row) : Schema.Allows ⟨fields⟩ row := by
  induction fields generalizing row with
  | nil =>
    cases fits
    exact .nil
  | cons field fields ih =>
    cases fits with
    | cons first rest =>
      exact .cons ⟨first, fun _ => nullable field List.mem_cons_self⟩
        (ih (fun other isMember => nullable other (List.mem_cons_of_mem _ isMember)) rest)

namespace Aggregation

/-- A group has a row that the schema of the aggregation allows. -/
theorem Makes.allows {input schema : Schema} {groups : List BoundExpr}
    {aggregates : List AggregateInput} {groupFields resultFields : List Field}
    (groupsFilled : List.Forall₂ (BoundExpr.Fills input) groups groupFields)
    (aggregatesFilled : List.Forall₂ (AggregateInput.Fills input) aggregates resultFields)
    {strategy : GroupStrategy} {rows made : List Row} (allowed : ∀ row ∈ rows, input.Allows row)
    (makes : (Aggregation.mk groups aggregates schema).Makes strategy rows made) :
    ∀ row ∈ made, Schema.Allows ⟨groupFields ++ resultFields⟩ row := by
  obtain ⟨keys, perm, -, each⟩ := makes
  intro row isMember
  obtain ⟨key, isKey, made⟩ := exists_of_mem_mapM each isMember
  obtain ⟨results, aggregated, same⟩ := bind_eq_ok_iff.mp made
  obtain rfl : key ++ results = row := Except.ok.inj same
  have keyAllowed : Schema.Allows ⟨groupFields⟩ key := by
    rcases GroupStrategy.mem_of_mem_groupKeys (perm.mem_iff.mp isKey) with
      ⟨ungrouped, rfl⟩ | isKey
    · have columnless : groups = [] := List.length_eq_zero_iff.mp ungrouped
      rw [columnless, List.forall₂_nil_left_iff] at groupsFilled
      rw [groupsFilled]
      exact .nil
    · obtain ⟨row, isRow, rfl⟩ := List.mem_map.mp isKey
      exact (allows_valuesAt groupsFilled (allowed row isRow)).canonical
  have resultsFit := fits_resultsOn (List.forall₂_map_right_iff.mpr
    (aggregatesFilled.imp fun _ _ fills => fills.typed))
    (fun row isMember => (allowed row (mem_of_mem_membersOf isMember)).fits) aggregated
  have nullable : ∀ field ∈ resultFields, field.nullable = true := by
    intro field isField
    obtain ⟨_, -, fills⟩ := exists_of_mem_forall₂ aggregatesFilled isField
    exact fills.nullable
  exact List.rel_append keyAllowed (allows_of_fits nullable resultsFit)

end Aggregation

/-- A stage that runs a node and has so far received only rows that a schema allows. -/
inductive BoundNode.RunsAs (input : Schema) : BoundNode → Stage → Prop where
  | project {exprs : List BoundExpr} {schema : Schema} :
      RunsAs input (.project exprs schema) (.project exprs schema)
  | filter {predicate : BoundExpr} {schema : Schema} :
      RunsAs input (.filter predicate schema) (.filter predicate schema)
  | aggregate {aggregation : Aggregation} {table : GroupTable} {fresh : List Accumulator}
      {before : List Row} (created : aggregation.newAccumulators = .ok fresh)
      (allowed : ∀ row ∈ before, input.Allows row)
      (represents : table.Represents fresh (aggregation.entered before)) :
      RunsAs input (.aggregate aggregation) (.aggregate aggregation table)

/-- A stage that takes batches of one schema and hands on batches of another. -/
def Stage.Ready (input : Schema) (stage : Stage) (output : Schema) : Prop :=
  ∃ node : BoundNode, node.Typed input output ∧ node.RunsAs input stage

/-- A result with a property, or the failure of an integer sum that leaves 64 bits. -/
def GivesOrOverflows {α : Type} (P : α → Prop) : Except Fault α → Prop
  | .ok value => P value
  | .error fault => fault = .error .sumOverflow

theorem GivesOrOverflows.ok_or {P : Unit → Prop} {result : Except Fault Unit}
    (given : GivesOrOverflows P result) :
    result = .ok () ∨ result = .error (.error .sumOverflow) := by
  cases result with
  | ok => exact .inl rfl
  | error fault => exact .inr (congrArg Except.error given)

section Stages

variable {input output : Schema} {node : BoundNode} {stage : Stage}

/-- The stage of a typed node is ready before it has received anything. -/
theorem BoundNode.Typed.ready (typed : node.Typed input output) :
    node.freshStage.Ready input output := by
  refine ⟨node, typed, ?_⟩
  cases typed with
  | project => exact .project
  | filter => exact .filter
  | aggregate groupsFilled aggregatesFilled =>
    obtain ⟨fresh, created⟩ := Aggregation.create_of_hasType
      (Aggregation.typed_of_fills groupsFilled aggregatesFilled).aggregates
    have noRows : ∀ row ∈ ([] : List Row), input.Allows row := nofun
    exact .aggregate created noRows (GroupTable.represents_empty _ fresh)

namespace Stage

theorem Ready.schema_eq (ready : stage.Ready input output) : stage.schema = output := by
  obtain ⟨node, typed, runs⟩ := ready
  cases typed <;> cases runs <;> rfl

private theorem projected_isOf {exprs : List BoundExpr} {fields : List Field}
    (filled : List.Forall₂ (BoundExpr.Fills input) exprs fields) {batch : Batch}
    (received : batch.IsOf input) :
    ∃ next, projected exprs ⟨fields⟩ batch = .ok next ∧ next.IsOf ⟨fields⟩ := by
  obtain ⟨rfl, allowed⟩ := received
  have typed : List.Forall₂ (BoundExpr.HasType batch.schema.types) exprs
      (Schema.types ⟨fields⟩) := hasType_of_fills filled
  obtain ⟨next, made, schema, rows⟩ := projected_of_typed typed
  refine ⟨next, made, schema, ?_⟩
  intro row isRow
  rw [rows] at isRow
  obtain ⟨whole, isWhole, rfl⟩ := List.mem_map.mp isRow
  exact allows_valuesAt filled (allowed whole isWhole)

private theorem filtered_isOf {predicate : BoundExpr}
    (boolean : predicate.HasType input.types .boolean) {batch : Batch}
    (received : batch.IsOf input) :
    ∃ next, filtered predicate batch = .ok next ∧ next.IsOf input := by
  obtain ⟨rfl, allowed⟩ := received
  obtain ⟨next, made, schema, rows⟩ := filtered_of_typed boolean
  refine ⟨next, made, schema, ?_⟩
  intro row isRow
  rw [rows] at isRow
  exact allowed row (List.mem_of_mem_filter isRow)

/-- A ready stage that receives a batch stays ready and hands on at most a batch of its schema, or
an integer sum leaves 64 bits. -/
theorem receive_of_ready (ready : stage.Ready input output) {batch : Batch}
    (received : batch.IsOf input) :
    GivesOrOverflows (fun answer => (∀ next ∈ answer, next.IsOf output) ∧
      (stage.receive batch).2.Ready input output) (stage.receive batch).1 := by
  have handsOn {next : Batch} (nextIsOf : next.IsOf output) :
      ∀ other ∈ some next, other.IsOf output := by
    rintro other ⟨⟩
    exact nextIsOf
  obtain ⟨node, typed, runs⟩ := ready
  cases typed with
  | @project exprs fields filled =>
    cases runs
    obtain ⟨next, made, nextIsOf⟩ := projected_isOf filled received
    simp only [receive, made]
    exact ⟨handsOn nextIsOf, .project exprs ⟨fields⟩, .project filled, .project⟩
  | @filter predicate boolean =>
    cases runs
    obtain ⟨next, made, nextIsOf⟩ := filtered_isOf boolean received
    simp only [receive, made]
    exact ⟨handsOn nextIsOf, .filter predicate input, .filter boolean, .filter⟩
  | aggregate groupsFilled aggregatesFilled =>
    cases runs with
    | aggregate created earlier represents =>
      obtain ⟨rfl, allowed⟩ := received
      have fits := fun row isMember => (earlier row isMember).fits
      rcases Aggregation.absorb_of_represents
        (Aggregation.typed_of_fills groupsFilled aggregatesFilled) created fits represents with
        ⟨next, absorbed, nextRepresents⟩ | ⟨next, absorbed, -⟩
      · simp only [receive, absorbed]
        refine ⟨fun next isNone => absurd isNone (Option.not_mem_none next), _,
          .aggregate groupsFilled aggregatesFilled,
          .aggregate created (fun row isMember => ?_) nextRepresents⟩
        rcases List.mem_append.mp isMember with early | late
        · exact earlier row early
        · exact allowed row late
      · simp only [receive, absorbed]
        rfl

/-- A ready stage closes, and hands on at most a batch of its schema. -/
theorem close_of_ready (ready : stage.Ready input output) (supported : input.IsSupported)
    (order : DrainOrder) (later : Nat) :
    ∃ answer after, stage.close order later = (.ok answer, after) ∧
      ∀ next ∈ answer, next.IsOf output := by
  obtain ⟨node, typed, runs⟩ := ready
  have outputSupported := typed.isSupported supported
  cases typed with
  | project | filter =>
    cases runs
    exact ⟨none, _, rfl, nofun⟩
  | aggregate groupsFilled aggregatesFilled =>
    cases runs with
    | aggregate created earlier represents =>
      obtain ⟨next, flushed, schema, makes⟩ := Aggregation.exists_flush
        (Aggregation.typed_of_fills groupsFilled aggregatesFilled) outputSupported created
        (fun row isMember => (earlier row isMember).fits) represents order later
      refine ⟨some next, _, by rw [close, flushed]; rfl, ?_⟩
      intro other isAnswer
      obtain rfl := Option.some.inj isAnswer
      exact ⟨schema, makes.allows groupsFilled aggregatesFilled earlier⟩

end Stage

end Stages

end ColumnQuery
