import ColumnQuery.Proofs.Optimizer.Pushdown
import ColumnQuery.Proofs.Plan.Validation

/-! # Pushdown keeps plans well formed

A node whose expressions are well typed over a schema is well typed over every schema that has the
same fields under the names it uses, and narrowing the leaf keeps these fields.
-/

namespace ColumnQuery

section Agreement

variable {schema other : Schema}

theorem Expr.hasType_congr {expr : Expr} {type : DataType} (typed : expr.HasType schema type)
    (fields : schema.AgreesOn expr.columns other) : expr.HasType other type := by
  induction typed with
  | column found =>
    rw [← fields _ List.mem_cons_self] at found
    exact .column found
  | literal value => exact .literal value
  | comparison comparing _ _ leftIH rightIH =>
    exact .comparison comparing (leftIH (fields.of_subset (List.subset_append_left ..)))
      (rightIH (fields.of_subset (List.subset_append_right ..)))
  | logical logical _ _ leftIH rightIH =>
    exact .logical logical (leftIH (fields.of_subset (List.subset_append_left ..)))
      (rightIH (fields.of_subset (List.subset_append_right ..)))
  | aggregate _ accepted ih => exact .aggregate (ih fields) accepted

variable {exprs : List Expr}

private theorem Plan.isRowwise_congr (fields : schema.AgreesOn (exprs.flatMap Expr.columns) other)
    (rowwise : ∀ expr ∈ exprs, IsRowwise schema expr) : ∀ expr ∈ exprs, IsRowwise other expr := by
  intro expr isMember
  obtain ⟨free, type, typed⟩ := rowwise expr isMember
  exact ⟨free, type, Expr.hasType_congr typed (fields.of_subset (columns_subset isMember))⟩

private theorem Plan.isAggregation_congr
    (fields : schema.AgreesOn (exprs.flatMap Expr.columns) other)
    (aggregations : ∀ expr ∈ exprs, IsAggregation schema expr) :
    ∀ expr ∈ exprs, IsAggregation other expr := by
  intro expr isMember
  obtain ⟨function, operand, type, same, free, typed⟩ := aggregations expr isMember
  exact ⟨function, operand, type, same, free,
    Expr.hasType_congr typed (fields.of_subset (columns_subset isMember))⟩

private theorem map_toField_congr (fields : schema.AgreesOn (exprs.flatMap Expr.columns) other) :
    exprs.map (Expr.toField other) = exprs.map (Expr.toField schema) :=
  List.map_congr_left fun _ isMember =>
    Expr.toField_congr (fields.of_subset (columns_subset isMember))

end Agreement

namespace Plan

/-- A plan that reads a table with the same fields under the names that it uses produces rows as
well, and of the same schema if it computes columns of its own. -/
theorem derives_withTable {names : List String} {plan : Plan} {schema : Schema} {other : TableInput}
    {tableSchema otherSchema : Schema} (derives : Derives plan schema)
    (agrees : plan.table.AgreesOn names other tableSchema otherSchema)
    (named : plan.columnNames ⊆ names) :
    ∃ narrowed, Derives (plan.withTable other) narrowed ∧ schema.AgreesOn names narrowed ∧
      (plan.definesColumns = true → narrowed = schema) := by
  have produced := schema_of_derives derives
  induction derives with
  | whole | narrowed =>
    obtain rfl := Except.ok.inj (produced.symm.trans agrees.read)
    exact ⟨otherSchema, derives_of_read agrees.otherRead, agrees.fields, nofun⟩
  | @project below schema exprs fields derives nonempty rowwise own ih =>
    obtain ⟨here, deeper⟩ := List.append_subset.mp named
    obtain ⟨middle, middleDerives, same, -⟩ := ih agrees deeper (schema_of_derives derives)
    have used := same.of_subset here
    refine ⟨⟨fields⟩, .project middleDerives nonempty (isRowwise_congr used rowwise) ?_,
      fun _ _ => rfl, fun _ => rfl⟩
    rw [map_toField_congr used, own]
  | @filter below schema predicate derives rowwise boolean ih =>
    obtain ⟨here, deeper⟩ := List.append_subset.mp named
    obtain ⟨middle, middleDerives, same, kept⟩ := ih agrees deeper (schema_of_derives derives)
    exact ⟨middle, .filter middleDerives rowwise
      (Expr.hasType_congr boolean (same.of_subset here)), same, kept⟩
  | @aggregate below schema groups aggregates fields derives nonempty rowwise aggregations own ih =>
    obtain ⟨here, deeper⟩ := List.append_subset.mp named
    obtain ⟨middle, middleDerives, same, -⟩ := ih agrees deeper (schema_of_derives derives)
    have used := same.of_subset here
    have usedApart := used
    rw [List.flatMap_append] at usedApart
    refine ⟨⟨fields⟩, .aggregate middleDerives nonempty
      (isRowwise_congr (usedApart.of_subset (List.subset_append_left ..)) rowwise)
      (isAggregation_congr (usedApart.of_subset (List.subset_append_right ..)) aggregations) ?_,
      fun _ _ => rfl, fun _ => rfl⟩
    rw [map_toField_congr used, own]

theorem withTable_source {plan : Plan} (other : TableInput) :
    (plan.withTable other).table = other := by
  induction plan with
  | input table => rfl
  | project below exprs ih | filter below predicate ih | aggregate below groups aggregates ih
  | output below ih => exact ih

private theorem exists_read_of_derives {plan : Plan} {schema : Schema}
    (derives : Derives plan schema) : ∃ read, plan.table.schema = .ok read := by
  induction derives with
  | @whole table all => exact ⟨table.source, by simp only [Plan.table, TableInput.schema, all]⟩
  | narrowed chosen found =>
    exact ⟨_, (TableInput.schema_eq_ok_iff chosen).mpr found⟩
  | project _ _ _ _ ih | filter _ _ _ ih | aggregate _ _ _ _ _ ih => exact ih

private theorem source_of_narrow {names : List String} {table narrowed : TableInput}
    (success : table.narrow names = .ok narrowed) : narrowed.source = table.source := by
  unfold TableInput.narrow at success
  split at success
  · cases success
    rfl
  · obtain ⟨schema, -, success⟩ := bind_eq_ok_iff.mp success
    cases success
    split <;> rfl

/-- Pushdown accepts every accepted plan and gives one that reads the same table and produces rows
of the same schema. -/
theorem derives_pushdown {below : Plan} {schema : Schema} (derives : Derives below schema) :
    ∃ narrowed, (output below).pushdown = .ok (output narrowed) ∧ Derives narrowed schema ∧
      narrowed.table.source = below.table.source := by
  unfold pushdown
  split
  · rename_i defines
    obtain ⟨read, table⟩ := exists_read_of_derives derives
    obtain ⟨other, success⟩ :
        ∃ other, below.table.narrow (output below).columnNames.eraseDups = .ok other := by
      unfold TableInput.narrow
      rw [table]
      split <;> exact ⟨_, rfl⟩
    have pushed : (output below).mapTable
        (TableInput.narrow (output below).columnNames.eraseDups) =
          .ok (output (below.withTable other)) := by
      rw [mapTable_eq, Plan.table, success]
      rfl
    refine ⟨below.withTable other, pushed, ?_, ?_⟩
    · rcases TableInput.agreesOn_of_narrow success with rfl | ⟨tableSchema, otherSchema, agrees⟩
      · rwa [withTable_table]
      · -- the plan computes its own columns, so its schema does not change with the leaf
        have named : below.columnNames ⊆ (output below).columnNames.eraseDups :=
          fun name isMember => List.mem_eraseDups.mpr isMember
        obtain ⟨narrowed, narrowedDerives, -, same⟩ := derives_withTable derives agrees named
        rwa [same defines] at narrowedDerives
    · rw [withTable_source, source_of_narrow success]
  · exact ⟨below, rfl, derives, rfl⟩

end Plan

end ColumnQuery
