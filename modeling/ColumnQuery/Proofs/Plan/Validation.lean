import ColumnQuery.Plan.Validation
import ColumnQuery.Proofs.Expr.Checking

/-! # What validation accepts

A plan below the root is accepted exactly when it produces rows of some schema, and this schema is
the one that the plan computes for itself.
-/

namespace ColumnQuery.Plan

private theorem refuseAggregate_eq_ok_iff {place : ExprPlace} {expr : Expr} :
    expr.refuseAggregate place = .ok () ↔ expr.containsAggregate = false := by
  unfold Expr.refuseAggregate
  split <;> simp_all

private theorem validateInput_eq_ok_iff {table : TableInput} :
    validateInput table = .ok () ↔ ∃ schema, table.schema = .ok schema := by
  unfold validateInput TableInput.schema
  cases table.projection with
  | none => exact ⟨fun _ => ⟨table.source, rfl⟩, fun _ => rfl⟩
  | some names =>
    dsimp only
    constructor
    · intro success
      split at success
      · cases success
      · rename_i missing
        obtain ⟨fields, found⟩ := exists_map_some fun name isMember => by
          have present := List.find?_eq_none.mp missing name isMember
          rw [Option.isNone_iff_eq_none] at present
          exact Option.isSome_iff_ne_none.mpr present
        exact ⟨⟨fields⟩, Schema.select_eq_ok_iff.mpr found⟩
    · rintro ⟨schema, selected⟩
      have found := isSome_of_map_some (Schema.select_eq_ok_iff.mp selected)
      have missing : (names.find? fun name => (table.source.field? name).isNone) = none :=
        List.find?_eq_none.mpr fun name isMember => by
          rw [Option.isNone_iff_eq_none]
          exact Option.isSome_iff_ne_none.mp (found name isMember)
      rw [missing]

private theorem validateRowwise_eq_ok_iff {place : ExprPlace} {schema : Schema} {expr : Expr}
    {type : DataType} :
    validateRowwise place schema expr = .ok type ↔
      expr.containsAggregate = false ∧ expr.HasType schema type := by
  rw [validateRowwise, check_bind_eq_ok_iff, refuseAggregate_eq_ok_iff, Expr.check_eq_ok_iff]

private theorem isRowwise_iff {place : ExprPlace} {schema : Schema} {expr : Expr} :
    discard (validateRowwise place schema expr) = .ok () ↔ IsRowwise schema expr := by
  simp only [discard_eq_ok_iff, validateRowwise_eq_ok_iff, IsRowwise, exists_and_left]

private theorem validateAggregation_eq_ok_iff {schema : Schema} {expr : Expr} :
    validateAggregation schema expr = .ok () ↔ IsAggregation schema expr := by
  cases expr with
  | aggregate function operand =>
    rw [validateAggregation, check_bind_eq_ok_iff, refuseAggregate_eq_ok_iff]
    simp only [discard_eq_ok_iff, Expr.check_eq_ok_iff]
    constructor
    · rintro ⟨rowwise, type, typed⟩
      exact ⟨function, operand, type, rfl, rowwise, typed⟩
    · rintro ⟨_, _, type, same, rowwise, typed⟩
      cases same
      exact ⟨rowwise, type, typed⟩
  | column | literal | binary =>
    constructor
    · exact nofun
    · rintro ⟨_, _, _, same, -⟩
      cases same

private theorem validatePredicate_eq_ok_iff {schema : Schema} {predicate : Expr} :
    validatePredicate schema predicate = .ok () ↔ predicate.HasType schema .boolean := by
  rw [validatePredicate, bind_eq_ok_iff]
  simp only [Expr.check_eq_ok_iff]
  constructor
  · rintro ⟨type, typed, success⟩
    split at success
    · exact ‹type = .boolean› ▸ typed
    · cases success
  · exact fun typed => ⟨.boolean, typed, rfl⟩

section Fields

variable {schema : Schema}

theorem fieldsOf_eq_ok_iff {exprs : List Expr} {fields : List Field} :
    fieldsOf schema exprs = .ok ⟨fields⟩ ↔ exprs.map (Expr.toField schema) = fields.map .ok := by
  rw [fieldsOf, bind_eq_ok_iff, ← mapM_eq_ok_iff]
  simp

theorem exists_fields {exprs : List Expr}
    (typed : ∀ expr ∈ exprs, ∃ type, expr.HasType schema type) :
    ∃ fields : List Field, exprs.map (Expr.toField schema) = fields.map .ok := by
  obtain ⟨fields, each⟩ := exists_forall₂ fun expr isMember => by
    obtain ⟨type, typed⟩ := typed expr isMember
    obtain ⟨field, success, -⟩ := Expr.toField_of_hasType typed
    exact ⟨field, success⟩
  exact ⟨fields, map_eq_map_of_forall₂ each⟩

end Fields

/-- A plan produces rows of the schema that it computes. -/
theorem schema_of_derives {plan : Plan} {schema : Schema} (derives : Derives plan schema) :
    plan.schema = .ok schema := by
  induction derives with
  | whole all => simp only [Plan.schema, TableInput.schema, all]
  | narrowed chosen found =>
    simp only [Plan.schema, TableInput.schema, chosen]
    exact Schema.select_eq_ok_iff.mpr found
  | project _ _ _ named ih =>
    rw [Plan.schema, ih]
    exact fieldsOf_eq_ok_iff.mpr named
  | filter _ _ _ ih => exact ih
  | aggregate _ _ _ _ named ih =>
    rw [Plan.schema, ih]
    exact fieldsOf_eq_ok_iff.mpr named

theorem derives_of_read {table : TableInput} {schema : Schema} (read : table.schema = .ok schema) :
    Derives (input table) schema := by
  unfold TableInput.schema at read
  cases projection : table.projection with
  | none =>
    rw [projection] at read
    cases read
    exact .whole projection
  | some names =>
    rw [projection] at read
    exact .narrowed projection (Schema.select_eq_ok_iff.mp read)

private theorem validateFrom_project {below : Plan} {schema : Schema} {exprs : List Expr}
    {isRoot : Bool} (read : below.schema = .ok schema) :
    (project below exprs).validateFrom isRoot = .ok () ↔
      below.validateFrom false = .ok () ∧ exprs ≠ [] ∧ ∀ expr ∈ exprs, IsRowwise schema expr := by
  rw [validateFrom, check_bind_eq_ok_iff]
  apply and_congr_right
  intro _
  cases exprs with
  | nil => simp
  | cons expr exprs =>
    simp only [List.isEmpty_cons, Bool.false_eq_true, if_false, read, ok_bind, forM_eq_ok_iff,
      isRowwise_iff, ne_eq, reduceCtorEq, not_false_eq_true, true_and]

private theorem validateFrom_filter {below : Plan} {schema : Schema} {predicate : Expr}
    {isRoot : Bool} (read : below.schema = .ok schema) :
    (filter below predicate).validateFrom isRoot = .ok () ↔
      below.validateFrom false = .ok () ∧ predicate.containsAggregate = false ∧
        predicate.HasType schema .boolean := by
  rw [validateFrom, check_bind_eq_ok_iff, check_bind_eq_ok_iff, refuseAggregate_eq_ok_iff, read,
    ok_bind, validatePredicate_eq_ok_iff]

private theorem validateFrom_aggregate {below : Plan} {schema : Schema}
    {groups aggregates : List Expr} {isRoot : Bool} (read : below.schema = .ok schema) :
    (aggregate below groups aggregates).validateFrom isRoot = .ok () ↔
      below.validateFrom false = .ok () ∧ (groups ≠ [] ∨ aggregates ≠ []) ∧
        (∀ expr ∈ groups, IsRowwise schema expr) ∧
        ∀ expr ∈ aggregates, IsAggregation schema expr := by
  rw [validateFrom, check_bind_eq_ok_iff]
  apply and_congr_right
  intro _
  have entries : (do
      groups.forM fun expr => discard (validateRowwise .groupBy schema expr)
      aggregates.forM (validateAggregation schema)) = .ok () ↔
      (∀ expr ∈ groups, IsRowwise schema expr) ∧
        ∀ expr ∈ aggregates, IsAggregation schema expr := by
    rw [check_bind_eq_ok_iff, forM_eq_ok_iff, forM_eq_ok_iff]
    simp only [isRowwise_iff, validateAggregation_eq_ok_iff]
  cases groups <;> cases aggregates <;> simp_all

/-- Below the root, exactly the plans that produce rows of some schema are accepted. -/
theorem validateFrom_eq_ok_iff {plan : Plan} :
    plan.validateFrom false = .ok () ↔ ∃ schema, Derives plan schema := by
  induction plan with
  | input table =>
    rw [validateFrom, validateInput_eq_ok_iff]
    constructor
    · rintro ⟨schema, read⟩
      exact ⟨schema, derives_of_read read⟩
    · rintro ⟨schema, derives⟩
      exact ⟨schema, schema_of_derives derives⟩
  | project below exprs ih =>
    constructor
    · intro accepted
      obtain ⟨schema, derives⟩ := ih.mp (check_bind_eq_ok_iff.mp accepted).1
      obtain ⟨-, nonempty, rowwise⟩ :=
        (validateFrom_project (schema_of_derives derives)).mp accepted
      obtain ⟨fields, named⟩ := exists_fields fun expr isMember => (rowwise expr isMember).2
      exact ⟨⟨fields⟩, .project derives nonempty rowwise named⟩
    · rintro ⟨_, derives⟩
      cases derives with
      | project derives nonempty rowwise =>
        exact (validateFrom_project (schema_of_derives derives)).mpr
          ⟨ih.mpr ⟨_, derives⟩, nonempty, rowwise⟩
  | filter below predicate ih =>
    constructor
    · intro accepted
      obtain ⟨schema, derives⟩ := ih.mp (check_bind_eq_ok_iff.mp accepted).1
      obtain ⟨-, rowwise, boolean⟩ :=
        (validateFrom_filter (schema_of_derives derives)).mp accepted
      exact ⟨schema, .filter derives rowwise boolean⟩
    · rintro ⟨schema, derives⟩
      cases derives with
      | filter derives rowwise boolean =>
        exact (validateFrom_filter (schema_of_derives derives)).mpr
          ⟨ih.mpr ⟨schema, derives⟩, rowwise, boolean⟩
  | aggregate below groups aggregates ih =>
    constructor
    · intro accepted
      obtain ⟨schema, derives⟩ := ih.mp (check_bind_eq_ok_iff.mp accepted).1
      obtain ⟨-, nonempty, rowwise, aggregations⟩ :=
        (validateFrom_aggregate (schema_of_derives derives)).mp accepted
      have typed : ∀ expr ∈ groups ++ aggregates, ∃ type, expr.HasType schema type := by
        intro expr isMember
        rcases List.mem_append.mp isMember with isGroup | isAggregate
        · exact (rowwise expr isGroup).2
        · obtain ⟨_, _, type, -, -, typed⟩ := aggregations expr isAggregate
          exact ⟨type, typed⟩
      obtain ⟨fields, named⟩ := exists_fields typed
      exact ⟨⟨fields⟩, .aggregate derives nonempty rowwise aggregations named⟩
    · rintro ⟨_, derives⟩
      cases derives with
      | aggregate derives nonempty rowwise aggregations =>
        exact (validateFrom_aggregate (schema_of_derives derives)).mpr
          ⟨ih.mpr ⟨_, derives⟩, nonempty, rowwise, aggregations⟩
  | output below ih =>
    constructor
    · intro accepted
      cases (check_bind_eq_ok_iff.mp accepted).2
    · rintro ⟨_, derives⟩
      cases derives

/-- A plan with an output at its root is accepted exactly when the plan below produces rows. -/
theorem validate_output {below : Plan} :
    (output below).validate = .ok () ↔ ∃ schema, Derives below schema := by
  rw [validate, validateFrom, check_bind_eq_ok_iff, validateFrom_eq_ok_iff]
  simp

end ColumnQuery.Plan
