import ColumnQuery.Proofs.Pipeline.Nodes
import ColumnQuery.Proofs.Plan.Validation

/-! # What compiling keeps

A plan that produces rows of a schema compiles to typed nodes, and by position these nodes make the
rows that the plan means by name.
-/

namespace ColumnQuery

section Binding

variable {schema : Schema}

/-- An expression that is evaluated by row binds to one with the same values, which its field
allows. -/
theorem Expr.bind_of_isRowwise {expr : Expr} {field : Field} (rowwise : Plan.IsRowwise schema expr)
    (named : expr.toField schema = .ok field) :
    ∃ bound, expr.bind schema = .ok bound ∧ bound.Fills schema field ∧
      ∀ place row, expr.evaluateOn place schema row = .ok (bound.valueAt row) := by
  obtain ⟨free, type, typed⟩ := rowwise
  obtain ⟨bound, binds, boundTyped, values⟩ := bind_of_hasType typed free
  obtain ⟨own, ownNamed, ownType⟩ := toField_of_hasType typed
  obtain rfl : own = field := Except.ok.inj (ownNamed.symm.trans named)
  refine ⟨bound, binds, ⟨ownType ▸ boundTyped, fun row allows isNull => ?_⟩, fun place row => ?_⟩
  · cases expr with
    | column name =>
      cases typed with
      | @column _ field found =>
        obtain ⟨ordinal, position, isField⟩ := Schema.ordinalOf?_of_field? found
        simp only [toField, found, Except.ok.injEq] at named
        subst named
        rw [values, valueOn, Schema.cellOf, position] at isNull
        exact (allows.getD isField).nullable isNull
    | literal | binary =>
      cases named
      rfl
    | aggregate => cases free
  · rw [evaluateOn_of_hasType typed free, values]

theorem bind_each_of_isRowwise {exprs : List Expr} {fields : List Field}
    (rowwise : ∀ expr ∈ exprs, Plan.IsRowwise schema expr)
    (named : exprs.map (Expr.toField schema) = fields.map .ok) :
    ∃ bound, exprs.mapM (Expr.bind schema) = .ok bound ∧
      List.Forall₂ (BoundExpr.Fills schema) bound fields ∧
      ∀ place row, exprs.mapM (Expr.evaluateOn place schema row) =
        .ok (BoundExpr.valuesAt bound row) := by
  induction exprs generalizing fields with
  | nil =>
    obtain rfl := List.map_eq_nil_iff.mp named.symm
    exact ⟨[], rfl, .nil, fun _ _ => rfl⟩
  | cons expr exprs ih =>
    cases fields with
    | nil => cases named
    | cons field fields =>
      obtain ⟨first, rest⟩ := List.cons.inj named
      obtain ⟨bound, binds, fills, values⟩ :=
        Expr.bind_of_isRowwise (rowwise expr List.mem_cons_self) first
      obtain ⟨others, otherBinds, otherFills, otherValues⟩ :=
        ih (fun other isMember => rowwise other (List.mem_cons_of_mem _ isMember)) rest
      refine ⟨bound :: others, mapM_cons_eq_ok_iff.mpr ⟨_, _, binds, otherBinds, rfl⟩,
        .cons fills otherFills, fun place row => ?_⟩
      exact mapM_cons_eq_ok_iff.mpr ⟨_, _, values place row, otherValues place row, rfl⟩

/-- An aggregate binds to one with the same value on every group. -/
theorem Expr.bindAggregate_of_isAggregation {expr : Expr} {field : Field}
    (isAggregation : Plan.IsAggregation schema expr) (named : expr.toField schema = .ok field) :
    ∃ input, expr.bindAggregate schema = .ok input ∧ input.Fills schema field ∧
      ∀ rows, expr.valueOnGroup schema rows =
        input.function.valueOn input.type (rows.map fun row => input.operand.valueAt row) := by
  obtain ⟨function, operand, result, rfl, free, typed⟩ := isAggregation
  cases typed with
  | @aggregate _ _ type _ operandTyped accepted =>
    have operandType := type_of_hasType operandTyped
    obtain ⟨bound, binds, boundTyped, values⟩ := bind_of_hasType operandTyped free
    have resultType : (aggregate function operand).type schema = .ok result :=
      type_of_hasType (.aggregate operandTyped accepted)
    simp only [toField, resultType, ok_bind, pure_eq_ok, Except.ok.injEq] at named
    subst named
    refine ⟨⟨function, bound, type⟩, ?_, ⟨⟨boundTyped, accepted⟩, rfl⟩, fun rows => ?_⟩
    · simp only [bindAggregate, binds, operandType, ok_bind, pure_eq_ok]
    · have operands : rows.mapM (fun row => operand.evaluateOn .aggregateOperand schema row) =
          .ok (rows.map fun row => bound.valueAt row) := by
        rw [← mapM_ok]
        apply mapM_congr
        intro row _
        rw [evaluateOn_of_hasType operandTyped free, values]
      have takes : function.resultType type = .ok result := by
        simp only [AggregateFunction.resultType, accepted]
      simp only [valueOnGroup, operandType, ok_bind, discard_bind, takes, operands]

theorem bindAggregate_each {aggregates : List Expr} {fields : List Field}
    (aggregations : ∀ expr ∈ aggregates, Plan.IsAggregation schema expr)
    (named : aggregates.map (Expr.toField schema) = fields.map .ok) :
    ∃ inputs, aggregates.mapM (Expr.bindAggregate schema) = .ok inputs ∧
      List.Forall₂ (AggregateInput.Fills schema) inputs fields ∧
      ∀ rows, aggregates.mapM (Expr.valueOnGroup schema rows) = inputs.mapM fun input =>
        input.function.valueOn input.type (rows.map fun row => input.operand.valueAt row) := by
  induction aggregates generalizing fields with
  | nil =>
    obtain rfl := List.map_eq_nil_iff.mp named.symm
    exact ⟨[], rfl, .nil, fun _ => rfl⟩
  | cons expr exprs ih =>
    cases fields with
    | nil => cases named
    | cons field fields =>
      obtain ⟨first, rest⟩ := List.cons.inj named
      obtain ⟨input, binds, fills, values⟩ :=
        Expr.bindAggregate_of_isAggregation (aggregations expr List.mem_cons_self) first
      obtain ⟨others, otherBinds, otherFills, otherValues⟩ :=
        ih (fun other isMember => aggregations other (List.mem_cons_of_mem _ isMember)) rest
      refine ⟨input :: others, mapM_cons_eq_ok_iff.mpr ⟨_, _, binds, otherBinds, rfl⟩,
        .cons fills otherFills, fun rows => ?_⟩
      rw [List.mapM_cons, List.mapM_cons, values, otherValues]

end Binding

/-- The fields of a list of expressions are those of its front and those of its back. -/
theorem toField_append {schema : Schema} {front back : List Expr} {fields : List Field}
    (named : (front ++ back).map (Expr.toField schema) = fields.map .ok) :
    ∃ frontFields backFields : List Field, fields = frontFields ++ backFields ∧
      front.map (Expr.toField schema) = frontFields.map .ok ∧
      back.map (Expr.toField schema) = backFields.map .ok := by
  rw [List.map_append] at named
  obtain ⟨frontFields, backFields, rfl, frontNamed, backNamed⟩ :=
    List.map_eq_append_iff.mp named.symm
  exact ⟨frontFields, backFields, rfl, frontNamed.symm, backNamed.symm⟩

namespace Plan

/-- The nodes of a plan that produces rows are typed, and make these rows by position. -/
theorem boundNodes_of_derives {plan : Plan} {schema : Schema} (derives : Derives plan schema) :
    ∃ nodes read, plan.boundNodes = .ok nodes ∧ plan.table.schema = .ok read ∧
      NodesTyped read nodes schema ∧
      nodes.length = plan.depth ∧ ∀ arrangement contents,
        plan.rows arrangement contents =
          rowsThrough arrangement nodes (plan.table.rows contents) := by
  have produced := schema_of_derives derives
  induction derives with
  | @whole table | @narrowed table =>
    have read : table.schema = .ok _ := produced
    refine ⟨[], _, ?_, produced, .nil, rfl, fun arrangement contents => ?_⟩
    · rw [boundNodes, discard_bind, read]
      rfl
    · rw [Plan.rows, discard_bind, read]
      rfl
  | @project below schema exprs fields derives nonempty rowwise named ih =>
    have received := schema_of_derives derives
    obtain ⟨nodes, read, bound, table, typed, length, meaning⟩ := ih received
    obtain ⟨own, binds, filled, values⟩ := bind_each_of_isRowwise rowwise named
    refine ⟨nodes ++ [.project own ⟨fields⟩], read, ?_, table, typed.snoc (.project filled),
      by simp [length, depth], fun arrangement contents => ?_⟩
    · simp only [boundNodes, bound, produced, received, binds, ok_bind, pure_eq_ok]
    · simp only [Plan.rows, received, ok_bind, meaning, rowsThrough_snoc, values]
      exact congrArg _ (funext fun rows => mapM_ok _ rows)
  | @filter below schema predicate derives rowwise boolean ih =>
    have received := schema_of_derives derives
    obtain ⟨nodes, read, bound, table, typed, length, meaning⟩ := ih received
    obtain ⟨own, binds, boundTyped, values⟩ := Expr.bind_of_hasType boolean rowwise
    refine ⟨nodes ++ [.filter own schema], read, ?_, table, typed.snoc (.filter boundTyped),
      by simp [length, depth], fun arrangement contents => ?_⟩
    · simp only [boundNodes, bound, received, ok_bind, pure_eq_ok, Expr.bindPredicate, binds,
        BoundExpr.type_of_hasType boundTyped, if_true]
    · simp only [Plan.rows, received, ok_bind, meaning, rowsThrough_snoc,
        Expr.truthOn_of_hasType boolean rowwise, ← values, mapM_ok, pure_eq_ok, keep_map_self]
      rfl
  | @aggregate below schema groups aggregates fields derives nonempty rowwise isAggregation named
      ih =>
    have received := schema_of_derives derives
    obtain ⟨nodes, read, bound, table, typed, length, meaning⟩ := ih received
    obtain ⟨groupFields, resultFields, rfl, groupsNamed, resultsNamed⟩ := toField_append named
    obtain ⟨own, binds, filled, values⟩ := bind_each_of_isRowwise rowwise groupsNamed
    obtain ⟨inputs, inputBinds, inputsFilled, results⟩ :=
      bindAggregate_each isAggregation resultsNamed
    let aggregation : Aggregation := ⟨own, inputs, ⟨groupFields ++ resultFields⟩⟩
    refine ⟨nodes ++ [.aggregate aggregation], read, ?_, table,
      typed.snoc (.aggregate filled inputsFilled), by simp [length, depth],
      fun arrangement contents => ?_⟩
    · simp only [boundNodes, bound, produced, received, binds, inputBinds, ok_bind, pure_eq_ok,
        aggregation]
    · have keys : groupKeyOn schema groups = fun row => .ok (aggregation.key row) :=
        funext fun row => mapM_change Scalar.canonical (values .groupBy row)
      have count : groups.length = own.length := (length_of_mapM binds).symm
      simp only [Plan.rows, received, ok_bind, meaning, rowsThrough_snoc, keys, mapM_ok, results,
        count, length]
      rfl

/-- A leaf reads columns of supported types from a source of supported types. -/
theorem isSupported_of_read {table : TableInput} {schema : Schema}
    (read : table.schema = .ok schema) (supported : table.source.IsSupported) :
    schema.IsSupported := by
  cases derives_of_read read with
  | whole => exact supported
  | @narrowed _ names fields _ found =>
    intro type isMember
    obtain ⟨field, isField, rfl⟩ := List.mem_map.mp isMember
    have isFound : some field ∈ fields.map some := List.mem_map_of_mem isField
    rw [← found] at isFound
    obtain ⟨name, -, same⟩ := List.mem_map.mp isFound
    exact supported _ (List.mem_map_of_mem (List.mem_of_find?_eq_some same))

/-- There is no output node below the root of an accepted plan. -/
theorem hasOutput_of_derives {plan : Plan} {schema : Schema} (derives : Derives plan schema) :
    plan.hasOutput = false := by
  induction derives with
  | whole | narrowed => rfl
  | project _ _ _ _ ih | filter _ _ _ ih | aggregate _ _ _ _ _ ih => exact ih

end Plan

/-- The standard builders with a choice of strategies. -/
def StrategyRegistry.choosing (select : Aggregation → GroupStrategy) : StrategyRegistry :=
  { standard with select }

/-- The stage of a node before it has received anything, with a choice of strategies. -/
def BoundNode.stageBy (select : Aggregation → GroupStrategy) : BoundNode → Stage
  | project exprs schema => .project exprs schema
  | filter predicate schema => .filter predicate schema
  | aggregate aggregation => .aggregate aggregation (.empty (select aggregation))

theorem BoundNode.stageBy_byArity : stageBy StrategyRegistry.byArity = freshStage := by
  funext node
  cases node <;> rfl

/-- The stages of some nodes are built if each of them is. -/
theorem linkStages_of_each {registry : StrategyRegistry} {build : BoundNode → Stage}
    {nodes : List BoundNode} (built : ∀ node ∈ nodes, node.toStage registry = .ok (build node)) :
    linkStages registry nodes = .ok (nodes.map build) := by
  induction nodes with
  | nil => rfl
  | cons node nodes ih =>
    rw [List.forall_mem_cons] at built
    rw [linkStages, ih built.2, ok_bind, built.1]
    rfl

/-- The standard builders make a stage for every typed node, whatever the choice of strategies. -/
theorem linkStages_of_typed (select : Aggregation → GroupStrategy) {input output : Schema}
    {nodes : List BoundNode} (typed : NodesTyped input nodes output) :
    linkStages (.choosing select) nodes = .ok (nodes.map (BoundNode.stageBy select)) := by
  apply linkStages_of_each
  induction typed with
  | nil => nofun
  | cons first _ ih =>
    refine List.forall_mem_cons.mpr ⟨?_, ih⟩
    cases first with
    | project | filter => rfl
    | aggregate groupsFilled aggregatesFilled =>
      obtain ⟨fresh, created⟩ := Aggregation.create_of_hasType
        (Aggregation.typed_of_fills groupsFilled aggregatesFilled).aggregates
      exact Aggregation.build_of_newAccumulators created _

/-- A plan that produces rows compiles with any choice of strategies, to a scan of one chain. -/
theorem Plan.compile_of_boundNodes (select : Aggregation → GroupStrategy) {below : Plan}
    {schema read : Schema} {nodes : List BoundNode} (derives : Derives below schema)
    (bound : below.boundNodes = .ok nodes) (table : below.table.schema = .ok read)
    (typed : NodesTyped read nodes schema) :
    (output below).compile (.choosing select) =
      .ok ⟨below.table.path, below.table.projection, read,
        [⟨nodes.map (BoundNode.stageBy select), schema⟩]⟩ := by
  simp only [compile, hasOutput_of_derives derives, bound, table, schema_of_derives derives,
    linkStages_of_typed select typed, ok_bind, pure_eq_ok, Bool.false_eq_true, if_false]

/-- An accepted plan compiles to a scan of one chain of typed nodes, which by position make the rows
that the plan means. -/
theorem Plan.compile_of_derives {below : Plan} {schema : Schema} (derives : Derives below schema) :
    ∃ nodes read, below.table.schema = .ok read ∧ NodesTyped read nodes schema ∧
      (output below).compile .standard = .ok ⟨below.table.path, below.table.projection, read,
        [⟨nodes.map BoundNode.freshStage, schema⟩]⟩ ∧
      ∀ arrangement contents, below.rows arrangement contents =
        rowsThrough arrangement nodes (below.table.rows contents) := by
  obtain ⟨nodes, read, bound, table, typed, -, meaning⟩ := boundNodes_of_derives derives
  have compiled := compile_of_boundNodes StrategyRegistry.byArity derives bound table typed
  rw [BoundNode.stageBy_byArity] at compiled
  exact ⟨nodes, read, table, typed, compiled, meaning⟩

end ColumnQuery
