import ColumnQuery.Proofs.Expr.Compilation
import ColumnQuery.Proofs.Pipeline.Interchange
import ColumnQuery.Proofs.Plan.Compilation
import ColumnQuery.Proofs.Plan.Exactness

/-! # Compiled chains are wired like their plans

Whether a plan was validated or not, what it compiles to has one operator for each node, in the
order of the data and with the schema of the node, and every operator refers to the columns of the
operator before it. A plan compiles unless there is an obstacle, and each obstacle is one that can
be read off a node and the schema of the rows that the node receives.
-/

namespace ColumnQuery

def Stage.exprs : Stage → List BoundExpr
  | project exprs _ => exprs
  | filter predicate _ => [predicate]
  | aggregate aggregation _ => aggregation.groups ++ aggregation.aggregates.map (·.operand)

/-- An aggregate function over an operand of a type that it accepts. -/
def Expr.IsFoldable (schema : Schema) (entry : Expr) : Prop :=
  ∃ function operand type result, entry = .aggregate function operand ∧
    operand.type schema = .ok type ∧ function.resultType? type = some result

namespace Plan

def exprs : Plan → List Expr
  | input _ | output _ => []
  | project _ exprs => exprs
  | filter _ predicate => [predicate]
  | aggregate _ groups aggregates => groups ++ aggregates

/-- A node is fed with rows of a schema by the node below. -/
def Receives (node : Plan) (received : Schema) : Prop :=
  ∃ below, node.below? = some below ∧ below.schema = .ok received

/-- The kind of the operator that runs a node. -/
def operatorName : Plan → String
  | input _ => "Scan"
  | project _ _ => "Projection"
  | filter _ _ => "Selection"
  | aggregate _ groups _ => if 1 < groups.length then "OrderedAggregate" else "HashAggregate"
  | output _ => "Output"

/-- A stage evaluates the expressions of a node, bound to the schema of the rows that it receives,
and holds no groups yet. -/
inductive RunBy (received : Schema) : Plan → Stage → Prop where
  | project {below : Plan} {exprs : List Expr} {own : List BoundExpr} {schema : Schema}
      (binds : exprs.mapM (Expr.bind received) = .ok own) :
      RunBy received (project below exprs) (.project own schema)
  | filter {below : Plan} {predicate : Expr} {own : BoundExpr} {schema : Schema}
      (binds : predicate.bind received = .ok own) (boolean : own.type = .ok .boolean) :
      RunBy received (filter below predicate) (.filter own schema)
  | aggregate {below : Plan} {groups aggregates : List Expr} {own : List BoundExpr}
      {inputs : List AggregateInput} {schema : Schema}
      (groupsBind : groups.mapM (Expr.bind received) = .ok own)
      (aggregatesBind : aggregates.mapM (Expr.bindAggregate received) = .ok inputs) :
      RunBy received (aggregate below groups aggregates) (.aggregate ⟨own, inputs, schema⟩
        (.empty (if 1 < own.length then .ordered else .hash)))

/-- The operators of a scan with one chain are those of a plan, from the leaf to the root. -/
structure IsWired (plan : Plan) (scan : Scan) (chain : Chain) : Prop where
  alone : scan.children = [chain]
  leaf : scan.path = plan.table.path ∧ scan.projection = plan.table.projection
  kinds : scan.nodes.map (·.1) = plan.nodes.reverse.map operatorName
  schemas : scan.nodes.map (fun operator => .ok operator.2) = plan.nodes.reverse.map schema
  stages : ∀ index stage, chain.stages[index]? = some stage →
    ∃ upstream node, scan.nodes[index]? = some upstream ∧
      plan.nodes.reverse[index + 1]? = some node ∧ node.RunBy upstream.2 stage ∧
      ∀ expr ∈ stage.exprs, expr.IsBoundTo upstream.2

/-- Why a node of a plan is not compiled. -/
inductive IsHindered (node : Plan) : Prop where
  | underived {error : Error} (failed : node.schema = .error error)
  | unresolved {received : Schema} {expr : Expr} {name : String} (receives : node.Receives received)
      (isExpr : expr ∈ node.exprs) (isName : name ∈ expr.columns) (missing : name ∉ received.names)
  | untyped {below : Plan} {predicate : Expr} {received : Schema} {error : Error}
      (isFilter : node = filter below predicate) (receives : node.Receives received)
      (failed : predicate.type received = .error error)
  | notBoolean {below : Plan} {predicate : Expr} {received : Schema} {type : DataType}
      (isFilter : node = filter below predicate) (receives : node.Receives received)
      (typed : predicate.type received = .ok type) (other : type ≠ .boolean)
  | unfoldable {below : Plan} {groups aggregates : List Expr} {received : Schema} {entry : Expr}
      (isAggregate : node = aggregate below groups aggregates) (receives : node.Receives received)
      (isEntry : entry ∈ aggregates) (refused : ¬entry.IsFoldable received)

/-- Why a plan is not compiled. -/
inductive HasObstacle (plan : Plan) : Prop where
  | rootNotOutput (other : plan.isOutput = false)
  | nestedOutput {node : Plan} (isInner : node ∈ plan.nodes.tail) (isOutput : node.isOutput = true)
  | hindered {node : Plan} (isNode : node ∈ plan.nodes) (hindered : node.IsHindered)

end Plan

section Expressions

variable {received : Schema}

/-- Binding gives every column its position and its type. -/
theorem Expr.isBoundTo_of_bind {expr : Expr} {bound : BoundExpr}
    (binds : expr.bind received = .ok bound) : bound.IsBoundTo received := by
  induction expr generalizing bound with
  | column name =>
    obtain ⟨index, field, -, -, isField, rfl⟩ := bind_column_eq_ok_iff.mp binds
    rw [BoundExpr.IsBoundTo, Schema.types, List.getElem?_map, isField]
    rfl
  | literal value =>
    cases binds
    trivial
  | binary op left right leftIH rightIH =>
    obtain ⟨leftBound, rightBound, leftBinds, rightBinds, rfl⟩ := bind_binary_eq_ok_iff.mp binds
    exact ⟨leftIH leftBinds, rightIH rightBinds⟩
  | aggregate function operand ih =>
    obtain ⟨inner, innerBinds, same⟩ := bind_eq_ok_iff.mp binds
    cases same
    rw [BoundExpr.IsBoundTo]
    exact ih innerBinds

theorem Expr.bindAggregate_eq_ok_iff {entry : Expr} {input : AggregateInput} :
    entry.bindAggregate received = .ok input ↔
      ∃ operand, entry = .aggregate input.function operand ∧
        operand.bind received = .ok input.operand ∧ operand.type received = .ok input.type := by
  constructor
  · intro binds
    cases entry with
    | aggregate function operand =>
      obtain ⟨bound, operandBinds, binds⟩ := bind_eq_ok_iff.mp binds
      obtain ⟨type, typed, same⟩ := bind_eq_ok_iff.mp binds
      cases same
      exact ⟨operand, rfl, operandBinds, typed⟩
    | column | literal | binary => cases binds
  · rintro ⟨operand, rfl, operandBinds, typed⟩
    simp only [bindAggregate, operandBinds, typed, ok_bind, pure_eq_ok]

/-- An entry that has a field is an aggregate whose function accepts its operand. -/
theorem Expr.accepts_of_bindAggregate {entry : Expr} {input : AggregateInput} {field : Field}
    (binds : entry.bindAggregate received = .ok input)
    (named : entry.toField received = .ok field) :
    input.function.resultType? input.type = some field.type := by
  obtain ⟨operand, rfl, -, typed⟩ := bindAggregate_eq_ok_iff.mp binds
  simp only [toField, type, typed, ok_bind, AggregateFunction.resultType] at named
  split at named
  · cases named
    assumption
  · cases named

end Expressions

namespace Plan

/-- A node is bound over the rows that it receives. -/
structure BindsTo (node : Plan) (bound : BoundNode) (received : Schema) : Prop where
  receives : node.Receives received
  produces : node.schema = .ok bound.freshStage.schema
  runs : node.RunBy received bound.freshStage

section Nodes

variable {node below : Plan} {bound : BoundNode} {received : Schema}

private theorem BindsTo.name_eq (binds : node.BindsTo bound received) :
    bound.freshStage.name = node.operatorName := by
  obtain ⟨-, -, runs⟩ := binds
  generalize bound.freshStage = stage at runs
  cases runs with
  | project | filter => rfl
  | aggregate groupsBind aggregatesBind =>
    rw [operatorName, ← length_of_mapM groupsBind]
    split <;> rfl

private theorem BindsTo.isBoundTo (binds : node.BindsTo bound received) :
    ∀ expr ∈ bound.freshStage.exprs, expr.IsBoundTo received := by
  obtain ⟨-, -, runs⟩ := binds
  generalize bound.freshStage = stage at runs
  have bindsEach {exprs : List Expr} {own : List BoundExpr}
      (binds : exprs.mapM (Expr.bind received) = .ok own) :
      ∀ expr ∈ own, expr.IsBoundTo received := by
    intro expr isMember
    obtain ⟨named, -, binds⟩ := exists_of_mem_mapM binds isMember
    exact Expr.isBoundTo_of_bind binds
  cases runs with
  | project binds => exact bindsEach binds
  | filter binds boolean => exact List.forall_mem_singleton.mpr (Expr.isBoundTo_of_bind binds)
  | aggregate groupsBind aggregatesBind =>
    refine List.forall_mem_append.mpr ⟨bindsEach groupsBind, List.forall_mem_map.mpr ?_⟩
    intro input isMember
    obtain ⟨entry, -, binds⟩ := exists_of_mem_mapM aggregatesBind isMember
    obtain ⟨operand, -, operandBinds, -⟩ := Expr.bindAggregate_eq_ok_iff.mp binds
    exact Expr.isBoundTo_of_bind operandBinds

private theorem BindsTo.exists_bind (binds : node.BindsTo bound received) :
    ∀ expr ∈ node.exprs, ∃ own, expr.bind received = .ok own := by
  obtain ⟨-, -, runs⟩ := binds
  generalize bound.freshStage = stage at runs
  intro expr isExpr
  cases runs with
  | project binds =>
    obtain ⟨own, -, binds⟩ := exists_result_of_mapM binds isExpr
    exact ⟨own, binds⟩
  | filter binds boolean => exact ⟨_, List.mem_singleton.mp isExpr ▸ binds⟩
  | aggregate groupsBind aggregatesBind =>
    rcases List.mem_append.mp isExpr with isGroup | isEntry
    · obtain ⟨own, -, binds⟩ := exists_result_of_mapM groupsBind isGroup
      exact ⟨own, binds⟩
    · obtain ⟨input, -, binds⟩ := exists_result_of_mapM aggregatesBind isEntry
      obtain ⟨operand, rfl, binds, -⟩ := Expr.bindAggregate_eq_ok_iff.mp binds
      exact ⟨_, bind_eq_ok_iff.mpr ⟨_, binds, rfl⟩⟩

theorem BindsTo.isBoolean {predicate : Expr} (binds : node.BindsTo bound received)
    (isFilter : node = filter below predicate) : predicate.type received = .ok .boolean := by
  obtain ⟨-, -, runs⟩ := binds
  generalize bound.freshStage = stage at runs
  subst isFilter
  cases runs with
  | filter binds boolean => rw [← Expr.type_eq_of_bind binds, boolean]

/-- An aggregation that has a schema folds only what its functions accept. -/
theorem BindsTo.accepts {groups aggregates : List Expr} {entry : Expr} {input : AggregateInput}
    (binds : (aggregate below groups aggregates).BindsTo bound received)
    (isEntry : entry ∈ aggregates) (bindsEntry : entry.bindAggregate received = .ok input) :
    ∃ result, input.function.resultType? input.type = some result := by
  obtain ⟨⟨_, isBelow, produced⟩, produces, -⟩ := binds
  cases isBelow
  obtain ⟨_, same, named⟩ := bind_eq_ok_iff.mp produces
  obtain rfl := Except.ok.inj (produced.symm.trans same)
  obtain ⟨fields, named, -⟩ := bind_eq_ok_iff.mp named
  obtain ⟨field, -, named⟩ := exists_result_of_mapM named (List.mem_append_right groups isEntry)
  exact ⟨field.type, Expr.accepts_of_bindAggregate bindsEntry named⟩

/-- The stage of a bound node can be built, with any choice of strategies. -/
theorem BindsTo.toStage (select : Aggregation → GroupStrategy)
    (binds : node.BindsTo bound received) :
    bound.toStage (.choosing select) = .ok (bound.stageBy select) := by
  cases bound with
  | project | filter => rfl
  | aggregate aggregation =>
    cases binds.runs with
    | @aggregate _ groups aggregates own inputs schema groupsBind aggregatesBind =>
      have accepts : ∀ input ∈ inputs, ∃ start,
          Accumulator.create input.function input.type = .ok start ∧ True := by
        intro input isMember
        obtain ⟨entry, isEntry, bindsEntry⟩ := exists_of_mem_mapM aggregatesBind isMember
        obtain ⟨result, accepted⟩ := binds.accepts isEntry bindsEntry
        simp only [Accumulator.create, accepted, Except.ok.injEq, exists_eq', and_true]
      obtain ⟨fresh, created, -⟩ := exists_mapM accepts
      have started : Aggregation.newAccumulators ⟨own, inputs, schema⟩ = .ok fresh := created
      exact Aggregation.build_of_newAccumulators started _

/-- A node between the leaf and an output is bound after the nodes below it. -/
theorem exists_bindsTo_of_boundNodes {nodes : List BoundNode} (isBelow : node.below? = some below)
    (inner : node.isOutput = false) (success : node.boundNodes = .ok nodes) :
    ∃ earlier bound received, below.boundNodes = .ok earlier ∧ node.BindsTo bound received ∧
      nodes = earlier ++ [bound] := by
  cases node with
  | input => cases isBelow
  | output => cases inner
  | project below exprs =>
    cases isBelow
    obtain ⟨earlier, belowBound, success⟩ := bind_eq_ok_iff.mp success
    obtain ⟨schema, produces, success⟩ := bind_eq_ok_iff.mp success
    obtain ⟨received, receives, success⟩ := bind_eq_ok_iff.mp success
    obtain ⟨own, binds, same⟩ := bind_eq_ok_iff.mp success
    cases same
    exact ⟨earlier, .project own schema, received, belowBound,
      ⟨⟨below, rfl, receives⟩, produces, .project binds⟩, rfl⟩
  | filter below predicate =>
    cases isBelow
    obtain ⟨earlier, belowBound, success⟩ := bind_eq_ok_iff.mp success
    obtain ⟨received, receives, success⟩ := bind_eq_ok_iff.mp success
    obtain ⟨own, bindsTo, same⟩ := bind_eq_ok_iff.mp success
    cases same
    obtain ⟨bound, binds, checked⟩ := bind_eq_ok_iff.mp bindsTo
    obtain ⟨type, typed, checked⟩ := bind_eq_ok_iff.mp checked
    split at checked
    · subst type
      cases checked
      exact ⟨earlier, .filter own received, received, belowBound,
        ⟨⟨below, rfl, receives⟩, receives, .filter binds typed⟩, rfl⟩
    · cases checked
  | aggregate below groups aggregates =>
    cases isBelow
    obtain ⟨earlier, belowBound, success⟩ := bind_eq_ok_iff.mp success
    obtain ⟨schema, produces, success⟩ := bind_eq_ok_iff.mp success
    obtain ⟨received, receives, success⟩ := bind_eq_ok_iff.mp success
    obtain ⟨own, binds, success⟩ := bind_eq_ok_iff.mp success
    obtain ⟨inputs, inputsBind, same⟩ := bind_eq_ok_iff.mp success
    cases same
    exact ⟨earlier, .aggregate ⟨own, inputs, schema⟩, received, belowBound,
      ⟨⟨below, rfl, receives⟩, produces, .aggregate binds inputsBind⟩, rfl⟩

/-- Where the nodes below are bound, so is the node itself. -/
theorem BindsTo.boundNodes_eq {earlier : List BoundNode} (binds : node.BindsTo bound received)
    (isBelow : node.below? = some below) (belowBound : below.boundNodes = .ok earlier) :
    node.boundNodes = .ok (earlier ++ [bound]) := by
  obtain ⟨⟨other, isOther, receives⟩, produces, runs⟩ := binds
  obtain rfl : below = other := Option.some.inj (isBelow.symm.trans isOther)
  cases bound with
  | project own schema =>
    cases runs with
    | project binds =>
      cases isBelow
      have derived : (project below _).schema = .ok schema := produces
      simp only [boundNodes, belowBound, derived, receives, binds, ok_bind, pure_eq_ok]
  | filter own schema =>
    cases runs with
    | filter binds boolean =>
      cases isBelow
      obtain rfl : received = schema := Except.ok.inj (receives.symm.trans produces)
      simp only [boundNodes, belowBound, receives, Expr.bindPredicate, binds, boolean, if_true,
        ok_bind, pure_eq_ok]
  | aggregate aggregation =>
    cases runs with
    | aggregate groupsBind aggregatesBind =>
      cases isBelow
      have derived : (aggregate below _ _).schema = .ok _ := produces
      simp only [boundNodes, belowBound, derived, receives, groupsBind, aggregatesBind, ok_bind,
        pure_eq_ok]
      rfl

theorem BindsTo.receives_eq {other : Schema} (binds : node.BindsTo bound received)
    (receives : node.Receives other) : received = other := by
  obtain ⟨below, isBelow, produced⟩ := binds.receives
  obtain ⟨again, isAgain, produces⟩ := receives
  obtain rfl : below = again := Option.some.inj (isBelow.symm.trans isAgain)
  exact Except.ok.inj (produced.symm.trans produces)

/-- Nothing hinders a node that is bound. -/
theorem BindsTo.not_isHindered (binds : node.BindsTo bound received) : ¬node.IsHindered := by
  intro hindered
  cases hindered with
  | underived failed => cases failed.symm.trans binds.produces
  | unresolved receives isExpr isName missing =>
    obtain rfl := binds.receives_eq receives
    exact missing ((Expr.exists_bind_iff _).mp (binds.exists_bind _ isExpr) _ isName)
  | untyped isFilter receives failed =>
    obtain rfl := binds.receives_eq receives
    cases failed.symm.trans (binds.isBoolean isFilter)
  | notBoolean isFilter receives typed other =>
    obtain rfl := binds.receives_eq receives
    exact other (Except.ok.inj (typed.symm.trans (binds.isBoolean isFilter)))
  | unfoldable isAggregate receives isEntry refused =>
    obtain rfl := binds.receives_eq receives
    subst isAggregate
    have runs := binds.runs
    generalize bound.freshStage = stage at runs
    cases runs with
    | aggregate groupsBind aggregatesBind =>
      obtain ⟨input, -, bindsEntry⟩ := exists_result_of_mapM aggregatesBind isEntry
      obtain ⟨result, accepted⟩ := binds.accepts isEntry bindsEntry
      obtain ⟨operand, rfl, -, typed⟩ := Expr.bindAggregate_eq_ok_iff.mp bindsEntry
      exact refused ⟨_, _, _, _, rfl, typed, accepted⟩

private theorem exists_schema_of_not_isHindered (free : ¬node.IsHindered) :
    ∃ schema, node.schema = .ok schema := by
  cases produces : node.schema with
  | ok schema => exact ⟨schema, rfl⟩
  | error error => exact absurd (.underived produces) free

private theorem exists_schema_below {schema : Schema} (isBelow : node.below? = some below)
    (produces : node.schema = .ok schema) : ∃ received, below.schema = .ok received := by
  cases node with
  | input => cases isBelow
  | project | aggregate =>
    cases isBelow
    obtain ⟨received, produced, -⟩ := bind_eq_ok_iff.mp produces
    exact ⟨received, produced⟩
  | filter | output =>
    cases isBelow
    exact ⟨schema, produces⟩

/-- A node that nothing hinders is bound. -/
theorem exists_bindsTo_of_not_isHindered (isBelow : node.below? = some below)
    (inner : node.isOutput = false) (free : ¬node.IsHindered) :
    ∃ bound received, node.BindsTo bound received := by
  obtain ⟨schema, produces⟩ := exists_schema_of_not_isHindered free
  obtain ⟨received, produced⟩ := exists_schema_below isBelow produces
  have receives : node.Receives received := ⟨below, isBelow, produced⟩
  have binds : ∀ expr ∈ node.exprs, ∃ own, expr.bind received = .ok own ∧ True := by
    intro expr isExpr
    have resolved : ∀ name ∈ expr.columns, name ∈ received.names := fun name isName =>
      not_not.mp fun missing => free (.unresolved receives isExpr isName missing)
    obtain ⟨own, binds⟩ := (Expr.exists_bind_iff expr).mpr resolved
    exact ⟨own, binds, trivial⟩
  cases node with
  | input => cases isBelow
  | output => cases inner
  | project below exprs =>
    obtain ⟨own, binds, -⟩ := exists_mapM binds
    exact ⟨.project own schema, received, receives, produces, .project binds⟩
  | filter below predicate =>
    obtain ⟨own, binds, -⟩ := binds predicate (List.mem_singleton_self predicate)
    refine ⟨.filter own schema, received, receives, produces, .filter binds ?_⟩
    rw [Expr.type_eq_of_bind binds]
    cases typed : predicate.type received with
    | error error => exact absurd (.untyped rfl receives typed) free
    | ok type =>
      by_cases boolean : type = .boolean
      · rw [boolean]
      · exact absurd (.notBoolean rfl receives typed boolean) free
  | aggregate below groups aggregates =>
    obtain ⟨own, groupsBind, -⟩ := exists_mapM fun expr isGroup =>
      binds expr (List.mem_append_left aggregates isGroup)
    have bindsEach : ∀ entry ∈ aggregates, ∃ input,
        entry.bindAggregate received = .ok input ∧ True := by
      intro entry isEntry
      obtain ⟨function, operand, type, result, rfl, typed, -⟩ : entry.IsFoldable received :=
        not_not.mp fun refused => free (.unfoldable rfl receives isEntry refused)
      obtain ⟨own, bindsEntry, -⟩ := binds _ (List.mem_append_right groups isEntry)
      obtain ⟨inner, bindsOperand, -⟩ := bind_eq_ok_iff.mp bindsEntry
      exact ⟨⟨function, inner, type⟩,
        Expr.bindAggregate_eq_ok_iff.mpr ⟨operand, rfl, bindsOperand, typed⟩, trivial⟩
    obtain ⟨inputs, aggregatesBind, -⟩ := exists_mapM bindsEach
    exact ⟨.aggregate ⟨own, inputs, schema⟩, received, receives, produces,
      .aggregate groupsBind aggregatesBind⟩

end Nodes

section Chains

variable {plan below : Plan} {nodes : List BoundNode}

private theorem hasOutput_eq_false_iff :
    plan.hasOutput = false ↔ ∀ node ∈ plan.nodes, node.isOutput = false := by
  induction plan with
  | input => simp [hasOutput, Plan.nodes, isOutput]
  | project below _ ih | filter below _ ih | aggregate below _ _ ih =>
    rw [hasOutput, ih, Plan.nodes, List.forall_mem_cons]
    exact (and_iff_right rfl).symm
  | output below ih => simp [hasOutput, Plan.nodes, isOutput]

private theorem head?_nodes (plan : Plan) : plan.nodes.head? = some plan := by
  cases plan <;> rfl

/-- From the leaf up, each node comes after the node below it. -/
theorem exists_below_of_getElem? {index : Nat} {node : Plan}
    (isNode : plan.nodes.reverse[index + 1]? = some node) :
    ∃ below, node.below? = some below ∧ plan.nodes.reverse[index]? = some below := by
  induction plan with
  | input => simp [Plan.nodes] at isNode
  | project below _ ih | filter below _ ih | aggregate below _ _ ih | output below ih =>
    rw [Plan.nodes, List.reverse_cons] at isNode ⊢
    obtain bound := (List.getElem?_eq_some_iff.mp isNode).1
    rw [List.length_append, List.length_singleton, Nat.lt_succ_iff] at bound
    rcases Nat.lt_or_eq_of_le bound with inner | last
    · rw [List.getElem?_append_left inner] at isNode
      obtain ⟨lower, isBelow, found⟩ := ih isNode
      exact ⟨lower, isBelow, by rw [List.getElem?_append_left (Nat.lt_of_succ_lt inner), found]⟩
    · rw [last, List.getElem?_concat_length] at isNode
      obtain rfl := Option.some.inj isNode
      refine ⟨below, rfl, ?_⟩
      rw [List.getElem?_append_left (by omega), ← Nat.add_sub_cancel index 1, last,
        ← List.getLast?_eq_getElem?, List.getLast?_reverse, head?_nodes]

/-- The operator before that of a bound node hands on the rows that the node receives. -/
theorem BindsTo.exists_upstream {operators : List (String × Schema)} {index : Nat} {node : Plan}
    {bound : BoundNode} {received : Schema} (binds : node.BindsTo bound received)
    (schemas : operators.map (fun operator => .ok operator.2) = plan.nodes.reverse.map schema)
    (isNode : plan.nodes.reverse[index + 1]? = some node) :
    ∃ name, operators[index]? = some (name, received) := by
  obtain ⟨lower, isLower, found⟩ := exists_below_of_getElem? isNode
  obtain ⟨below, isBelow, produced⟩ := binds.receives
  obtain rfl : lower = below := Option.some.inj (isLower.symm.trans isBelow)
  have same := congrArg (·[index]?) schemas
  simp only [List.getElem?_map, found, Option.map_some, produced] at same
  obtain ⟨⟨name, handed⟩, isUpstream, sent⟩ := Option.map_eq_some_iff.mp same
  cases sent
  exact ⟨name, isUpstream⟩

/-- What is bound of a plan without an output: each node above the leaf, in the order of the
data. -/
theorem bindsTo_of_boundNodes (inner : plan.hasOutput = false)
    (success : plan.boundNodes = .ok nodes) :
    List.Forall₂ (fun node bound => ∃ received, node.BindsTo bound received)
      plan.nodes.reverse.tail nodes := by
  induction plan generalizing nodes with
  | input table =>
    obtain ⟨read, -, same⟩ := bind_eq_ok_iff.mp success
    cases same
    exact .nil
  | project below _ ih | filter below _ ih | aggregate below _ _ ih =>
    obtain ⟨earlier, bound, received, belowBound, binds, rfl⟩ :=
      exists_bindsTo_of_boundNodes rfl rfl success
    have nonempty : below.nodes.reverse ≠ [] := by
      rw [Ne, List.reverse_eq_nil_iff]
      exact List.ne_nil_of_mem (mem_nodes_self below)
    rw [Plan.nodes, List.reverse_cons, List.tail_append_of_ne_nil nonempty]
    exact List.rel_append (ih inner belowBound) (.cons ⟨received, binds⟩ .nil)
  | output => cases inner

/-- A plan without an output is bound unless one of its nodes is hindered. -/
theorem exists_boundNodes_iff (inner : plan.hasOutput = false) :
    (∃ nodes, plan.boundNodes = .ok nodes) ↔ ∀ node ∈ plan.nodes, ¬node.IsHindered := by
  induction plan with
  | input table =>
    rw [Plan.nodes, List.forall_mem_singleton]
    constructor
    · rintro ⟨nodes, success⟩ hindered
      obtain ⟨_, read⟩ := discard_eq_ok_iff.mp (check_bind_eq_ok_iff.mp success).1
      cases hindered with
      | underived failed => cases failed.symm.trans read
      | unresolved receives | untyped _ receives | notBoolean _ receives
      | unfoldable _ receives => obtain ⟨_, isBelow, -⟩ := receives; cases isBelow
    · intro free
      obtain ⟨schema, read⟩ := exists_schema_of_not_isHindered free
      exact ⟨[], check_bind_eq_ok_iff.mpr ⟨discard_eq_ok_iff.mpr ⟨schema, read⟩, rfl⟩⟩
  | project below _ ih | filter below _ ih | aggregate below _ _ ih =>
    -- a node is bound to the schema below it alone, so the nodes can be taken one by one
    rw [Plan.nodes, List.forall_mem_cons, ← ih inner]
    constructor
    · rintro ⟨nodes, success⟩
      obtain ⟨earlier, bound, received, belowBound, binds, -⟩ :=
        exists_bindsTo_of_boundNodes rfl rfl success
      exact ⟨binds.not_isHindered, earlier, belowBound⟩
    · rintro ⟨free, earlier, belowBound⟩
      obtain ⟨bound, received, binds⟩ := exists_bindsTo_of_not_isHindered rfl rfl free
      exact ⟨_, binds.boundNodes_eq rfl belowBound⟩
  | output => cases inner

private theorem getLast?_nodes (plan : Plan) : plan.nodes.getLast? = some (input plan.table) := by
  induction plan with
  | input => rfl
  | project below _ ih | filter below _ ih | aggregate below _ _ ih | output below ih =>
    rw [Plan.nodes, List.getLast?_cons, ih]
    rfl

private theorem reverse_nodes (plan : Plan) :
    plan.nodes.reverse = input plan.table :: plan.nodes.reverse.tail := by
  refine List.eq_cons_of_mem_head? ?_
  rw [List.head?_reverse, getLast?_nodes]
  rfl

/-- A bound plan compiles to the stages of its nodes, with any choice of strategies. -/
theorem compile_of_bindsTo (select : Aggregation → GroupStrategy) (inner : below.hasOutput = false)
    (success : below.boundNodes = .ok nodes) :
    ∃ read produced, below.table.schema = .ok read ∧ below.schema = .ok produced ∧
      (output below).compile (.choosing select) = .ok ⟨below.table.path, below.table.projection,
        read, [⟨nodes.map (BoundNode.stageBy select), produced⟩]⟩ := by
  have free := (exists_boundNodes_iff inner).mp ⟨nodes, success⟩
  have isLeaf : input below.table ∈ below.nodes :=
    List.mem_of_getLast? (getLast?_nodes below)
  obtain ⟨read, reads⟩ : ∃ read, below.table.schema = .ok read :=
    exists_schema_of_not_isHindered (free _ isLeaf)
  obtain ⟨produced, produces⟩ := exists_schema_of_not_isHindered (free _ (mem_nodes_self below))
  have built : ∀ node ∈ nodes, node.toStage (.choosing select) = .ok (node.stageBy select) := by
    intro bound isBound
    obtain ⟨node, -, received, binds⟩ :=
      exists_of_mem_forall₂ (bindsTo_of_boundNodes inner success) isBound
    exact binds.toStage select
  refine ⟨read, produced, reads, produces, ?_⟩
  simp only [compile, inner, success, reads, produces, linkStages_of_each built, ok_bind,
    pure_eq_ok, Bool.false_eq_true, if_false]

theorem exists_boundNodes_of_compile {registry : StrategyRegistry} {scan : Scan}
    (success : plan.compile registry = .ok scan) :
    ∃ below nodes, plan = output below ∧ below.hasOutput = false ∧
      below.boundNodes = .ok nodes := by
  cases plan with
  | input | project | filter | aggregate => cases success
  | output below =>
    rw [compile] at success
    split at success
    · cases success
    · rename_i inner
      obtain ⟨nodes, bound, -⟩ := bind_eq_ok_iff.mp success
      exact ⟨below, nodes, rfl, Bool.eq_false_iff.mpr inner, bound⟩

/-- What a plan compiles to is wired like the plan. -/
theorem isWired_of_compile {scan : Scan} (success : plan.compile .standard = .ok scan) :
    ∃ chain, plan.IsWired scan chain := by
  obtain ⟨below, nodes, rfl, inner, bound⟩ := exists_boundNodes_of_compile success
  obtain ⟨read, produced, reads, produces, compiled⟩ :=
    compile_of_bindsTo StrategyRegistry.byArity inner bound
  rw [BoundNode.stageBy_byArity] at compiled
  obtain rfl := Except.ok.inj (success.symm.trans compiled)
  have each := bindsTo_of_boundNodes inner bound
  have upward : (output below).nodes.reverse =
      input below.table :: (below.nodes.reverse.tail ++ [output below]) := by
    rw [Plan.nodes, List.reverse_cons, reverse_nodes below]
    rfl
  -- what is left to compare are the nodes above the leaf, each beside what is bound of it
  generalize below.nodes.reverse.tail = above at each upward
  have kinds : above.map operatorName = nodes.map (·.freshStage.name) :=
    map_eq_map_of_forall₂ (each.imp fun _ _ binds => binds.choose_spec.name_eq.symm)
  have schemas : above.map schema = nodes.map (.ok ·.freshStage.schema) :=
    map_eq_map_of_forall₂ (each.imp fun _ _ binds => binds.choose_spec.produces)
  generalize whole : Scan.mk .. = scan
  have operators : scan.nodes = ("Scan", read) ::
      (nodes.map (fun node => (node.freshStage.name, node.freshStage.schema)) ++
        [("Output", produced)]) := by
    simp [← whole, Scan.nodes, Chain.nodes]
  have allSchemas : scan.nodes.map (fun operator => .ok operator.2) =
      (output below).nodes.reverse.map schema := by
    simp [operators, upward, schemas, Plan.schema, reads, produces]
  refine ⟨⟨nodes.map BoundNode.freshStage, produced⟩, by rw [← whole], ?_, ?_, allSchemas, ?_⟩
  · rw [← whole]
    exact ⟨rfl, rfl⟩
  · simp [operators, upward, kinds, operatorName]
  · intro index stage isStage
    rw [List.getElem?_map] at isStage
    obtain ⟨bound, isBound, rfl⟩ := Option.map_eq_some_iff.mp isStage
    obtain ⟨node, isAbove, received, binds⟩ := exists_getElem?_of_forall₂ each.flip isBound
    have isNode : (output below).nodes.reverse[index + 1]? = some node := by
      rw [upward, List.getElem?_cons_succ, List.getElem?_append_left
        (List.getElem?_eq_some_iff.mp isAbove).1, isAbove]
    obtain ⟨name, isUpstream⟩ := binds.exists_upstream allSchemas isNode
    exact ⟨(name, received), node, isUpstream, isNode, binds.runs, binds.isBoundTo⟩

/-- An output hinders nothing that is not hindered below it. -/
theorem not_isHindered_output (free : ¬below.IsHindered) : ¬(output below).IsHindered := by
  obtain ⟨schema, produces⟩ := exists_schema_of_not_isHindered free
  intro hindered
  cases hindered with
  | underived failed => cases failed.symm.trans produces
  | unresolved _ isExpr => cases isExpr
  | untyped isFilter | notBoolean isFilter => cases isFilter
  | unfoldable isAggregate => cases isAggregate

private theorem exists_compile_iff_not_hasObstacle :
    (∃ scan, plan.compile .standard = .ok scan) ↔ ¬plan.HasObstacle := by
  constructor
  · rintro ⟨scan, compiled⟩ obstacle
    obtain ⟨below, nodes, rfl, inner, bound⟩ := exists_boundNodes_of_compile compiled
    have free := (exists_boundNodes_iff inner).mp ⟨nodes, bound⟩
    cases obstacle with
    | rootNotOutput other => cases other
    | nestedOutput isInner isOutput =>
      cases isOutput.symm.trans (hasOutput_eq_false_iff.mp inner _ isInner)
    | hindered isNode hindered =>
      rcases List.mem_cons.mp isNode with rfl | deeper
      · exact not_isHindered_output (free below (mem_nodes_self below)) hindered
      · exact free _ deeper hindered
  · intro free
    cases plan with
    | input | project | filter | aggregate => exact absurd (.rootNotOutput rfl) free
    | output below =>
      have inner : below.hasOutput = false := hasOutput_eq_false_iff.mpr fun node isInner =>
        Bool.eq_false_iff.mpr fun isOutput => free (.nestedOutput isInner isOutput)
      obtain ⟨nodes, bound⟩ := (exists_boundNodes_iff inner).mpr fun node isNode hindered =>
        free (.hindered (List.mem_cons_of_mem _ isNode) hindered)
      obtain ⟨read, produced, -, -, compiled⟩ :=
        compile_of_bindsTo StrategyRegistry.byArity inner bound
      exact ⟨_, compiled⟩

/-- Every plan compiles to a scan that is wired like the plan unless there is an obstacle, and then
it does not compile. -/
theorem compiles_wired_unless_obstacle (plan : Plan) :
    (∀ scan, plan.compile .standard = .ok scan → ∃ chain, plan.IsWired scan chain) ∧
      ((∃ error, plan.compile .standard = .error error) ↔ plan.HasObstacle) := by
  refine ⟨fun scan success => isWired_of_compile success, ?_⟩
  rw [← not_iff_not, ← exists_compile_iff_not_hasObstacle]
  cases plan.compile .standard with
  | ok scan => simp
  | error error => simp

end Chains

section Visits

/-- The cities with more than one visit on a day. -/
def visitsPlan : Plan :=
  filter
    (aggregate
      (project (input ⟨"visits", ⟨[⟨"day", .int32, false⟩, ⟨"city", .utf8, true⟩]⟩, none⟩)
        [.column "city", .column "day"])
      [.column "city", .column "day"] [.aggregate .count (.column "day")])
    (.binary .gt (.column "count(#day)") (.literal (.int64 1)))

/-- The filter refers to the third column, of the aggregation; the table has two. -/
theorem compiles_wired_unless_obstacle_visits :
    (∃ scan chain, (output visitsPlan).compile .standard = .ok scan ∧
      (output visitsPlan).IsWired scan chain ∧
      chain.stages.map Stage.exprs = [[.column 1 .utf8, .column 0 .int32],
        [.column 0 .utf8, .column 1 .int32, .column 1 .int32],
        [.binary .gt (.column 2 .int64) (.literal (.int64 1))]]) ∧
      (output (output visitsPlan)).HasObstacle := by
  constructor
  · have shown : ((output visitsPlan).compile .standard).map (fun scan =>
        scan.children.map fun chain => chain.stages.map Stage.exprs) =
          .ok [[[.column 1 .utf8, .column 0 .int32],
            [.column 0 .utf8, .column 1 .int32, .column 1 .int32],
            [.binary .gt (.column 2 .int64) (.literal (.int64 1))]]] := by
      decide +kernel
    obtain ⟨scan, compiled, shown⟩ := map_eq_ok_iff.mp shown
    obtain ⟨chain, wired⟩ := (compiles_wired_unless_obstacle _).1 scan compiled
    rw [wired.alone, List.map_singleton, List.cons.injEq] at shown
    exact ⟨scan, chain, compiled, wired, shown.1⟩
  · exact (compiles_wired_unless_obstacle _).2.mp ⟨.nestedOutput, rfl⟩

end Visits

end Plan

end ColumnQuery
