import ColumnQuery.Proofs.Plan.Validation

/-! # Validation accepts the well formed plans and no others

A plan is sound node by node: each node asks something of the schema of the rows that it receives,
and an output stands at most at the root. Validation accepts exactly the plans whose nodes are all
sound. What it refuses it refuses as invalid, never with a failure of deriving a schema, and every
node of an accepted plan has a schema whose types are those that checking the expressions gives.
-/

namespace ColumnQuery

/-- All failures of a computation are of one kind. -/
def FailsAs {α : Type} (kind : ErrorKind) (attempt : Except Error α) : Prop :=
  ∀ error, attempt = .error error → error.kind = kind

namespace FailsAs

variable {α β : Type} {kind : ErrorKind}

theorem ok (value : α) : FailsAs kind (.ok value) := by
  intro error failed
  cases failed

theorem error {error : Error} (same : error.kind = kind) :
    FailsAs kind (.error error : Except Error α) := by
  intro other failed
  cases failed
  exact same

theorem bind {first : Except Error α} {next : α → Except Error β} (firstFails : FailsAs kind first)
    (nextFails : ∀ value, first = .ok value → FailsAs kind (next value)) :
    FailsAs kind (first >>= next) := by
  intro error failed
  rcases bind_eq_error_iff.mp failed with early | ⟨value, success, late⟩
  · exact firstFails error early
  · exact nextFails value success error late

theorem discard {first : Except Error α} (fails : FailsAs kind first) :
    FailsAs kind (discard first) := by
  cases first with
  | ok => exact ok ()
  | error => exact error (fails _ rfl)

theorem forM {check : α → Except Error Unit} {items : List α}
    (fails : ∀ item ∈ items, FailsAs kind (check item)) : FailsAs kind (items.forM check) := by
  induction items with
  | nil => exact ok ()
  | cons item items ih =>
    refine bind (fails item List.mem_cons_self) fun _ _ => ih fun other isMember => ?_
    exact fails other (List.mem_cons_of_mem item isMember)

end FailsAs

namespace Expr

variable {schema : Schema}

private theorem failsAs_resultType (function : AggregateFunction) (type : DataType) :
    FailsAs .validation (function.resultType type) := by
  unfold AggregateFunction.resultType
  split
  · exact .ok _
  · exact .error rfl

/-- An ill typed expression is an invalid one. -/
theorem failsAs_check (expr : Expr) : FailsAs .validation (expr.check schema) := by
  induction expr with
  | column name =>
    simp only [check, type]
    split
    · exact .ok _
    · exact .error rfl
  | literal => exact .ok _
  | binary op left right leftIH rightIH =>
    refine leftIH.bind fun leftType _ => rightIH.bind fun rightType _ => ?_
    have faults : ∀ fault, operandFault? op leftType rightType (binary op left right) = some fault →
        fault.kind = .validation := by
      intro fault found
      unfold operandFault? at found
      split at found <;> split at found <;> cases found <;> rfl
    split
    · exact .error (faults _ ‹_›)
    · exact .ok _
  | aggregate function operand ih => exact ih.bind fun type _ => failsAs_resultType function type

private theorem failsAs_refuseAggregate (place : ExprPlace) (expr : Expr) :
    FailsAs .validation (expr.refuseAggregate place) := by
  unfold refuseAggregate
  split
  · exact .error rfl
  · exact .ok _

end Expr

namespace Plan

section Refusals

variable {schema : Schema}

private theorem failsAs_validateInput (table : TableInput) :
    FailsAs .validation (validateInput table) := by
  unfold validateInput
  split
  · exact .ok _
  · split
    · exact .error rfl
    · exact .ok _

private theorem failsAs_validateRowwise (place : ExprPlace) (expr : Expr) :
    FailsAs .validation (validateRowwise place schema expr) :=
  (expr.failsAs_refuseAggregate place).bind fun _ _ => expr.failsAs_check

private theorem failsAs_validateAggregation (expr : Expr) :
    FailsAs .validation (validateAggregation schema expr) := by
  cases expr with
  | aggregate function operand =>
    exact (operand.failsAs_refuseAggregate _).bind fun _ _ => (Expr.failsAs_check _).discard
  | column | literal | binary => exact .error rfl

private theorem failsAs_validatePredicate (predicate : Expr) :
    FailsAs .validation (validatePredicate schema predicate) := by
  refine predicate.failsAs_check.bind fun type _ => ?_
  split
  · exact .ok _
  · exact .error rfl

/-- A plan that is accepted below the root has a schema, so that a check of the node above it never
fails to derive one. -/
theorem failsAs_received {below : Plan} {next : Schema → Except Error Unit}
    (accepted : below.validateFrom false = .ok ())
    (nextFails : ∀ schema, FailsAs .validation (next schema)) :
    FailsAs .validation (below.schema >>= next) := by
  obtain ⟨schema, derives⟩ := validateFrom_eq_ok_iff.mp accepted
  rw [schema_of_derives derives]
  exact nextFails schema

/-- Every refusal of a plan calls it invalid. -/
theorem failsAs_validateFrom (plan : Plan) (isRoot : Bool) :
    FailsAs .validation (plan.validateFrom isRoot) := by
  induction plan generalizing isRoot with
  | input table => exact failsAs_validateInput table
  | project below exprs ih =>
    refine (ih false).bind fun _ accepted => ?_
    split
    · exact .error rfl
    · refine failsAs_received accepted fun schema => .forM fun expr _ => ?_
      exact (failsAs_validateRowwise .projection expr).discard
  | filter below predicate ih =>
    refine (ih false).bind fun _ accepted => ?_
    refine (predicate.failsAs_refuseAggregate .filter).bind fun _ _ => ?_
    exact failsAs_received accepted fun _ => failsAs_validatePredicate predicate
  | aggregate below groups aggregates ih =>
    refine (ih false).bind fun _ accepted => ?_
    split
    · exact .error rfl
    · refine failsAs_received accepted fun schema => FailsAs.bind (.forM fun expr _ => ?_) ?_
      · exact (failsAs_validateRowwise .groupBy expr).discard
      · exact fun _ _ => .forM fun expr _ => failsAs_validateAggregation expr
  | output below ih =>
    refine (ih false).bind fun _ _ => ?_
    split
    · exact .ok _
    · exact .error rfl

end Refusals

/-- The nodes of a plan, from the root down to the leaf. -/
def nodes : Plan → List Plan
  | input table => [input table]
  | project below exprs => project below exprs :: below.nodes
  | filter below predicate => filter below predicate :: below.nodes
  | aggregate below groups aggregates => aggregate below groups aggregates :: below.nodes
  | output below => output below :: below.nodes

/-- A node that hands rows to the consumer. -/
def isOutput : Plan → Bool
  | output _ => true
  | _ => false

/-- What a node asks for, over the schema of the rows that it receives. -/
def IsSound : Plan → Prop
  | input table =>
    ∀ names, table.projection = some names →
      ∀ name ∈ names, ∃ field ∈ table.source.fields, field.name = name
  | project below exprs =>
    exprs ≠ [] ∧
      ∀ schema, below.schema = .ok schema → ∀ expr ∈ exprs, IsRowwise schema expr
  | filter below predicate =>
    ∀ schema, below.schema = .ok schema →
      predicate.containsAggregate = false ∧ predicate.HasType schema .boolean
  | aggregate below groups aggregates =>
    (groups ≠ [] ∨ aggregates ≠ []) ∧
      ∀ schema, below.schema = .ok schema →
        (∀ expr ∈ groups, IsRowwise schema expr) ∧ ∀ expr ∈ aggregates, IsAggregation schema expr
  | output _ => True

/-- A plan of sound nodes with an output at most at the root. -/
structure IsSoundThroughout (plan : Plan) : Prop where
  outputLast : ∀ node ∈ plan.nodes.tail, node.isOutput = false
  sound : ∀ node ∈ plan.nodes, node.IsSound

/-- The fields of a schema have the types that checking some expressions gives. -/
def ChecksTo (received : Schema) (exprs : List Expr) (schema : Schema) : Prop :=
  List.Forall₂ (fun expr field => expr.check received = .ok field.type) exprs schema.fields

/-- What the schema of a node consists of: the columns read at the leaf, the fields of the node
below where rows are only passed on, and otherwise a field for each expression, of the type that
checking it gives. -/
def DescribedBy (schema : Schema) : Plan → Prop
  | input table =>
    match table.projection with
    | none => schema = table.source
    | some names => names.map table.source.field? = schema.fields.map some
  | project below exprs => ∃ received, below.schema = .ok received ∧ ChecksTo received exprs schema
  | aggregate below groups aggregates =>
    ∃ received, below.schema = .ok received ∧ ChecksTo received (groups ++ aggregates) schema
  | filter below _ | output below => below.schema = .ok schema

/-- Deriving the schema of a node succeeds and agrees with checking. -/
def HasCheckedSchema (node : Plan) : Prop :=
  ∃ schema, node.schema = .ok schema ∧ node.DescribedBy schema

/-- The fields of well typed expressions have the types that checking gives. -/
theorem checked_of_named {schema : Schema} {exprs : List Expr} {fields : List Field}
    (typed : ∀ expr ∈ exprs, ∃ type, expr.HasType schema type)
    (named : exprs.map (Expr.toField schema) = fields.map .ok) :
    ChecksTo schema exprs ⟨fields⟩ := by
  induction exprs generalizing fields with
  | nil =>
    obtain rfl := List.map_eq_nil_iff.mp named.symm
    exact .nil
  | cons expr exprs ih =>
    cases fields with
    | nil => cases named
    | cons field fields =>
      obtain ⟨first, rest⟩ := List.cons.inj named
      obtain ⟨type, exprTyped⟩ := typed expr List.mem_cons_self
      obtain ⟨own, ownNamed, ownType⟩ := Expr.toField_of_hasType exprTyped
      obtain rfl : own = field := Except.ok.inj (ownNamed.symm.trans first)
      refine .cons ?_ (ih (fun other isMember => ?_) rest)
      · rw [ownType]
        exact Expr.check_of_hasType exprTyped
      · exact typed other (List.mem_cons_of_mem expr isMember)

/-- The entries of an aggregation are well typed. -/
theorem typed_of_entries {schema : Schema} {groups aggregates : List Expr}
    (rowwise : ∀ expr ∈ groups, IsRowwise schema expr)
    (aggregations : ∀ expr ∈ aggregates, IsAggregation schema expr) :
    ∀ expr ∈ groups ++ aggregates, ∃ type, expr.HasType schema type := by
  intro expr isMember
  rcases List.mem_append.mp isMember with isGroup | isAggregate
  · exact (rowwise expr isGroup).2
  · obtain ⟨_, _, type, -, -, typed⟩ := aggregations expr isAggregate
    exact ⟨type, typed⟩

theorem mem_nodes_self (plan : Plan) : plan ∈ plan.nodes := by
  cases plan <;> exact List.mem_cons_self

/-- Every node of a plan that produces rows is sound, has a checked schema and is no output. -/
theorem nodes_of_derives {plan : Plan} {schema : Schema} (derives : Derives plan schema) :
    ∀ node ∈ plan.nodes, node.isOutput = false ∧ node.IsSound ∧ node.HasCheckedSchema := by
  have produced := schema_of_derives derives
  induction derives with
  | @whole table all =>
    intro node isMember
    obtain rfl := List.mem_singleton.mp isMember
    refine ⟨rfl, fun names chosen => ?_, table.source, produced, ?_⟩
    · rw [all] at chosen
      cases chosen
    · simp only [DescribedBy, all]
  | @narrowed table names fields chosen found =>
    intro node isMember
    obtain rfl := List.mem_singleton.mp isMember
    refine ⟨rfl, fun own isOwn name isName => ?_, ⟨fields⟩, produced, ?_⟩
    · obtain rfl : names = own := Option.some.inj (chosen.symm.trans isOwn)
      obtain ⟨field, isField⟩ := Option.isSome_iff_exists.mp (isSome_of_map_some found name isName)
      exact ⟨field, List.mem_of_find?_eq_some isField, Schema.name_of_field? isField⟩
    · simpa only [DescribedBy, chosen] using found
  | @project below received exprs fields derives nonempty rowwise named ih =>
    have receives := schema_of_derives derives
    intro node isMember
    rcases List.mem_cons.mp isMember with rfl | deeper
    · refine ⟨rfl, ⟨nonempty, fun schema read => ?_⟩, ⟨fields⟩, produced, received, receives, ?_⟩
      · obtain rfl : received = schema := Except.ok.inj (receives.symm.trans read)
        exact rowwise
      · exact checked_of_named (fun expr isExpr => (rowwise expr isExpr).2) named
    · exact ih receives node deeper
  | @filter below received predicate derives rowwise boolean ih =>
    have receives := schema_of_derives derives
    intro node isMember
    rcases List.mem_cons.mp isMember with rfl | deeper
    · refine ⟨rfl, fun schema read => ?_, received, produced, receives⟩
      obtain rfl : received = schema := Except.ok.inj (receives.symm.trans read)
      exact ⟨rowwise, boolean⟩
    · exact ih receives node deeper
  | @aggregate below received groups aggregates fields derives nonempty rowwise aggregations named
      ih =>
    have receives := schema_of_derives derives
    intro node isMember
    rcases List.mem_cons.mp isMember with rfl | deeper
    · refine ⟨rfl, ⟨nonempty, fun schema read => ?_⟩, ⟨fields⟩, produced, received, receives, ?_⟩
      · obtain rfl : received = schema := Except.ok.inj (receives.symm.trans read)
        exact ⟨rowwise, aggregations⟩
      · exact checked_of_named (typed_of_entries rowwise aggregations) named
    · exact ih receives node deeper

/-- Sound nodes without an output produce rows. -/
theorem derives_of_sound {plan : Plan} (inner : ∀ node ∈ plan.nodes, node.isOutput = false)
    (sound : ∀ node ∈ plan.nodes, node.IsSound) : ∃ schema, Derives plan schema := by
  have own := sound plan plan.mem_nodes_self
  induction plan with
  | input table =>
    cases projection : table.projection with
    | none => exact ⟨table.source, .whole projection⟩
    | some names =>
      have found : ∀ name ∈ names, (table.source.field? name).isSome := by
        intro name isName
        obtain ⟨field, isField, same⟩ := own names projection name isName
        exact List.find?_isSome.mpr ⟨field, isField, beq_iff_eq.mpr same⟩
      obtain ⟨fields, found⟩ := exists_map_some found
      exact ⟨⟨fields⟩, .narrowed projection found⟩
  | project below exprs ih =>
    obtain ⟨schema, derives⟩ := ih (fun node deeper => inner node (.tail _ deeper))
      (fun node deeper => sound node (.tail _ deeper)) (sound below (.tail _ below.mem_nodes_self))
    have rowwise := own.2 schema (schema_of_derives derives)
    obtain ⟨fields, named⟩ := exists_fields fun expr isExpr => (rowwise expr isExpr).2
    exact ⟨⟨fields⟩, .project derives own.1 rowwise named⟩
  | filter below predicate ih =>
    obtain ⟨schema, derives⟩ := ih (fun node deeper => inner node (.tail _ deeper))
      (fun node deeper => sound node (.tail _ deeper)) (sound below (.tail _ below.mem_nodes_self))
    obtain ⟨rowwise, boolean⟩ := own schema (schema_of_derives derives)
    exact ⟨schema, .filter derives rowwise boolean⟩
  | aggregate below groups aggregates ih =>
    obtain ⟨schema, derives⟩ := ih (fun node deeper => inner node (.tail _ deeper))
      (fun node deeper => sound node (.tail _ deeper)) (sound below (.tail _ below.mem_nodes_self))
    obtain ⟨rowwise, aggregations⟩ := own.2 schema (schema_of_derives derives)
    obtain ⟨fields, named⟩ := exists_fields (typed_of_entries rowwise aggregations)
    exact ⟨⟨fields⟩, .aggregate derives own.1 rowwise aggregations named⟩
  | output below => cases inner (output below) List.mem_cons_self

/-- Deciding and stating which plans are well formed agree. -/
theorem validate_eq_ok_iff {plan : Plan} : plan.validate = .ok () ↔ plan.WellFormed := by
  cases plan with
  | output below => exact validate_output
  | input table => exact @validateFrom_eq_ok_iff (input table)
  | project below exprs => exact @validateFrom_eq_ok_iff (project below exprs)
  | filter below predicate => exact @validateFrom_eq_ok_iff (filter below predicate)
  | aggregate below groups aggregates =>
    exact @validateFrom_eq_ok_iff (aggregate below groups aggregates)

/-- The well formed plans are those of sound nodes. -/
theorem wellFormed_iff_isSoundThroughout {plan : Plan} :
    plan.WellFormed ↔ plan.IsSoundThroughout := by
  constructor
  · intro wellFormed
    cases plan with
    | output below =>
      obtain ⟨schema, derives⟩ := wellFormed
      have inner := nodes_of_derives derives
      refine ⟨fun node deeper => (inner node deeper).1, fun node isMember => ?_⟩
      rcases List.mem_cons.mp isMember with rfl | deeper
      · trivial
      · exact (inner node deeper).2.1
    | input | project | filter | aggregate =>
      obtain ⟨schema, derives⟩ := wellFormed
      have each := nodes_of_derives derives
      exact ⟨fun node deeper => (each node (List.mem_of_mem_tail deeper)).1,
        fun node isMember => (each node isMember).2.1⟩
  · rintro ⟨outputLast, sound⟩
    cases plan with
    | output below =>
      exact derives_of_sound outputLast fun node deeper => sound node (.tail _ deeper)
    | input | project | filter | aggregate =>
      refine derives_of_sound (fun node isMember => ?_) sound
      rcases List.mem_cons.mp isMember with rfl | deeper
      · rfl
      · exact outputLast node deeper

/-- Every node of a well formed plan has a checked schema. -/
theorem hasCheckedSchema_of_wellFormed {plan : Plan} (wellFormed : plan.WellFormed) :
    ∀ node ∈ plan.nodes, node.HasCheckedSchema := by
  intro node isMember
  cases plan with
  | output below =>
    obtain ⟨schema, derives⟩ := wellFormed
    have produced : below.schema = .ok schema := schema_of_derives derives
    rcases List.mem_cons.mp isMember with rfl | deeper
    · exact ⟨schema, produced, produced⟩
    · exact (nodes_of_derives derives node deeper).2.2
  | input | project | filter | aggregate =>
    obtain ⟨schema, derives⟩ := wellFormed
    exact (nodes_of_derives derives node isMember).2.2

/-- Validation accepts exactly the plans of sound nodes with an output at most at the root, it
refuses plans as invalid only, and every node of an accepted plan has the schema that checking its
expressions gives. -/
theorem validation_is_exact (plan : Plan) :
    (plan.validate = .ok () ↔ plan.IsSoundThroughout) ∧
      (∀ error, plan.validate = .error error → error.kind = .validation) ∧
      (plan.validate = .ok () → ∀ node ∈ plan.nodes, node.HasCheckedSchema) := by
  refine ⟨?_, plan.failsAs_validateFrom true, fun accepted => ?_⟩
  · rw [validate_eq_ok_iff, wellFormed_iff_isSoundThroughout]
  · exact hasCheckedSchema_of_wellFormed (validate_eq_ok_iff.mp accepted)

/-- Above an aggregation, the columns of the table are unknown. -/
example :
    (project (aggregate (input ⟨"t", ⟨[⟨"id", .int64, false⟩]⟩, none⟩) []
      [.aggregate .count (.column "id")]) [.column "id"]).validate =
      .error (.unknownColumn "id") := by
  decide

end Plan

end ColumnQuery
