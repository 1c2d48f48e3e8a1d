import ColumnQuery.Expr.Checking
import ColumnQuery.Plan.Basic

/-! # Validation of plans

A plan is well formed when its names exist, its expressions are well typed where they stand, and
the output is its root and only its root. `Plan.WellFormed` states this and `Plan.validate` decides
it, from the leaf up; the first node that is not well formed is reported.
-/

namespace ColumnQuery.Plan

/-- An aggregate expression: one function of a well typed operand without aggregates. -/
def IsAggregation (schema : Schema) (expr : Expr) : Prop :=
  ∃ function operand type, expr = .aggregate function operand ∧
    operand.containsAggregate = false ∧ expr.HasType schema type

/-- A well typed expression without aggregate functions. -/
def IsRowwise (schema : Schema) (expr : Expr) : Prop :=
  expr.containsAggregate = false ∧ ∃ type, expr.HasType schema type

/-- A plan without an output node whose names exist and whose expressions are well typed, and which
produces rows of a schema. -/
inductive Derives : Plan → Schema → Prop where
  | whole {table : TableInput} (all : table.projection = none) : Derives (input table) table.source
  | narrowed {table : TableInput} {names : List String} {fields : List Field}
      (chosen : table.projection = some names)
      (found : names.map table.source.field? = fields.map some) : Derives (input table) ⟨fields⟩
  | project {below : Plan} {schema : Schema} {exprs : List Expr} {fields : List Field}
      (derives : Derives below schema) (nonempty : exprs ≠ [])
      (rowwise : ∀ expr ∈ exprs, IsRowwise schema expr)
      (named : exprs.map (Expr.toField schema) = fields.map .ok) :
      Derives (project below exprs) ⟨fields⟩
  | filter {below : Plan} {schema : Schema} {predicate : Expr} (derives : Derives below schema)
      (rowwise : predicate.containsAggregate = false)
      (boolean : predicate.HasType schema .boolean) : Derives (filter below predicate) schema
  | aggregate {below : Plan} {schema : Schema} {groups aggregates : List Expr} {fields : List Field}
      (derives : Derives below schema) (nonempty : groups ≠ [] ∨ aggregates ≠ [])
      (rowwise : ∀ expr ∈ groups, IsRowwise schema expr)
      (aggregations : ∀ expr ∈ aggregates, IsAggregation schema expr)
      (named : (groups ++ aggregates).map (Expr.toField schema) = fields.map .ok) :
      Derives (aggregate below groups aggregates) ⟨fields⟩

/-- A plan that is fit to be compiled, with or without an output node at its root. -/
def WellFormed (plan : Plan) : Prop :=
  match plan with
  | output below => ∃ schema, Derives below schema
  | plan => ∃ schema, Derives plan schema

/-- Check the columns that a leaf reads. -/
def validateInput (table : TableInput) : Except Error Unit :=
  match table.projection with
  | none => .ok ()
  | some names =>
    match names.find? fun name => (table.source.field? name).isNone with
    | some name => .error (.inputProjection name)
    | none => .ok ()

/-- Check an expression that is evaluated by row. -/
def validateRowwise (place : ExprPlace) (schema : Schema) (expr : Expr) :
    Except Error DataType := do
  expr.refuseAggregate place
  expr.check schema

def validateAggregation (schema : Schema) (expr : Expr) : Except Error Unit :=
  match expr with
  | .aggregate function operand => do
    operand.refuseAggregate .aggregateOperand
    discard <| Expr.check schema (.aggregate function operand)
  | other => .error (.notAnAggregate other)

def validatePredicate (schema : Schema) (predicate : Expr) : Except Error Unit := do
  let type ← predicate.check schema
  if type = .boolean then return else .error (.predicateNotBoolean predicate type)

/-- Check the nodes of a plan from the leaf up. -/
def validateFrom (isRoot : Bool) : Plan → Except Error Unit
  | input table => validateInput table
  | project below exprs => do
    below.validateFrom false
    if exprs.isEmpty then .error .emptyProjection
    let schema ← below.schema
    exprs.forM fun expr => discard <| validateRowwise .projection schema expr
  | filter below predicate => do
    below.validateFrom false
    predicate.refuseAggregate .filter
    validatePredicate (← below.schema) predicate
  | aggregate below groups aggregates => do
    below.validateFrom false
    if groups.isEmpty && aggregates.isEmpty then .error .emptyAggregate
    let schema ← below.schema
    groups.forM fun expr => discard <| validateRowwise .groupBy schema expr
    aggregates.forM (validateAggregation schema)
  | output below => do
    below.validateFrom false
    if isRoot then return else .error .outputNotLast

def validate (plan : Plan) : Except Error Unit := plan.validateFrom true

end ColumnQuery.Plan
