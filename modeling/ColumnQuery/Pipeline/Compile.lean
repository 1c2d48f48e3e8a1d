import ColumnQuery.Pipeline.Physical
import ColumnQuery.Pipeline.Strategy

/-! # Compiling plans

A plan with an output at its root, and nowhere else, compiles to a scan that feeds one chain: one
stage per node between the leaf and the root, in the order of the data. Every expression is bound to
the schema of the node below it, from the leaf up. Then the aggregations get their strategies, the
last one first.
-/

namespace ColumnQuery

/-- A node of a plan with its expressions bound. -/
inductive BoundNode where
  | project (exprs : List BoundExpr) (schema : Schema)
  | filter (predicate : BoundExpr) (schema : Schema)
  | aggregate (aggregation : Aggregation)
  deriving DecidableEq, Repr

def BoundNode.toStage (registry : StrategyRegistry) : BoundNode → Except Error Stage
  | project exprs schema => .ok (.project exprs schema)
  | filter predicate schema => .ok (.filter predicate schema)
  | aggregate aggregation => registry.create aggregation

/-- Build the stages of some nodes, the last one first. -/
def linkStages (registry : StrategyRegistry) : List BoundNode → Except Error (List Stage)
  | [] => .ok []
  | node :: rest => do
    let later ← linkStages registry rest
    let stage ← node.toStage registry
    return stage :: later

/-- Bind an entry of an aggregate list. -/
def Expr.bindAggregate (schema : Schema) : Expr → Except Error AggregateInput
  | aggregate function operand => do
    return ⟨function, ← operand.bind schema, ← operand.type schema⟩
  | other => .error (.unfoldable other)

/-- Bind a predicate, which must be Boolean. -/
def Expr.bindPredicate (schema : Schema) (predicate : Expr) : Except Error BoundExpr := do
  let bound ← predicate.bind schema
  let type ← bound.type
  if type = .boolean then return bound else .error (.selectionNotBoolean bound type)

namespace Plan

def hasOutput : Plan → Bool
  | input _ => false
  | project below _ | filter below _ | aggregate below _ _ => below.hasOutput
  | output _ => true

/-- The bound nodes above the leaf, in the order of the data. -/
def boundNodes : Plan → Except Error (List BoundNode)
  | input table => do
    discard table.schema
    return []
  | project below exprs => do
    let nodes ← below.boundNodes
    let schema ← (project below exprs).schema
    let received ← below.schema
    return nodes ++ [.project (← exprs.mapM (Expr.bind received)) schema]
  | filter below predicate => do
    let nodes ← below.boundNodes
    let schema ← below.schema
    return nodes ++ [.filter (← predicate.bindPredicate schema) schema]
  | aggregate below groups aggregates => do
    let nodes ← below.boundNodes
    let schema ← (aggregate below groups aggregates).schema
    let received ← below.schema
    let groups ← groups.mapM (Expr.bind received)
    let aggregates ← aggregates.mapM (Expr.bindAggregate received)
    return nodes ++ [.aggregate ⟨groups, aggregates, schema⟩]
  | output below => below.boundNodes

/-- The scan and the chain of a plan. -/
def compile (registry : StrategyRegistry) : Plan → Except Error Scan
  | output below => do
    if below.hasOutput then .error .nestedOutput
    let nodes ← below.boundNodes
    let read ← below.table.schema
    let produced ← below.schema
    let stages ← linkStages registry nodes
    return ⟨below.table.path, below.table.projection, read, [⟨stages, produced⟩]⟩
  | _ => .error .rootNotOutput

end Plan

end ColumnQuery
