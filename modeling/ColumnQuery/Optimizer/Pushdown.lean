import ColumnQuery.Plan.Basic

/-! # Reading only the columns that are used

A plan that computes its own columns, by a projection or an aggregation, needs only those columns
of its table that some expression above names. `Plan.pushdown` narrows the leaf to them, in the
order in which they first occur from the root down. It leaves the leaf as it is when every column
of the table reaches the result, and when no name that occurs is a column of the leaf.
-/

namespace ColumnQuery

namespace Plan

/-- The names of the columns that occur in the expressions of a plan, from the root down and from
left to right. -/
def columnNames : Plan → List String
  | input _ => []
  | project below exprs => exprs.flatMap Expr.columns ++ below.columnNames
  | filter below predicate => predicate.columns ++ below.columnNames
  | aggregate below groups aggregates =>
    (groups ++ aggregates).flatMap Expr.columns ++ below.columnNames
  | output below => below.columnNames

/-- Whether some node of a plan computes columns of its own. -/
def definesColumns : Plan → Bool
  | input _ => false
  | project _ _ | aggregate _ _ _ => true
  | filter below _ | output below => below.definesColumns

/-- Change the table at the leaf of a plan. -/
def mapTable (change : TableInput → Except Error TableInput) : Plan → Except Error Plan
  | input table => return input (← change table)
  | project below exprs => return project (← below.mapTable change) exprs
  | filter below predicate => return filter (← below.mapTable change) predicate
  | aggregate below groups aggregates =>
    return aggregate (← below.mapTable change) groups aggregates
  | output below => return output (← below.mapTable change)

end Plan

/-- Read only those of some columns that the table has. -/
def TableInput.narrow (names : List String) (table : TableInput) : Except Error TableInput := do
  if names.isEmpty then return table
  let available ← table.schema
  let kept := names.filter fun name => (available.field? name).isSome
  return if kept.isEmpty then table else { table with projection := some kept }

/-- Narrow the leaf of a plan to the columns that the plan names. -/
def Plan.pushdown (plan : Plan) : Except Error Plan :=
  if plan.definesColumns then plan.mapTable (TableInput.narrow plan.columnNames.eraseDups)
  else .ok plan

/-- Add a name that is not required yet. -/
def requireName (required : List String) (name : String) : List String :=
  if name ∈ required then required else required ++ [name]

/-- Add the names of an expression that are not required yet. -/
def Expr.require (required : List String) (expr : Expr) : List String :=
  expr.columns.foldl requireName required

/-- Pushdown as one walk from the root down, which carries the names that the nodes above require
and whether they need all columns. -/
def Plan.pushdownFrom (required : List String) (needsAll : Bool) : Plan → Except Error Plan
  | input table =>
    if needsAll then return input table else return input (← table.narrow required)
  | project below exprs =>
    return project (← below.pushdownFrom (exprs.foldl Expr.require required) false) exprs
  | filter below predicate =>
    return filter (← below.pushdownFrom (predicate.require required) needsAll) predicate
  | aggregate below groups aggregates => do
    let required := (groups ++ aggregates).foldl Expr.require required
    return aggregate (← below.pushdownFrom required false) groups aggregates
  | output below => return output (← below.pushdownFrom required needsAll)

end ColumnQuery
