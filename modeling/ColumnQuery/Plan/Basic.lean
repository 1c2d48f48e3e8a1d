import ColumnQuery.Expr.Typing

/-! # Logical plans

A plan is a chain of relational operations over one table. Its leaf reads the table, possibly only
some of its columns, and each further node transforms the rows of the node below. The columns of a
node are named, and expressions refer to the columns of the node below by name.
-/

namespace ColumnQuery

/-- A table to read. -/
structure TableInput where
  /-- The name of the table in displays. -/
  path : String
  /-- The schema of the table. -/
  source : Schema
  /-- The columns to read; without a choice, all of them. -/
  projection : Option (List String)
  deriving DecidableEq, Repr

def TableInput.schema (table : TableInput) : Except Error Schema :=
  match table.projection with
  | none => .ok table.source
  | some names => table.source.select names

/-- A chain of operations from the root down to one table. -/
inductive Plan where
  | input (table : TableInput)
  | project (input : Plan) (exprs : List Expr)
  | filter (input : Plan) (predicate : Expr)
  | aggregate (input : Plan) (groups aggregates : List Expr)
  /-- Hand the rows to the consumer of the query. -/
  | output (input : Plan)
  deriving DecidableEq, Repr

namespace Plan

def below? : Plan → Option Plan
  | input _ => none
  | project below _ | filter below _ | aggregate below _ _ | output below => some below

def table : Plan → TableInput
  | input table => table
  | project below _ | filter below _ | aggregate below _ _ | output below => below.table

/-- The schema of the values of some expressions. -/
def fieldsOf (schema : Schema) (exprs : List Expr) : Except Error Schema := do
  return ⟨← exprs.mapM (Expr.toField schema)⟩

def schema : Plan → Except Error Schema
  | input table => table.schema
  | project below exprs => do fieldsOf (← below.schema) exprs
  | filter below _ => below.schema
  | aggregate below groups aggregates => do fieldsOf (← below.schema) (groups ++ aggregates)
  | output below => below.schema

def size : Plan → Nat
  | input _ => 1
  | project below _ | filter below _ | aggregate below _ _ | output below => below.size + 1

end Plan

end ColumnQuery
