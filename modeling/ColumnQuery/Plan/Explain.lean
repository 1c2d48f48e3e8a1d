import ColumnQuery.Plan.Basic

/-! # Writing plans

A plan is written one node a line, root first, each node one tab deeper than the node above it.
-/

namespace ColumnQuery

/-- A line of a plan at a depth of indentation. -/
def indented (depth : Nat) (line : String) : String :=
  String.ofList (List.replicate depth '\t') ++ line ++ "\n"

def bracketed (texts : List String) : String := "[" ++ " ".intercalate texts ++ "]"

def projectionText : Option (List String) → String
  | none => "None"
  | some names => bracketed names

/-- The parts of an aggregation. -/
def aggregationText (groups aggregates : List String) : String :=
  s!"groupExpr={bracketed groups}, aggregateExpr={bracketed aggregates}"

namespace Plan

def headline : Plan → String
  | input table => s!"Input: {table.path}; projExpr={projectionText table.projection}"
  | project _ exprs => "Projection: " ++ ", ".intercalate (exprs.map Expr.text)
  | filter _ predicate => s!"Filter: {predicate.text}"
  | aggregate _ groups aggregates =>
    "Aggregate: " ++ aggregationText (groups.map Expr.text) (aggregates.map Expr.text)
  | output _ => "Output"

/-- The text of a plan whose root stands at a depth of indentation. -/
def textAt (depth : Nat) (plan : Plan) : String :=
  indented depth plan.headline ++
    match plan with
    | input _ => ""
    | project below _ | filter below _ | aggregate below _ _ | output below =>
      below.textAt (depth + 1)

def text (plan : Plan) : String := plan.textAt 0

end Plan

end ColumnQuery
