import ColumnQuery.Expr.Basic

/-! # Expressions bound to column positions

A bound expression refers to the columns of a batch by position and carries their types. It is the
form in which operators evaluate expressions.
-/

namespace ColumnQuery

/-- An expression over the columns of a batch. -/
inductive BoundExpr where
  | column (index : Nat) (type : DataType)
  | literal (value : Scalar)
  | binary (op : Operator) (left right : BoundExpr)
  /-- Kept so that an aggregate operator knows which function to fold; it has no value by row. -/
  | aggregate (function : AggregateFunction) (operand : BoundExpr)
  deriving DecidableEq, Repr

namespace BoundExpr

/-- The text of a bound expression: columns by position, strings between single quotes. -/
def text : BoundExpr → String
  | column index _ => s!"#{index}"
  | literal (.utf8 s) => s!"'{s}'"
  | literal value => value.text
  | binary op left right => s!"{left.text} {op.symbol} {right.text}"
  | aggregate function operand => s!"{function.name}({operand.text})"

def containsAggregate : BoundExpr → Bool
  | column _ _ => false
  | literal _ => false
  | binary _ left right => left.containsAggregate || right.containsAggregate
  | aggregate _ _ => true

end BoundExpr

end ColumnQuery
