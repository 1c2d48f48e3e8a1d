import ColumnQuery.Column
import ColumnQuery.Expr.Checking

/-! # Expressions on single rows

A row is a list of cells, named by the fields of a schema. The value of an expression on a row does
not depend on other rows or on how rows are stored: a column is the cell of the first field of its
name, and operators apply to the values of their operands. An expression has no value where it
names a column that the row does not have, where the types of two operands do not fit an operator,
and where an aggregate function occurs.
-/

namespace ColumnQuery

/-- The cells of one row. -/
abbrev Row := List Scalar

/-- The cell of the first field of a name; null if there is none. -/
def Schema.cellOf (schema : Schema) (row : Row) (name : String) : Scalar :=
  match schema.ordinalOf? name with
  | some ordinal => row.getD ordinal .null
  | none => .null

namespace Expr

/-- The value of an expression on a row, taking null where it has none. -/
def valueOn (schema : Schema) (row : Row) : Expr → Scalar
  | column name => schema.cellOf row name
  | literal value => value.toScalar
  | binary op left right => op.apply (left.valueOn schema row) (right.valueOn schema row)
  | aggregate _ _ => .null

/-- The value of an expression on a row, or why it has none. -/
def evaluateOn (place : ExprPlace) (schema : Schema) (row : Row) : Expr → Except Error Scalar
  | column name =>
    match schema.field? name with
    | some _ => .ok (schema.cellOf row name)
    | none => .error (.unknownColumn name)
  | literal value => .ok value.toScalar
  | binary op left right => do
    let leftValue ← left.evaluateOn place schema row
    let rightValue ← right.evaluateOn place schema row
    match operandFault? op (← left.type schema) (← right.type schema) (binary op left right) with
    | some error => .error error
    | none => return op.apply leftValue rightValue
  | aggregate function operand => .error (.aggregateNotAllowed place (aggregate function operand))

/-- The truth value of a predicate on a row, none where the predicate is null. -/
def truthOn (schema : Schema) (row : Row) (predicate : Expr) : Except Error (Option Bool) := do
  let value ← predicate.evaluateOn .filter schema row
  let type ← predicate.type schema
  if type = .boolean then return Column.truthOf value
  else .error (.predicateNotBoolean predicate type)

end Expr

end ColumnQuery
