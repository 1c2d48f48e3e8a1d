import ColumnQuery.Expr.Typing

/-! # Type checking of expressions

The type of an expression does not depend on the operands of its operators: a comparison is Boolean
whatever it compares. Checking looks at the operands as well. `Expr.HasType` states which
expressions are well typed and `Expr.check` decides it; where it refuses, it says why.
-/

namespace ColumnQuery.Expr

/-- An expression is well typed over a schema and has a type. -/
inductive HasType (schema : Schema) : Expr → DataType → Prop where
  | column {name : String} {field : Field} (found : schema.field? name = some field) :
      HasType schema (column name) field.type
  | literal (value : Literal) : HasType schema (literal value) value.type
  | comparison {op : Operator} {left right : Expr} {type : DataType}
      (comparing : op.isLogical = false) (leftTyped : HasType schema left type)
      (rightTyped : HasType schema right type) : HasType schema (binary op left right) .boolean
  | logical {op : Operator} {left right : Expr} (logical : op.isLogical = true)
      (leftTyped : HasType schema left .boolean) (rightTyped : HasType schema right .boolean) :
      HasType schema (binary op left right) .boolean
  | aggregate {function : AggregateFunction} {operand : Expr} {type result : DataType}
      (operandTyped : HasType schema operand type)
      (accepted : function.resultType? type = some result) :
      HasType schema (aggregate function operand) result

/-- The types of two operands that an operator does not take. -/
def operandFault? (op : Operator) (left right : DataType) (whole : Expr) : Option Error :=
  if op.isLogical then
    if left = .boolean ∧ right = .boolean then none
    else some (.logicalOperands op left right whole)
  else if left = right then none
  else some (.comparisonOperands whole left right)

/-- The type of an expression, or why it is not well typed. -/
def check (schema : Schema) : Expr → Except Error DataType
  | column name => (column name).type schema
  | literal value => .ok value.type
  | binary op left right => do
    let leftType ← left.check schema
    let rightType ← right.check schema
    match operandFault? op leftType rightType (binary op left right) with
    | some error => .error error
    | none => return .boolean
  | aggregate function operand => do function.resultType (← operand.check schema)

/-- Refuse an aggregate function in an expression that is evaluated by row. -/
def refuseAggregate (place : ExprPlace) (expr : Expr) : Except Error Unit :=
  if expr.containsAggregate then .error (.aggregateNotAllowed place expr) else .ok ()

end ColumnQuery.Expr
