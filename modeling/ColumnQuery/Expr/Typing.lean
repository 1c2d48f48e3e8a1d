import ColumnQuery.Schema

/-! # Types of expressions

The type of an expression over a schema, the field it contributes to an output schema, and its
binding to column positions. A column keeps its field; any other expression gives a nullable field
named by its text.
-/

namespace ColumnQuery

/-- The result type of an aggregate function, or the refusal of its operand. -/
def AggregateFunction.resultType (function : AggregateFunction) (operand : DataType) :
    Except Error DataType :=
  match function.resultType? operand with
  | some type => .ok type
  | none => .error (.operandNotAccepted function operand)

namespace Expr

def type (schema : Schema) : Expr → Except Error DataType
  | column name =>
    match schema.field? name with
    | some field => .ok field.type
    | none => .error (.unknownColumn name)
  | literal value => .ok value.type
  | binary _ _ _ => .ok .boolean
  | aggregate function operand => do function.resultType (← operand.type schema)

/-- The field that an expression contributes to an output schema. -/
def toField (schema : Schema) : Expr → Except Error Field
  | column name =>
    match schema.field? name with
    | some field => .ok field
    | none => .error (.unknownColumn name)
  | expr => do return ⟨expr.text, ← expr.type schema, true⟩

/-- Replace column names by positions in a schema. -/
def bind (schema : Schema) : Expr → Except Error BoundExpr
  | column name =>
    match schema.ordinalOf? name, schema.field? name with
    | some index, some field => .ok (.column index field.type)
    | _, _ => .error (.columnNotInInput name)
  | literal value => .ok (.literal value.toScalar)
  | binary op left right => do return .binary op (← left.bind schema) (← right.bind schema)
  | aggregate function operand => do return .aggregate function (← operand.bind schema)

end Expr

/-- The type that a bound expression carries. -/
def BoundExpr.type : BoundExpr → Except Error DataType
  | column _ type => .ok type
  | literal value =>
    match value.type? with
    | some type => .ok type
    | none => .error .untypedNull
  | binary _ _ _ => .ok .boolean
  | aggregate function operand => do function.resultType (← operand.type)

end ColumnQuery
