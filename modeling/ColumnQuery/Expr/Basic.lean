import ColumnQuery.Operator
import ColumnQuery.Aggregate.Function

/-! # Expressions over named columns

An expression refers to the columns of its input by name. A column that is looked up by name is
the first one of that name, letter case included.
-/

namespace ColumnQuery

/-- A constant of a supported type. -/
inductive Literal where
  | boolean (value : Bool)
  | int32 (value : Int32)
  | int64 (value : Int64)
  | float64 (value : Binary64)
  | utf8 (value : String)
  deriving DecidableEq, Repr

namespace Literal

def type : Literal → DataType
  | boolean _ => .boolean
  | int32 _ => .int32
  | int64 _ => .int64
  | float64 _ => .float64
  | utf8 _ => .utf8

def toScalar : Literal → Scalar
  | boolean b => .boolean b
  | int32 n => .int32 n
  | int64 n => .int64 n
  | float64 x => .float64 x
  | utf8 s => .utf8 s

/-- Constants are written like values, strings between single quotes. -/
def text : Literal → String
  | utf8 s => s!"'{s}'"
  | literal => literal.toScalar.text

@[simp] theorem type?_toScalar (literal : Literal) :
    literal.toScalar.type? = some literal.type := by
  cases literal <;> rfl

end Literal

/-- An expression over the columns of a relation. -/
inductive Expr where
  | column (name : String)
  | literal (value : Literal)
  | binary (op : Operator) (left right : Expr)
  /-- A reduction of an inner expression, meaningful in an aggregate list only. -/
  | aggregate (function : AggregateFunction) (operand : Expr)
  deriving DecidableEq, Repr

namespace Expr

/-- The text of an expression. Nested operators are written without brackets. -/
def text : Expr → String
  | column name => s!"#{name}"
  | literal value => value.text
  | binary op left right => s!"{left.text} {op.symbol} {right.text}"
  | aggregate function operand => s!"{function.name}({operand.text})"

/-- The names of the columns referred to, left to right, repetitions included. -/
def columns : Expr → List String
  | column name => [name]
  | literal _ => []
  | binary _ left right => left.columns ++ right.columns
  | aggregate _ operand => operand.columns

/-- Whether an aggregate function occurs in an expression. -/
def containsAggregate : Expr → Bool
  | column _ => false
  | literal _ => false
  | binary _ left right => left.containsAggregate || right.containsAggregate
  | aggregate _ _ => true

end Expr

end ColumnQuery
