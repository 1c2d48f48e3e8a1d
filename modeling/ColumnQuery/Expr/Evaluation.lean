import ColumnQuery.Batch

/-! # Evaluating bound expressions

An expression is evaluated for all rows of a batch at once and gives a column of as many rows. The
operands of an operator must agree in length and type, and `AND` and `OR` take Booleans.
-/

namespace ColumnQuery

/-- The cells of an operator on two columns, row by row. -/
def Operator.applyCells (op : Operator) (left right : List Scalar) : List Scalar :=
  List.zipWith op.apply left right

theorem Operator.applyCells_fitsIn (op : Operator) (left right : List Scalar) :
    ∀ cell ∈ op.applyCells left right, cell.FitsIn .boolean := by
  intro cell isMember
  induction left generalizing right with
  | nil => simp [applyCells] at isMember
  | cons first rest ih =>
    cases right with
    | nil => simp [applyCells] at isMember
    | cons other others =>
      rcases List.mem_cons.mp isMember with same | later
      · exact same ▸ op.apply_fitsIn_boolean first other
      · exact ih others later

def Operator.evaluate (op : Operator) (left right : Column) : Except Error Column :=
  if left.length ≠ right.length then .error (.operandLengths op left.length right.length)
  else if left.type ≠ right.type then .error (.operandTypes op left.type right.type)
  else if op.isLogical && left.type != .boolean then .error (.notBoolean left.type)
  else
    .ok (.ofBooleans (op.applyCells left.cells right.cells)
      (op.applyCells_fitsIn left.cells right.cells))

/-- The value of an expression in every row of a batch. -/
def BoundExpr.evaluate (batch : Batch) : BoundExpr → Except Fault Column
  | column index _ =>
    match batch.column? index with
    | some found => .ok found
    | none => .error (.error (.columnOutOfRange index batch.columns.length))
  | literal value => liftError (Column.constant value batch.rowCount)
  | binary op left right => do
    let leftColumn ← left.evaluate batch
    let rightColumn ← right.evaluate batch
    liftError (op.evaluate leftColumn rightColumn)
  | aggregate function operand =>
    .error (.misuse (.rowwiseAggregate (.aggregate function operand)))

end ColumnQuery
