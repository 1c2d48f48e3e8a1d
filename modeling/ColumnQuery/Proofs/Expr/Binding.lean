import ColumnQuery.Expr.Evaluation
import ColumnQuery.Proofs.Batch.Rows
import ColumnQuery.Proofs.Schema.Lookup

/-! # Binding and evaluating well typed expressions

A well typed expression without aggregate functions has a value on every row and can be bound. The
bound expression is typed by the types of the columns, has the same value by position, and its
column over a batch holds that value for each row.
-/

namespace ColumnQuery

namespace BoundExpr

/-- A bound expression, evaluated by row, has a type over columns of some types. -/
inductive HasType (types : List DataType) : BoundExpr → DataType → Prop where
  | column {index : Nat} {type : DataType} (found : types[index]? = some type) :
      HasType types (column index type) type
  | literal (value : Literal) : HasType types (literal value.toScalar) value.type
  | comparison {op : Operator} {left right : BoundExpr} {type : DataType}
      (comparing : op.isLogical = false) (leftTyped : HasType types left type)
      (rightTyped : HasType types right type) : HasType types (binary op left right) .boolean
  | logical {op : Operator} {left right : BoundExpr} (logical : op.isLogical = true)
      (leftTyped : HasType types left .boolean) (rightTyped : HasType types right .boolean) :
      HasType types (binary op left right) .boolean

def valueAt (row : Row) : BoundExpr → Scalar
  | column index _ => row.getD index .null
  | literal value => value
  | binary op left right => op.apply (left.valueAt row) (right.valueAt row)
  | aggregate _ _ => .null

theorem type_of_hasType {types : List DataType} {expr : BoundExpr} {type : DataType}
    (typed : expr.HasType types type) : expr.type = .ok type := by
  cases typed with
  | column found => rfl
  | literal value => simp [BoundExpr.type]
  | comparison | logical => rfl

/-- The value of a typed expression on a row of these types is of its type. -/
theorem fits_valueAt {types : List DataType} {expr : BoundExpr} {type : DataType}
    (typed : expr.HasType types type) {row : Row} (fits : RowFits types row) :
    (expr.valueAt row).FitsIn type := by
  cases typed with
  | column found => exact fits.fits_getD found
  | literal value => exact .inr value.type?_toScalar
  | comparison | logical => exact Operator.apply_fitsIn_boolean ..

end BoundExpr

theorem Column.constant_literal (value : Literal) (count : Nat) :
    ∃ column, constant value.toScalar count = .ok column ∧ column.type = value.type ∧
      column.cells = List.replicate count value.toScalar := by
  unfold constant
  split
  · rename_i none
    simp at none
  · rename_i type known
    refine ⟨_, rfl, ?_, rfl⟩
    simpa using known.symm

/-- Operands of one length and of types that an operator takes give a column. -/
theorem Operator.evaluate_ok {op : Operator} {left right : Column}
    (lengths : left.length = right.length) (types : left.type = right.type)
    (boolean : op.isLogical = true → left.type = .boolean) :
    ∃ column, op.evaluate left right = .ok column ∧ column.type = .boolean ∧
      column.cells = op.applyCells left.cells right.cells := by
  have accepted : (op.isLogical && right.type != .boolean) = false := by
    cases logical : op.isLogical with
    | false => rfl
    | true => simp [← types, boolean logical]
  refine ⟨.ofBooleans _ (op.applyCells_fitsIn left.cells right.cells), ?_, rfl, rfl⟩
  simp only [evaluate, lengths, types, accepted, ne_eq, not_true_eq_false, if_false,
    Bool.false_eq_true]

theorem Operator.evaluate_eq_ok_iff {op : Operator} {left right column : Column} :
    op.evaluate left right = .ok column ↔
      left.length = right.length ∧ left.type = right.type ∧
        (op.isLogical = true → left.type = .boolean) ∧ column.type = .boolean ∧
        column.cells = op.applyCells left.cells right.cells := by
  constructor
  · intro made
    unfold evaluate at made
    split at made
    · cases made
    · rename_i lengths
      split at made
      · cases made
      · rename_i types
        split at made <;> cases made
        rename_i accepted
        refine ⟨not_not.mp lengths, not_not.mp types, fun logical => ?_, rfl, rfl⟩
        simpa [logical] using accepted
  · rintro ⟨lengths, types, boolean, isBoolean, cells⟩
    obtain ⟨other, made, otherIsBoolean, otherCells⟩ := evaluate_ok lengths types boolean
    rw [made, Column.ext (otherIsBoolean.trans isBoolean.symm) (otherCells.trans cells.symm)]

/-- The column of an operator holds its value on each row if its operands do. -/
theorem BoundExpr.evaluate_binary {batch : Batch} {op : Operator} {left right : BoundExpr}
    {leftColumn rightColumn : Column} (leftMade : left.evaluate batch = .ok leftColumn)
    (rightMade : right.evaluate batch = .ok rightColumn)
    (leftCells : leftColumn.cells = batch.rows.map fun row => left.valueAt row)
    (rightCells : rightColumn.cells = batch.rows.map fun row => right.valueAt row)
    (types : leftColumn.type = rightColumn.type)
    (boolean : op.isLogical = true → leftColumn.type = .boolean) :
    ∃ column, (binary op left right).evaluate batch = .ok column ∧ column.type = .boolean ∧
      column.cells = batch.rows.map fun row => (binary op left right).valueAt row := by
  have lengths : leftColumn.length = rightColumn.length := by
    simp only [Column.length, leftCells, rightCells, List.length_map]
  obtain ⟨column, made, isType, cells⟩ := Operator.evaluate_ok lengths types boolean
  refine ⟨column, by simp only [evaluate, leftMade, rightMade, ok_bind, made, liftError_ok],
    isType, ?_⟩
  rw [cells, leftCells, rightCells, Operator.applyCells, List.zipWith_map, List.zipWith_self]
  rfl

/-- A typed expression gives a column of its type that holds its value on each row. -/
theorem BoundExpr.evaluate_of_hasType {batch : Batch} {expr : BoundExpr} {type : DataType}
    (typed : expr.HasType batch.schema.types type) :
    ∃ column, expr.evaluate batch = .ok column ∧ column.type = type ∧
      column.cells = batch.rows.map fun row => expr.valueAt row := by
  induction typed with
  | @column index type found =>
    rw [← batch.matching.types, List.getElem?_map] at found
    obtain ⟨column, isColumn, isType⟩ := Option.map_eq_some_iff.mp found
    refine ⟨column, ?_, isType, Batch.cells_eq_read isColumn⟩
    simp only [evaluate, Batch.column?, isColumn]
  | literal value =>
    obtain ⟨column, made, isType, cells⟩ := Column.constant_literal value batch.rowCount
    refine ⟨column, by simp only [evaluate, made, liftError_ok], isType, ?_⟩
    rw [cells]
    simp only [valueAt, List.map_const', Batch.length_rows]
  | @comparison op left right type comparing _ _ leftIH rightIH =>
    obtain ⟨leftColumn, leftMade, leftType, leftCells⟩ := leftIH
    obtain ⟨rightColumn, rightMade, rightType, rightCells⟩ := rightIH
    exact evaluate_binary leftMade rightMade leftCells rightCells
      (leftType.trans rightType.symm) (by simp [comparing])
  | @logical op left right logical _ _ leftIH rightIH =>
    obtain ⟨leftColumn, leftMade, leftType, leftCells⟩ := leftIH
    obtain ⟨rightColumn, rightMade, rightType, rightCells⟩ := rightIH
    exact evaluate_binary leftMade rightMade leftCells rightCells
      (leftType.trans rightType.symm) fun _ => leftType

section Bind

variable {schema : Schema}

theorem Expr.type_of_hasType {expr : Expr} {type : DataType} (typed : expr.HasType schema type) :
    expr.type schema = .ok type := by
  induction typed with
  | column found => simp only [Expr.type, found]
  | literal | comparison | logical => rfl
  | aggregate operandTyped accepted ih =>
    simp only [Expr.type, ih, ok_bind, AggregateFunction.resultType, accepted]

/-- A well typed expression that is evaluated by row has a value on every row. -/
theorem Expr.evaluateOn_of_hasType {expr : Expr} {type : DataType}
    (typed : expr.HasType schema type) (rowwise : expr.containsAggregate = false)
    (place : ExprPlace) (row : Row) :
    expr.evaluateOn place schema row = .ok (expr.valueOn schema row) := by
  induction typed with
  | column found => simp only [evaluateOn, found, valueOn]
  | literal => rfl
  | @comparison op left right type comparing leftTyped rightTyped leftIH rightIH =>
    obtain ⟨leftRowwise, rightRowwise⟩ := Bool.or_eq_false_iff.mp rowwise
    simp [evaluateOn, leftIH leftRowwise, rightIH rightRowwise, type_of_hasType leftTyped,
      type_of_hasType rightTyped, operandFault?, comparing, valueOn]
  | @logical op left right logical leftTyped rightTyped leftIH rightIH =>
    obtain ⟨leftRowwise, rightRowwise⟩ := Bool.or_eq_false_iff.mp rowwise
    simp [evaluateOn, leftIH leftRowwise, rightIH rightRowwise, type_of_hasType leftTyped,
      type_of_hasType rightTyped, operandFault?, logical, valueOn]
  | aggregate => cases rowwise

/-- A well typed predicate has a truth value on every row. -/
theorem Expr.truthOn_of_hasType {predicate : Expr} (boolean : predicate.HasType schema .boolean)
    (rowwise : predicate.containsAggregate = false) (row : Row) :
    predicate.truthOn schema row = .ok (Column.truthOf (predicate.valueOn schema row)) := by
  simp only [truthOn, evaluateOn_of_hasType boolean rowwise, ok_bind, type_of_hasType boolean,
    if_true, pure_eq_ok]

/-- A well typed expression that is evaluated by row binds to one of the same type and value. -/
theorem Expr.bind_of_hasType {expr : Expr} {type : DataType} (typed : expr.HasType schema type)
    (rowwise : expr.containsAggregate = false) :
    ∃ bound, expr.bind schema = .ok bound ∧ bound.HasType schema.types type ∧
      ∀ row, bound.valueAt row = expr.valueOn schema row := by
  induction typed with
  | @column name field found =>
    obtain ⟨ordinal, position, isField⟩ := Schema.ordinalOf?_of_field? found
    refine ⟨.column ordinal field.type, by simp only [bind, position, found], .column ?_, ?_⟩
    · rw [Schema.types, List.getElem?_map, isField]
      rfl
    · intro row
      simp only [BoundExpr.valueAt, valueOn, Schema.cellOf, position]
  | literal value => exact ⟨_, rfl, .literal value, fun _ => rfl⟩
  | @comparison op left right type comparing leftTyped rightTyped leftIH rightIH =>
    obtain ⟨leftRowwise, rightRowwise⟩ := Bool.or_eq_false_iff.mp rowwise
    obtain ⟨leftBound, leftBinds, leftHasType, leftValue⟩ := leftIH leftRowwise
    obtain ⟨rightBound, rightBinds, rightHasType, rightValue⟩ := rightIH rightRowwise
    refine ⟨.binary op leftBound rightBound, by simp [bind, leftBinds, rightBinds],
      .comparison comparing leftHasType rightHasType, fun row => ?_⟩
    simp only [BoundExpr.valueAt, valueOn, leftValue, rightValue]
  | @logical op left right logical leftTyped rightTyped leftIH rightIH =>
    obtain ⟨leftRowwise, rightRowwise⟩ := Bool.or_eq_false_iff.mp rowwise
    obtain ⟨leftBound, leftBinds, leftHasType, leftValue⟩ := leftIH leftRowwise
    obtain ⟨rightBound, rightBinds, rightHasType, rightValue⟩ := rightIH rightRowwise
    refine ⟨.binary op leftBound rightBound, by simp [bind, leftBinds, rightBinds],
      .logical logical leftHasType rightHasType, fun row => ?_⟩
    simp only [BoundExpr.valueAt, valueOn, leftValue, rightValue]
  | aggregate => cases rowwise

end Bind

end ColumnQuery
