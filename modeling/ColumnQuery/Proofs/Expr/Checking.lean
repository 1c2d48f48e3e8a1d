import ColumnQuery.Expr.Checking
import ColumnQuery.Proofs.Expr.Binding

/-! # The checker decides typing

Checking an expression gives a type exactly when the expression is well typed, and then this type.
A well typed expression has a field in the schema of its results.
-/

namespace ColumnQuery

namespace Expr

variable {schema : Schema}

private theorem operandFault?_eq_none_iff {op : Operator} {left right : DataType} {whole : Expr} :
    operandFault? op left right whole = none ↔
      if op.isLogical then left = .boolean ∧ right = .boolean else left = right := by
  unfold operandFault?
  split
  · split <;> simp_all
  · split <;> simp_all

private theorem check_binary_eq_ok_iff {op : Operator} {left right : Expr} {type : DataType} :
    (binary op left right).check schema = .ok type ↔
      type = .boolean ∧ ∃ leftType rightType, left.check schema = .ok leftType ∧
        right.check schema = .ok rightType ∧
        operandFault? op leftType rightType (binary op left right) = none := by
  simp only [check, bind_eq_ok_iff]
  constructor
  · rintro ⟨leftType, leftChecked, rightType, rightChecked, success⟩
    split at success
    · cases success
    · cases success
      exact ⟨rfl, leftType, rightType, leftChecked, rightChecked, ‹_›⟩
  · rintro ⟨rfl, leftType, rightType, leftChecked, rightChecked, faultless⟩
    exact ⟨leftType, leftChecked, rightType, rightChecked, by rw [faultless]; rfl⟩

private theorem hasType_of_check {expr : Expr} {type : DataType}
    (checked : expr.check schema = .ok type) : expr.HasType schema type := by
  induction expr generalizing type with
  | column name =>
    simp only [check, Expr.type] at checked
    split at checked
    · cases checked
      exact .column ‹_›
    · cases checked
  | literal value =>
    cases checked
    exact .literal value
  | binary op left right leftIH rightIH =>
    obtain ⟨rfl, leftType, rightType, leftChecked, rightChecked, faultless⟩ :=
      check_binary_eq_ok_iff.mp checked
    have taken := operandFault?_eq_none_iff.mp faultless
    split at taken
    · obtain ⟨rfl, rfl⟩ := taken
      exact .logical ‹_› (leftIH leftChecked) (rightIH rightChecked)
    · subst taken
      exact .comparison (Bool.eq_false_iff.mpr ‹_›) (leftIH leftChecked) (rightIH rightChecked)
  | aggregate function operand ih =>
    obtain ⟨operandType, operandChecked, accepted⟩ := bind_eq_ok_iff.mp checked
    simp only [AggregateFunction.resultType] at accepted
    split at accepted
    · cases accepted
      exact .aggregate (ih operandChecked) ‹_›
    · cases accepted

theorem check_of_hasType {expr : Expr} {type : DataType} (typed : expr.HasType schema type) :
    expr.check schema = .ok type := by
  induction typed with
  | column found => simp only [check, Expr.type, found]
  | literal => rfl
  | comparison comparing _ _ leftIH rightIH =>
    refine check_binary_eq_ok_iff.mpr ⟨rfl, _, _, leftIH, rightIH, ?_⟩
    exact operandFault?_eq_none_iff.mpr (by simp [comparing])
  | logical logical _ _ leftIH rightIH =>
    refine check_binary_eq_ok_iff.mpr ⟨rfl, _, _, leftIH, rightIH, ?_⟩
    exact operandFault?_eq_none_iff.mpr (by simp [logical])
  | aggregate operandTyped accepted ih =>
    simp only [check, ih, ok_bind, AggregateFunction.resultType, accepted]

theorem check_eq_ok_iff {expr : Expr} {type : DataType} :
    expr.check schema = .ok type ↔ expr.HasType schema type :=
  ⟨hasType_of_check, check_of_hasType⟩

/-- A well typed expression has a field of its type. -/
theorem toField_of_hasType {expr : Expr} {type : DataType} (typed : expr.HasType schema type) :
    ∃ field, expr.toField schema = .ok field ∧ field.type = type := by
  cases typed with
  | @column name field found => exact ⟨field, by simp only [toField, found], rfl⟩
  | literal | comparison | logical => exact ⟨_, rfl, rfl⟩
  | @aggregate function operand _ _ operandTyped accepted =>
    have typed := type_of_hasType (.aggregate operandTyped accepted)
    exact ⟨⟨(aggregate function operand).text, type, true⟩,
      by simp only [toField, typed, ok_bind, pure_eq_ok], rfl⟩

end Expr

end ColumnQuery
