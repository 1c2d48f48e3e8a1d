import ColumnQuery.Plan.Meaning
import ColumnQuery.Proofs.Traversal

/-! # Expressions depend on the columns they name

Two schemas that find the same fields under the names of an expression give it the same type and
the same field. If two rows also hold the same cells under those names, the expression has the same
value on them, or fails alike.
-/

namespace ColumnQuery

/-- Two schemas find the same fields under some names. -/
def Schema.AgreesOn (names : List String) (schema other : Schema) : Prop :=
  ∀ name ∈ names, other.field? name = schema.field? name

/-- Two rows hold the same cells under some names. -/
def RowAgreesOn (names : List String) (schema : Schema) (row : Row) (other : Schema)
    (otherRow : Row) : Prop :=
  ∀ name ∈ names, other.cellOf otherRow name = schema.cellOf row name

theorem Schema.AgreesOn.of_subset {names fewer : List String} {schema other : Schema}
    (fields : schema.AgreesOn names other) (named : fewer ⊆ names) : schema.AgreesOn fewer other :=
  fun name isMember => fields name (named isMember)

theorem RowAgreesOn.of_subset {names fewer : List String} {schema other : Schema}
    {row otherRow : Row} (cells : RowAgreesOn names schema row other otherRow)
    (named : fewer ⊆ names) : RowAgreesOn fewer schema row other otherRow :=
  fun name isMember => cells name (named isMember)

namespace Expr

variable {schema other : Schema}

theorem type_congr {expr : Expr} (fields : schema.AgreesOn expr.columns other) :
    expr.type other = expr.type schema := by
  induction expr with
  | column name => simp only [type, fields name List.mem_cons_self]
  | literal value => rfl
  | binary op left right => rfl
  | aggregate function operand ih => simp only [type, ih fields]

theorem toField_congr {expr : Expr} (fields : schema.AgreesOn expr.columns other) :
    expr.toField other = expr.toField schema := by
  cases expr with
  | column name => simp only [toField, fields name List.mem_cons_self]
  | literal value => rfl
  | binary op left right => rfl
  | aggregate function operand => simp only [toField, type_congr fields]

theorem valueOn_congr {expr : Expr} {row otherRow : Row}
    (cells : RowAgreesOn expr.columns schema row other otherRow) :
    expr.valueOn other otherRow = expr.valueOn schema row := by
  induction expr with
  | column name => exact cells name List.mem_cons_self
  | literal value => rfl
  | binary op left right leftSame rightSame =>
    rw [valueOn, valueOn, leftSame (cells.of_subset (List.subset_append_left ..)),
      rightSame (cells.of_subset (List.subset_append_right ..))]
  | aggregate function operand => rfl

private theorem evaluateOn_congr {expr : Expr} {row otherRow : Row} (place : ExprPlace)
    (fields : schema.AgreesOn expr.columns other)
    (cells : RowAgreesOn expr.columns schema row other otherRow) :
    expr.evaluateOn place other otherRow = expr.evaluateOn place schema row := by
  induction expr with
  | column name =>
    simp only [evaluateOn, fields name List.mem_cons_self, cells name List.mem_cons_self]
  | literal value => rfl
  | binary op left right leftSame rightSame =>
    have leftFields := fields.of_subset (List.subset_append_left left.columns right.columns)
    have rightFields := fields.of_subset (List.subset_append_right left.columns right.columns)
    have leftCells := cells.of_subset (List.subset_append_left left.columns right.columns)
    have rightCells := cells.of_subset (List.subset_append_right left.columns right.columns)
    simp only [evaluateOn, type_congr leftFields, type_congr rightFields,
      leftSame leftFields leftCells, rightSame rightFields rightCells]
  | aggregate function operand => rfl

theorem truthOn_congr {predicate : Expr} {row otherRow : Row}
    (fields : schema.AgreesOn predicate.columns other)
    (cells : RowAgreesOn predicate.columns schema row other otherRow) :
    predicate.truthOn other otherRow = predicate.truthOn schema row := by
  simp only [truthOn, evaluateOn_congr .filter fields cells, type_congr fields]

theorem valueOnGroup_congr {expr : Expr} {pick otherPick : Row → Row}
    (fields : schema.AgreesOn expr.columns other)
    (cells : ∀ row, RowAgreesOn expr.columns schema (pick row) other (otherPick row))
    (rows : List Row) :
    expr.valueOnGroup other (rows.map otherPick) = expr.valueOnGroup schema (rows.map pick) := by
  cases expr with
  | aggregate function operand =>
    have operandFields : schema.AgreesOn operand.columns other := fields
    have values : (fun row => operand.evaluateOn .aggregateOperand other row) ∘ otherPick =
        (fun row => operand.evaluateOn .aggregateOperand schema row) ∘ pick :=
      funext fun row => evaluateOn_congr .aggregateOperand operandFields (cells row)
    simp only [valueOnGroup, List.mapM_map, type_congr operandFields, values]
  | column name => rfl
  | literal value => rfl
  | binary op left right => rfl

end Expr

section Lists

variable {schema other : Schema} {exprs : List Expr}

theorem columns_subset {expr : Expr} (isMember : expr ∈ exprs) :
    expr.columns ⊆ exprs.flatMap Expr.columns :=
  fun _ named => List.mem_flatMap.mpr ⟨expr, isMember, named⟩

theorem fieldsOf_congr (fields : schema.AgreesOn (exprs.flatMap Expr.columns) other) :
    Plan.fieldsOf other exprs = Plan.fieldsOf schema exprs := by
  unfold Plan.fieldsOf
  rw [mapM_congr fun expr isMember => Expr.toField_congr
    (fields.of_subset (columns_subset isMember))]

theorem evaluateOn_each_congr {row otherRow : Row} (place : ExprPlace)
    (fields : schema.AgreesOn (exprs.flatMap Expr.columns) other)
    (cells : RowAgreesOn (exprs.flatMap Expr.columns) schema row other otherRow) :
    exprs.mapM (Expr.evaluateOn place other otherRow) =
      exprs.mapM (Expr.evaluateOn place schema row) :=
  mapM_congr fun _ isMember => Expr.evaluateOn_congr place
    (fields.of_subset (columns_subset isMember)) (cells.of_subset (columns_subset isMember))

theorem groupKeyOn_congr {row otherRow : Row}
    (fields : schema.AgreesOn (exprs.flatMap Expr.columns) other)
    (cells : RowAgreesOn (exprs.flatMap Expr.columns) schema row other otherRow) :
    groupKeyOn other exprs otherRow = groupKeyOn schema exprs row := by
  apply mapM_congr
  intro expr isMember
  rw [Expr.evaluateOn_congr .groupBy
    (fields.of_subset (columns_subset isMember)) (cells.of_subset (columns_subset isMember))]

end Lists

end ColumnQuery
