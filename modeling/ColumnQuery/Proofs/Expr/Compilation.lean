import ColumnQuery.Proofs.Expr.Binding

/-! # Bound expressions compute what expressions mean

An expression that is evaluated by row can be bound to a schema if this has the columns that it
names. Over a batch of columns of these types the bound expression then gives the value of the
expression on each row, unless the operands of some operator differ in type, which is a type error
whatever the rows are and however few. So rows may as well be removed before it is evaluated as
after.
-/

namespace ColumnQuery

/-- The operands of each operator of an expression are of one type, Booleans under `AND` and
`OR`. -/
def Expr.OperandsAgree (schema : Schema) : Expr → Prop
  | column _ => True
  | literal _ => True
  | binary op left right =>
    left.OperandsAgree schema ∧ right.OperandsAgree schema ∧
      ∃ type, left.type schema = .ok type ∧ right.type schema = .ok type ∧
        (op.isLogical = true → type = .boolean)
  | aggregate _ operand => operand.OperandsAgree schema

/-- An expression whose operands agree is well typed. -/
theorem Expr.hasType_of_operandsAgree {schema : Schema} {expr : Expr} {type : DataType}
    (rowwise : expr.containsAggregate = false) (agree : expr.OperandsAgree schema)
    (typed : expr.type schema = .ok type) : expr.HasType schema type := by
  induction expr generalizing type with
  | column name =>
    rw [Expr.type] at typed
    split at typed <;> cases typed
    exact .column ‹_›
  | literal value =>
    cases typed
    exact .literal value
  | binary op left right leftIH rightIH =>
    obtain ⟨leftRowwise, rightRowwise⟩ := Bool.or_eq_false_iff.mp rowwise
    obtain ⟨leftAgree, rightAgree, own, leftIs, rightIs, booleans⟩ := agree
    cases typed
    have leftTyped := leftIH leftRowwise leftAgree leftIs
    have rightTyped := rightIH rightRowwise rightAgree rightIs
    cases logical : op.isLogical with
    | false => exact .comparison logical leftTyped rightTyped
    | true =>
      obtain rfl := booleans logical
      exact .logical logical leftTyped rightTyped
  | aggregate function operand => cases rowwise

section Bind

variable {schema : Schema}

theorem Schema.exists_field?_iff {name : String} :
    (∃ field, schema.field? name = some field) ↔ name ∈ schema.names := by
  rw [← Option.isSome_iff_exists, field?, List.find?_isSome, names, List.mem_map]
  simp only [beq_iff_eq]

/-- A column is bound to the first field of its name. -/
theorem Expr.bind_column_eq_ok_iff {name : String} {bound : BoundExpr} :
    (column name).bind schema = .ok bound ↔
      ∃ index field, schema.ordinalOf? name = some index ∧ schema.field? name = some field ∧
        schema.fields[index]? = some field ∧ bound = .column index field.type := by
  constructor
  · intro binds
    simp only [bind] at binds
    split at binds
    · rename_i index field position found
      cases binds
      have isField := found
      rw [Schema.field?_eq_bind, position, Option.bind_some] at isField
      exact ⟨index, field, position, found, isField, rfl⟩
    · cases binds
  · rintro ⟨index, field, position, found, -, rfl⟩
    simp only [bind, position, found]

theorem Expr.bind_binary_eq_ok_iff {op : Operator} {left right : Expr} {bound : BoundExpr} :
    (binary op left right).bind schema = .ok bound ↔
      ∃ leftBound rightBound, left.bind schema = .ok leftBound ∧
        right.bind schema = .ok rightBound ∧ bound = .binary op leftBound rightBound := by
  simp only [bind, bind_eq_ok_iff, pure_eq_ok, Except.ok.injEq]
  constructor
  · rintro ⟨leftBound, leftBinds, rightBound, rightBinds, same⟩
    exact ⟨leftBound, rightBound, leftBinds, rightBinds, same.symm⟩
  · rintro ⟨leftBound, rightBound, leftBinds, rightBinds, same⟩
    exact ⟨leftBound, leftBinds, rightBound, rightBinds, same.symm⟩

/-- An expression can be bound exactly if there are the columns that it names. -/
theorem Expr.exists_bind_iff (expr : Expr) :
    (∃ bound, expr.bind schema = .ok bound) ↔ ∀ name ∈ expr.columns, name ∈ schema.names := by
  induction expr with
  | column name =>
    rw [columns, List.forall_mem_singleton, ← Schema.exists_field?_iff]
    constructor
    · rintro ⟨bound, binds⟩
      obtain ⟨index, field, -, found, -⟩ := bind_column_eq_ok_iff.mp binds
      exact ⟨field, found⟩
    · rintro ⟨field, found⟩
      obtain ⟨index, position, isField⟩ := Schema.ordinalOf?_of_field? found
      exact ⟨_, bind_column_eq_ok_iff.mpr ⟨index, field, position, found, isField, rfl⟩⟩
  | literal value => exact ⟨fun _ => nofun, fun _ => ⟨_, rfl⟩⟩
  | binary op left right leftIH rightIH =>
    rw [columns, List.forall_mem_append, ← leftIH, ← rightIH]
    constructor
    · rintro ⟨bound, binds⟩
      obtain ⟨leftBound, rightBound, leftBinds, rightBinds, -⟩ := bind_binary_eq_ok_iff.mp binds
      exact ⟨⟨leftBound, leftBinds⟩, ⟨rightBound, rightBinds⟩⟩
    · rintro ⟨⟨leftBound, leftBinds⟩, ⟨rightBound, rightBinds⟩⟩
      exact ⟨_, bind_binary_eq_ok_iff.mpr ⟨leftBound, rightBound, leftBinds, rightBinds, rfl⟩⟩
  | aggregate function operand ih =>
    rw [columns, ← ih]
    simp only [bind, bind_eq_ok_iff, pure_eq_ok]
    constructor
    · rintro ⟨_, bound, binds, -⟩
      exact ⟨bound, binds⟩
    · rintro ⟨bound, binds⟩
      exact ⟨_, bound, binds, rfl⟩

/-- A bound expression carries the type of the expression. -/
theorem Expr.type_of_bind {expr : Expr} (rowwise : expr.containsAggregate = false)
    {bound : BoundExpr} (binds : expr.bind schema = .ok bound) :
    ∃ type, bound.type = .ok type ∧ expr.type schema = .ok type := by
  cases expr with
  | column name =>
    obtain ⟨index, field, -, found, -, rfl⟩ := bind_column_eq_ok_iff.mp binds
    exact ⟨field.type, rfl, by simp only [Expr.type, found]⟩
  | literal value =>
    cases binds
    exact ⟨value.type, by simp [BoundExpr.type], rfl⟩
  | binary op left right =>
    obtain ⟨leftBound, rightBound, -, -, rfl⟩ := bind_binary_eq_ok_iff.mp binds
    exact ⟨.boolean, rfl, rfl⟩
  | aggregate function operand => cases rowwise

/-- Binding keeps the type of an expression, or why it has none. -/
theorem Expr.type_eq_of_bind {expr : Expr} {bound : BoundExpr}
    (binds : expr.bind schema = .ok bound) : bound.type = expr.type schema := by
  induction expr generalizing bound with
  | column name =>
    obtain ⟨index, field, -, found, -, rfl⟩ := bind_column_eq_ok_iff.mp binds
    simp only [BoundExpr.type, Expr.type, found]
  | literal value =>
    cases binds
    simp [BoundExpr.type, Expr.type]
  | binary op left right =>
    obtain ⟨leftBound, rightBound, -, -, rfl⟩ := bind_binary_eq_ok_iff.mp binds
    rfl
  | aggregate function operand ih =>
    obtain ⟨inner, innerBinds, same⟩ := bind_eq_ok_iff.mp binds
    cases same
    rw [BoundExpr.type, Expr.type, ih innerBinds]

end Bind

section Evaluate

variable {schema : Schema} {batch : Batch}

/-- What comes of evaluating an expression by row over a batch: a column of its values, or an error
because of its types. -/
inductive Expr.Evaluation (schema : Schema) (batch : Batch) (expr : Expr) :
    Except Fault Column → Prop
  | column {column : Column} (agree : expr.OperandsAgree schema)
    (type : expr.type schema = .ok column.type)
    (cells : column.cells = batch.rows.map fun row => expr.valueOn schema row) :
    Evaluation schema batch expr (.ok column)
  | typeError {error : Error} (disagree : ¬expr.OperandsAgree schema) (kind : error.kind = .type) :
    Evaluation schema batch expr (.error (.error error))

private theorem Operator.evaluate_of_types_ne {op : Operator} {left right : Column}
    (lengths : left.length = right.length) (types : left.type ≠ right.type) :
    op.evaluate left right = .error (.operandTypes op left.type right.type) := by
  simp only [evaluate, lengths, types, ne_eq, not_true_eq_false, not_false_eq_true, if_true,
    if_false]

private theorem Operator.evaluate_of_not_boolean {op : Operator} {left right : Column}
    (lengths : left.length = right.length) (types : left.type = right.type)
    (logical : op.isLogical = true) (other : left.type ≠ .boolean) :
    op.evaluate left right = .error (.notBoolean left.type) := by
  have refused : (op.isLogical && left.type != .boolean) = true := by simp [logical, other]
  simp only [evaluate, lengths, ← types, refused, ne_eq, not_true_eq_false, if_true, if_false]

/-- The columns of two operands give the one of their operator, or an error because of their
types. -/
theorem Expr.evaluation_binary {op : Operator} {left right : Expr} {leftColumn rightColumn : Column}
    (leftEvaluation : left.Evaluation schema batch (.ok leftColumn))
    (rightEvaluation : right.Evaluation schema batch (.ok rightColumn)) :
    (binary op left right).Evaluation schema batch
      (liftError (op.evaluate leftColumn rightColumn)) := by
  obtain ⟨leftAgree, leftType, leftCells⟩ := leftEvaluation
  obtain ⟨rightAgree, rightType, rightCells⟩ := rightEvaluation
  have lengths : leftColumn.length = rightColumn.length := by
    simp only [Column.length, leftCells, rightCells, List.length_map]
  -- the types of the operands are those of their columns
  have types {type : DataType} (leftIs : left.type schema = .ok type)
      (rightIs : right.type schema = .ok type) :
      leftColumn.type = type ∧ rightColumn.type = type := by
    rw [leftType] at leftIs
    rw [rightType] at rightIs
    exact ⟨Except.ok.inj leftIs, Except.ok.inj rightIs⟩
  by_cases same : leftColumn.type = rightColumn.type
  · by_cases boolean : op.isLogical = true → leftColumn.type = .boolean
    · obtain ⟨column, made, isBoolean, cells⟩ := Operator.evaluate_ok lengths same boolean
      rw [made]
      refine .column ⟨leftAgree, rightAgree, _, leftType, same ▸ rightType, boolean⟩
        (congrArg Except.ok isBoolean.symm) ?_
      rw [cells, leftCells, rightCells, Operator.applyCells, List.zipWith_map, List.zipWith_self]
      rfl
    · obtain ⟨logical, other⟩ := Classical.not_imp.mp boolean
      rw [Operator.evaluate_of_not_boolean lengths same logical other]
      refine .typeError ?_ rfl
      rintro ⟨-, -, type, leftIs, rightIs, booleans⟩
      exact other ((types leftIs rightIs).1.trans (booleans logical))
  · rw [Operator.evaluate_of_types_ne lengths same]
    refine .typeError ?_ rfl
    rintro ⟨-, -, type, leftIs, rightIs, -⟩
    obtain ⟨isLeft, isRight⟩ := types leftIs rightIs
    exact same (isLeft.trans isRight.symm)

/-- Column by column a bound expression computes what the expression means row by row. -/
theorem Expr.evaluation_of_bind {expr : Expr} (rowwise : expr.containsAggregate = false)
    (types : batch.columns.map (·.type) = schema.types) {bound : BoundExpr}
    (binds : expr.bind schema = .ok bound) :
    expr.Evaluation schema batch (bound.evaluate batch) := by
  induction expr generalizing bound with
  | column name =>
    obtain ⟨index, field, position, found, isField, rfl⟩ := bind_column_eq_ok_iff.mp binds
    have isType : (batch.columns.map (·.type))[index]? = some field.type := by
      rw [types, Schema.types, List.getElem?_map, isField, Option.map_some]
    rw [List.getElem?_map] at isType
    obtain ⟨column, isColumn, sameType⟩ := Option.map_eq_some_iff.mp isType
    simp only [BoundExpr.evaluate, Batch.column?, isColumn]
    refine .column trivial (by simp only [Expr.type, found, sameType]) ?_
    rw [Batch.cells_eq_read isColumn]
    simp only [valueOn, Schema.cellOf, position]
  | literal value =>
    cases binds
    obtain ⟨column, made, isType, cells⟩ := Column.constant_literal value batch.rowCount
    simp only [BoundExpr.evaluate, made, liftError_ok]
    refine .column trivial (congrArg Except.ok isType.symm) ?_
    rw [cells]
    simp only [valueOn, List.map_const', Batch.length_rows]
  | binary op left right leftIH rightIH =>
    obtain ⟨leftRowwise, rightRowwise⟩ := Bool.or_eq_false_iff.mp rowwise
    obtain ⟨leftBound, rightBound, leftBinds, rightBinds, rfl⟩ := bind_binary_eq_ok_iff.mp binds
    have leftEvaluation := leftIH leftRowwise leftBinds
    have rightEvaluation := rightIH rightRowwise rightBinds
    rw [BoundExpr.evaluate]
    generalize leftBound.evaluate batch = leftResult at leftEvaluation
    generalize rightBound.evaluate batch = rightResult at rightEvaluation
    cases leftEvaluation with
    | typeError disagree kind => exact .typeError (fun agree => disagree agree.1) kind
    | column leftAgree leftType leftCells =>
      cases rightEvaluation with
      | typeError disagree kind => exact .typeError (fun agree => disagree agree.2.1) kind
      | column rightAgree rightType rightCells =>
        exact evaluation_binary (.column leftAgree leftType leftCells)
          (.column rightAgree rightType rightCells)
  | aggregate function operand => cases rowwise

end Evaluate

section Shrink

private theorem keep_replicate {α : Type} (mask : List (Option Bool)) (item : α) :
    keep mask (List.replicate mask.length item) = List.replicate (keptCount mask) item := by
  refine List.eq_replicate_iff.mpr ⟨length_keep (by rw [List.length_replicate]), ?_⟩
  intro other isKept
  exact List.eq_of_mem_replicate (mem_of_mem_keep isKept)

private theorem keep_zipWith {α β γ : Type} (combine : α → β → γ) {mask : List (Option Bool)}
    {left : List α} {right : List β} (lengths : left.length = right.length) :
    keep mask (List.zipWith combine left right) =
      List.zipWith combine (keep mask left) (keep mask right) := by
  induction mask generalizing left right with
  | nil => rfl
  | cons entry mask ih =>
    cases left with
    | nil =>
      obtain rfl := List.length_eq_zero_iff.mp lengths.symm
      simp only [List.zipWith_nil_left, keep]
    | cons item left =>
      cases right with
      | nil => cases lengths
      | cons other right =>
        have rest := @ih left right (by simpa using lengths)
        rcases entry with _ | _ | _ <;> simp only [List.zipWith_cons_cons, keep, rest]

private theorem Column.length_keepRows {column : Column} {mask : List (Option Bool)}
    (sameLength : mask.length = column.length) : (column.keepRows mask).length = keptCount mask :=
  length_keep sameLength

private theorem Column.constant_keepRows (value : Scalar) (mask : List (Option Bool)) :
    constant value (keptCount mask) = (constant value mask.length).map (·.keepRows mask) := by
  cases value with
  | null => rfl
  | _ => exact congrArg Except.ok (Column.ext rfl (keep_replicate mask _).symm)

theorem Operator.length_of_evaluate {op : Operator} {left right column : Column}
    (made : op.evaluate left right = .ok column) : column.length = left.length := by
  obtain ⟨lengths, -, -, -, cells⟩ := evaluate_eq_ok_iff.mp made
  rw [Column.length, cells, applyCells, List.length_zipWith, ← Column.length, ← Column.length,
    ← lengths, Nat.min_self]

private theorem Operator.evaluate_keepRows (op : Operator) {left right : Column}
    {mask : List (Option Bool)} (leftLength : mask.length = left.length)
    (rightLength : mask.length = right.length) :
    op.evaluate (left.keepRows mask) (right.keepRows mask) =
      (op.evaluate left right).map (·.keepRows mask) := by
  have lengths : left.length = right.length := leftLength.symm.trans rightLength
  have keptLengths : (left.keepRows mask).length = (right.keepRows mask).length := by
    rw [Column.length_keepRows leftLength, Column.length_keepRows rightLength]
  by_cases types : left.type = right.type
  · by_cases boolean : op.isLogical = true → left.type = .boolean
    · obtain ⟨column, made, isBoolean, cells⟩ := evaluate_ok lengths types boolean
      obtain ⟨kept, keptMade, keptIsBoolean, keptCells⟩ := evaluate_ok keptLengths types boolean
      rw [made, keptMade]
      refine congrArg Except.ok (Column.ext (keptIsBoolean.trans isBoolean.symm) ?_)
      change kept.cells = keep mask column.cells
      rw [keptCells, cells]
      exact (keep_zipWith op.apply lengths).symm
    · obtain ⟨logical, other⟩ := Classical.not_imp.mp boolean
      rw [evaluate_of_not_boolean lengths types logical other,
        evaluate_of_not_boolean keptLengths types logical other]
      rfl
  · rw [evaluate_of_types_ne lengths types, evaluate_of_types_ne keptLengths types]
    rfl

/-- A column that is computed for a batch has a cell for each row. -/
theorem BoundExpr.length_of_evaluate {batch : Batch} {expr : BoundExpr} {column : Column}
    (made : expr.evaluate batch = .ok column) : column.length = batch.rowCount := by
  induction expr generalizing column with
  | column index type =>
    simp only [evaluate] at made
    split at made
    · rename_i found isColumn
      cases made
      exact batch.matching.lengths column (List.mem_of_getElem? isColumn)
    · cases made
  | literal value =>
    cases value <;> cases made
    all_goals exact List.length_replicate
  | binary op left right leftIH rightIH =>
    obtain ⟨leftColumn, leftMade, made⟩ := bind_eq_ok_iff.mp made
    obtain ⟨rightColumn, -, made⟩ := bind_eq_ok_iff.mp made
    exact (Operator.length_of_evaluate (liftError_eq_ok_iff.mp made)).trans (leftIH leftMade)
  | aggregate function operand => cases made

/-- Rows may be removed before an expression is evaluated as well as after. -/
theorem BoundExpr.evaluate_keepRows {batch : Batch} {mask : List (Option Bool)}
    (sameLength : mask.length = batch.rowCount) (expr : BoundExpr) :
    expr.evaluate (batch.keepRows mask sameLength) =
      (expr.evaluate batch).map (·.keepRows mask) := by
  induction expr with
  | column index type =>
    simp only [evaluate, Batch.column?, Batch.keepRows, List.getElem?_map, List.length_map]
    cases batch.columns[index]? <;> rfl
  | literal value =>
    simp only [evaluate]
    rw [← liftError_map, ← sameLength]
    exact congrArg liftError (Column.constant_keepRows value mask)
  | binary op left right leftIH rightIH =>
    simp only [evaluate, leftIH, rightIH]
    cases leftMade : left.evaluate batch with
    | error fault => rfl
    | ok leftColumn =>
      cases rightMade : right.evaluate batch with
      | error fault => rfl
      | ok rightColumn =>
        have leftLength := sameLength.trans (length_of_evaluate leftMade).symm
        have rightLength := sameLength.trans (length_of_evaluate rightMade).symm
        simp only [Except.map, ok_bind]
        rw [op.evaluate_keepRows leftLength rightLength]
        exact liftError_map _ _
  | aggregate function operand => rfl

end Shrink

namespace Expr

/-- A bound expression computes over a batch what an expression means on its rows. -/
structure IsComputedBy (schema : Schema) (batch : Batch) (expr : Expr) (bound : BoundExpr) :
    Prop where
  /-- There is a column exactly if the operands of each operator agree, even without any rows. -/
  success : (∃ column, bound.evaluate batch = .ok column) ↔ expr.OperandsAgree schema
  /-- Otherwise there is a type error. -/
  failure : ∀ fault, bound.evaluate batch = .error fault →
    ∃ error, fault = .error error ∧ error.kind = .type
  /-- The column is of the type of the expression and has a cell for each row, -/
  shape : ∀ column, bound.evaluate batch = .ok column →
    expr.type schema = .ok column.type ∧ column.length = batch.rowCount
  /-- which is the value of the expression on this row. -/
  cell : ∀ column, bound.evaluate batch = .ok column →
    ∀ (index : Nat) (row : Row), batch.rows[index]? = some row →
      column.cells[index]? = some (expr.valueOn schema row)
  /-- Removing rows first comes to removing them from the column, or to the same error. -/
  shrunk : ∀ mask, mask.length = batch.rowCount →
    ∃ kept, batch.shrink mask = .ok kept ∧
      bound.evaluate kept = (bound.evaluate batch).map (·.keepRows mask)

private theorem Evaluation.isComputedBy {schema : Schema} {batch : Batch} {expr : Expr}
    {bound : BoundExpr} (evaluation : expr.Evaluation schema batch (bound.evaluate batch)) :
    expr.IsComputedBy schema batch bound := by
  have shrunk (mask : List (Option Bool)) (sameLength : mask.length = batch.rowCount) :
      ∃ kept, batch.shrink mask = .ok kept ∧
        bound.evaluate kept = (bound.evaluate batch).map (·.keepRows mask) :=
    ⟨_, dif_pos sameLength, bound.evaluate_keepRows sameLength⟩
  generalize evaluated : bound.evaluate batch = result at evaluation
  cases evaluation with
  | @column column agree type cells =>
    refine ⟨⟨fun _ => agree, fun _ => ⟨column, evaluated⟩⟩, ?_, ?_, ?_, shrunk⟩
    · intro fault failed
      rw [evaluated] at failed
      cases failed
    · intro other made
      obtain rfl := Except.ok.inj (evaluated.symm.trans made)
      exact ⟨type, BoundExpr.length_of_evaluate made⟩
    · intro other made index row isRow
      obtain rfl := Except.ok.inj (evaluated.symm.trans made)
      rw [cells, List.getElem?_map, isRow, Option.map_some]
  | @typeError error disagree kind =>
    have failed (column : Column) : bound.evaluate batch ≠ .ok column := by
      rw [evaluated]
      nofun
    refine ⟨⟨?_, fun agree => absurd agree disagree⟩, ?_, ?_, ?_, shrunk⟩
    · rintro ⟨column, made⟩
      exact absurd made (failed column)
    · intro fault isFault
      rw [evaluated] at isFault
      cases isFault
      exact ⟨error, rfl, kind⟩
    · exact fun column made => absurd made (failed column)
    · exact fun column made => absurd made (failed column)

/-- An expression without aggregate functions can be bound to a schema exactly if this has the
columns that it names. The bound expression is then of its type and computes over every batch of
columns of these types, whatever their names, what the expression means on the rows. -/
theorem bound_computes_meaning {expr : Expr} (rowwise : expr.containsAggregate = false)
    (schema : Schema) :
    ((∃ bound, expr.bind schema = .ok bound) ↔ ∀ name ∈ expr.columns, name ∈ schema.names) ∧
      ∀ bound, expr.bind schema = .ok bound →
        (∃ type, bound.type = .ok type ∧ expr.type schema = .ok type) ∧
          ∀ batch : Batch, batch.columns.map (·.type) = schema.types →
            expr.IsComputedBy schema batch bound := by
  refine ⟨exists_bind_iff expr, fun bound binds => ⟨type_of_bind rowwise binds, ?_⟩⟩
  exact fun batch types => (evaluation_of_bind rowwise types binds).isComputedBy

/-- Two columns of one name. -/
def scoresSchema : Schema := ⟨[⟨"score", .int32, true⟩, ⟨"score", .utf8, true⟩]⟩

/-- The batch may call its columns otherwise. -/
def scores : Batch where
  schema := ⟨[⟨"points", .int32, true⟩, ⟨"grade", .utf8, true⟩]⟩
  columns := [⟨.int32, [.int32 3, .null, .int32 7], rfl, by decide⟩,
    ⟨.utf8, [.utf8 "d", .null, .utf8 "b"], DataType.isSupported_utf8, by decide⟩]
  rowCount := 3
  matching := ⟨rfl, by decide⟩

def hasPassed : Expr :=
  .binary .and (.binary .gt (.column "score") (.literal (.int32 5))) (.literal (.boolean true))

theorem bound_computes_meaning_scores :
    let bound := BoundExpr.binary .and (.binary .gt (.column 0 .int32) (.literal (.int32 5)))
      (.literal (.boolean true))
    hasPassed.containsAggregate = false ∧ hasPassed.bind scoresSchema = .ok bound ∧
      scores.columns.map (·.type) = scoresSchema.types ∧
      hasPassed.IsComputedBy scoresSchema scores bound ∧
      (bound.evaluate scores).map (·.cells) = .ok [.boolean false, .null, .boolean true] := by
  intro bound
  have rowwise : hasPassed.containsAggregate = false := rfl
  have binds : hasPassed.bind scoresSchema = .ok bound := by decide
  have types : scores.columns.map (·.type) = scoresSchema.types := rfl
  obtain ⟨-, computes⟩ := bound_computes_meaning rowwise scoresSchema
  exact ⟨rowwise, binds, types, (computes bound binds).2 scores types, rfl⟩

end Expr

end ColumnQuery
