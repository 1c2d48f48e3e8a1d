import ColumnQuery.Proofs.Column.Building
import ColumnQuery.Proofs.Expr.Compilation

/-! # Operators on columns follow the order of scalars

An operator is defined on two columns of one length and one type, Booleans for `AND` and `OR`, and
anything else is a type error. A comparison then holds in a row just when the total order of scalars
says so, float bits included, so that of `<`, `=` and `>` exactly one holds. `AND` and `OR` read a
null as a truth value that is not known, and give the value that all possible operands agree on.
-/

namespace ColumnQuery

private theorem Scalar.fitsIn_boolean_iff {value : Scalar} :
    value.FitsIn .boolean ↔ value = .null ∨ value = .boolean false ∨ value = .boolean true := by
  rcases value with _ | (_ | _) | _ | _ | _ | _ <;> simp [FitsIn, type?]

/-- The truth values that a Boolean cell may stand for. A null may stand for either. -/
def Scalar.MayBe : Scalar → Bool → Prop
  | null, _ => True
  | boolean b, truth => b = truth
  | _, _ => False

namespace Operator

/-- The operands that an operator takes. -/
structure Accepts (op : Operator) (left right : Column) : Prop where
  length : left.length = right.length
  type : left.type = right.type
  boolean : op.isLogical = true → left.type = .boolean ∧ right.type = .boolean

/-- What a comparison says about two values, in terms of the order of scalars. -/
def Relates : Operator → Scalar → Scalar → Prop
  | eq, left, right => left.compare right = .eq
  | ne, left, right => left.compare right ≠ .eq
  | lt, left, right => left.compare right = .lt
  | le, left, right => left.compare right ≠ .gt
  | gt, left, right => left.compare right = .gt
  | ge, left, right => left.compare right ≠ .lt
  | and, _, _ | or, _, _ => False

/-- The operation of a logical operator on known truth values. -/
def connect : Operator → Bool → Bool → Bool
  | and, left, right => left && right
  | or, left, right => left || right
  | _, _, _ => false

/-- The cell that an operator yields for two cells. -/
inductive Yields (op : Operator) (left right : Scalar) : Scalar → Prop
  | missing (comparing : op.isLogical = false) (null : left = .null ∨ right = .null) :
      Yields op left right .null
  | compared {truth : Bool} (comparing : op.isLogical = false) (isLeft : left ≠ .null)
      (isRight : right ≠ .null) (holds : truth = true ↔ op.Relates left right) :
      Yields op left right (.boolean truth)
  /-- Whatever the operands may be, the outcome is the same. -/
  | decided {truth : Bool} (logical : op.isLogical = true)
      (always : ∀ x y, left.MayBe x → right.MayBe y → op.connect x y = truth) :
      Yields op left right (.boolean truth)
  /-- Either outcome may be. -/
  | undetermined (logical : op.isLogical = true)
      (either : ∀ truth, ∃ x y, left.MayBe x ∧ right.MayBe y ∧ op.connect x y = truth) :
      Yields op left right .null

/-- An operator on two columns is true in a row. -/
def TrueAt (op : Operator) (left right : Column) (row : Nat) : Prop :=
  ∃ column, op.evaluate left right = .ok column ∧ column.value row = .ok (.boolean true)

/-- How the comparisons of two columns stand to each other in a row. -/
structure SplitAt (left right : Column) (row : Nat) : Prop where
  exactlyOne : ∃! op, op ∈ [lt, eq, gt] ∧ TrueAt op left right row
  ne : TrueAt .ne left right row ↔ ¬TrueAt .eq left right row
  le : TrueAt .le left right row ↔ ¬TrueAt .gt left right row
  ge : TrueAt .ge left right row ↔ ¬TrueAt .lt left right row

section Cells

variable {op : Operator} {left right : Scalar}

private theorem holds_iff_relates (comparing : op.isLogical = false) :
    op.holds (left.compare right) = true ↔ op.Relates left right := by
  cases op
  case and | or => cases comparing
  all_goals
    simp only [holds, Relates]
    cases left.compare right <;> decide

/-- Of the strict order in either direction and equality, exactly one relates two values. -/
theorem existsUnique_relates (left right : Scalar) :
    ∃! op, op ∈ [lt, eq, gt] ∧ op.Relates left right := by
  cases order : left.compare right
  case' lt => refine ⟨lt, ⟨by simp, order⟩, ?_⟩
  case' eq => refine ⟨eq, ⟨by simp, order⟩, ?_⟩
  case' gt => refine ⟨gt, ⟨by simp, order⟩, ?_⟩
  all_goals
    rintro other ⟨isMember, relates⟩
    simp only [List.mem_cons, List.not_mem_nil, or_false] at isMember
    rcases isMember with rfl | rfl | rfl
    all_goals first
      | rfl
      | exact absurd (order.symm.trans relates) (by decide)

private theorem compareCells_yields (comparing : op.isLogical = false) :
    op.Yields left right (op.compareCells left right) := by
  by_cases null : left = .null ∨ right = .null
  · have isNull : (left.isNull || right.isNull) = true := by
      rcases null with rfl | rfl <;> simp [Scalar.isNull]
    rw [compareCells, if_pos isNull]
    exact .missing comparing null
  · obtain ⟨isLeft, isRight⟩ := not_or.mp null
    have present : (left.isNull || right.isNull) = false := by
      cases left <;> cases right <;> simp_all [Scalar.isNull]
    rw [compareCells, if_neg (by simp [present])]
    exact .compared comparing isLeft isRight (holds_iff_relates comparing)

/-- A Boolean operand is false, true or not known, and so `AND` and `OR` have nine cases each. -/
theorem apply_yields_of_isLogical (logical : op.isLogical = true) (isLeft : left.FitsIn .boolean)
    (isRight : right.FitsIn .boolean) : op.Yields left right (op.apply left right) := by
  rw [Scalar.fitsIn_boolean_iff] at isLeft isRight
  cases op
  case and | or =>
    rcases isLeft with rfl | rfl | rfl <;> rcases isRight with rfl | rfl | rfl <;> first
      | exact .decided rfl (by simp [Scalar.MayBe, connect])
      | exact .undetermined rfl (by simp [Scalar.MayBe, connect])
  all_goals cases logical

private theorem apply_yields
    (boolean : op.isLogical = true → left.FitsIn .boolean ∧ right.FitsIn .boolean) :
    op.Yields left right (op.apply left right) := by
  cases logical : op.isLogical with
  | true => exact apply_yields_of_isLogical logical (boolean logical).1 (boolean logical).2
  | false =>
    have comparison : op.Yields left right (op.compareCells left right) :=
      compareCells_yields logical
    cases op
    case and | or => cases logical
    all_goals exact comparison

end Cells

section Columns

variable {op : Operator} {left right column : Column}

private theorem evaluate_succeeds_iff :
    (∃ column, op.evaluate left right = .ok column) ↔ op.Accepts left right := by
  constructor
  · rintro ⟨column, made⟩
    obtain ⟨length, type, boolean, -, -⟩ := evaluate_eq_ok_iff.mp made
    exact ⟨length, type, fun logical => ⟨boolean logical, type ▸ boolean logical⟩⟩
  · rintro ⟨length, type, boolean⟩
    obtain ⟨column, made, -, -⟩ := evaluate_ok length type fun logical => (boolean logical).1
    exact ⟨column, made⟩

/-- What an operator does not take is a type error. -/
theorem kind_of_evaluate {error : Error} (failed : op.evaluate left right = .error error) :
    error.kind = .type := by
  unfold evaluate at failed
  split at failed
  · cases failed
    rfl
  · split at failed
    · cases failed
      rfl
    · split at failed <;> cases failed
      rfl

private theorem value_of_evaluate (made : op.evaluate left right = .ok column) {row : Nat}
    {leftCell rightCell : Scalar} (isLeft : left.value row = .ok leftCell)
    (isRight : right.value row = .ok rightCell) :
    column.value row = .ok (op.apply leftCell rightCell) := by
  obtain ⟨-, -, -, -, cells⟩ := evaluate_eq_ok_iff.mp made
  rw [Column.value_eq_ok_iff] at isLeft isRight ⊢
  rw [cells, applyCells, List.getElem?_zipWith, isLeft, isRight]

private theorem yields_of_evaluate (made : op.evaluate left right = .ok column) {row : Nat}
    {leftCell rightCell : Scalar} (isLeft : left.value row = .ok leftCell)
    (isRight : right.value row = .ok rightCell) :
    ∃ cell, column.value row = .ok cell ∧ op.Yields leftCell rightCell cell := by
  obtain ⟨-, -, boolean⟩ := evaluate_succeeds_iff.mp ⟨column, made⟩
  refine ⟨_, value_of_evaluate made isLeft isRight, apply_yields fun logical => ?_⟩
  obtain ⟨leftType, rightType⟩ := boolean logical
  exact ⟨leftType ▸ Column.fits_of_value isLeft, rightType ▸ Column.fits_of_value isRight⟩

section Row

variable {row : Nat} {leftCell rightCell : Scalar} (length : left.length = right.length)
  (type : left.type = right.type) (isLeft : left.value row = .ok leftCell)
  (isRight : right.value row = .ok rightCell) (leftKnown : leftCell ≠ .null)
  (rightKnown : rightCell ≠ .null)
include length type isLeft isRight leftKnown rightKnown

/-- Where neither operand is null, a comparison is true just when it holds in the order. -/
theorem trueAt_iff_relates (comparing : op.isLogical = false) :
    op.TrueAt left right row ↔ op.Relates leftCell rightCell := by
  obtain ⟨column, made⟩ : ∃ column, op.evaluate left right = .ok column :=
    evaluate_succeeds_iff.mpr ⟨length, type, fun logical => by simp [comparing] at logical⟩
  have isCell := value_of_evaluate made isLeft isRight
  obtain ⟨truth, same, holds⟩ : ∃ truth, op.apply leftCell rightCell = .boolean truth ∧
      (truth = true ↔ op.Relates leftCell rightCell) := by
    have yields : op.Yields leftCell rightCell (op.apply leftCell rightCell) :=
      apply_yields fun logical => by simp [comparing] at logical
    generalize op.apply leftCell rightCell = cell at yields
    cases yields with
    | missing _ null => exact absurd null (not_or.mpr ⟨leftKnown, rightKnown⟩)
    | compared _ _ _ holds => exact ⟨_, rfl, holds⟩
    | decided logical | undetermined logical => simp [comparing] at logical
  rw [same] at isCell
  rw [← holds]
  constructor
  · rintro ⟨other, otherMade, isTrue⟩
    obtain rfl : column = other := Except.ok.inj (made.symm.trans otherMade)
    simpa [isCell] using isTrue
  · rintro rfl
    exact ⟨column, made, isCell⟩

private theorem splitAt : SplitAt left right row := by
  have trueAt {op : Operator} (comparing : op.isLogical = false) :=
    trueAt_iff_relates length type isLeft isRight leftKnown rightKnown comparing
  have comparing {op : Operator} (isMember : op ∈ [lt, eq, gt]) : op.isLogical = false := by
    simp only [List.mem_cons, List.not_mem_nil, or_false] at isMember
    rcases isMember with rfl | rfl | rfl <;> rfl
  refine ⟨?_, ?_, ?_, ?_⟩
  · obtain ⟨op, ⟨isMember, relates⟩, only⟩ := existsUnique_relates leftCell rightCell
    refine ⟨op, ⟨isMember, (trueAt (comparing isMember)).mpr relates⟩, ?_⟩
    rintro other ⟨otherIsMember, isTrue⟩
    exact only other ⟨otherIsMember, (trueAt (comparing otherIsMember)).mp isTrue⟩
  all_goals
    rw [trueAt rfl, trueAt rfl]
    exact Iff.rfl

end Row

/-- An operator takes two columns of one length and one type, Booleans if it is logical, and refuses
any others as a type error. Its column is of Booleans and holds in each row what the total order of
scalars says, null where an operand is null, or the Kleene value of `AND` and `OR`. In a row without
nulls exactly one of `<`, `=` and `>` is true, and the other comparisons are their negations. -/
theorem evaluate_follows_order (op : Operator) (left right : Column) :
    ((∃ column, op.evaluate left right = .ok column) ↔ op.Accepts left right) ∧
      (∀ error, op.evaluate left right = .error error → error.kind = .type) ∧
      (∀ column, op.evaluate left right = .ok column →
        column.type = .boolean ∧ column.length = left.length ∧
          ∀ row leftCell rightCell, left.value row = .ok leftCell →
            right.value row = .ok rightCell →
              ∃ cell, column.value row = .ok cell ∧ op.Yields leftCell rightCell cell) ∧
      (left.length = right.length → left.type = right.type →
        ∀ row leftCell rightCell, left.value row = .ok leftCell →
          right.value row = .ok rightCell → leftCell ≠ .null → rightCell ≠ .null →
            SplitAt left right row) := by
  refine ⟨evaluate_succeeds_iff, fun _ => kind_of_evaluate, fun column made => ?_, ?_⟩
  · obtain ⟨-, -, -, isBoolean, -⟩ := evaluate_eq_ok_iff.mp made
    exact ⟨isBoolean, length_of_evaluate made, fun _ _ _ => yields_of_evaluate made⟩
  · exact fun length type _ _ _ => splitAt length type

/-- The zeros are ordered by sign, a NaN equals itself, and a null compares with nothing. -/
example :
    let left : Column := ⟨.float64, [.float64 ⟨0x8000000000000000⟩, .float64 .standardNaN, .null],
      rfl, by decide⟩
    let right : Column := ⟨.float64, [.float64 .zero, .float64 .standardNaN, .float64 .zero],
      rfl, by decide⟩
    (eq.evaluate left right).map (·.cells) = .ok [.boolean false, .boolean true, .null] ∧
      (lt.evaluate left right).map (·.cells) = .ok [.boolean true, .boolean false, .null] := by
  decide

end Columns

end Operator

end ColumnQuery
