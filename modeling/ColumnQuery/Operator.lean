import ColumnQuery.Scalar

/-! # Binary operators

Comparisons follow the order of scalars and give null when an operand is null. `AND` and `OR` are
three-valued: a false operand decides a conjunction and a true operand a disjunction, whatever the
other is; otherwise a null operand makes the result null.
-/

namespace ColumnQuery

/-- An operator between two expressions. Its result is a Boolean or null. -/
inductive Operator where
  | eq
  | ne
  | lt
  | le
  | gt
  | ge
  | and
  | or
  deriving DecidableEq, Repr

namespace Operator

def symbol : Operator → String
  | eq => "="
  | ne => "!="
  | lt => "<"
  | le => "<="
  | gt => ">"
  | ge => ">="
  | and => "AND"
  | or => "OR"

def all : List Operator := [eq, ne, lt, le, gt, ge, and, or]

def ofSymbol? (symbol : String) : Option Operator :=
  all.find? fun op => op.symbol == symbol

/-- `AND` and `OR` combine Booleans; the other operators compare values. -/
def isLogical : Operator → Bool
  | and | or => true
  | _ => false

/-- The outcomes of comparing the left operand with the right one under which a comparison holds. -/
def holds : Operator → Ordering → Bool
  | eq, order => order.isEq
  | ne, order => !order.isEq
  | lt, order => order.isLT
  | le, order => order.isLE
  | gt, order => order.isGT
  | ge, order => order.isGE
  | and, _ => false
  | or, _ => false

/-- Compare two cells; null if either is null. -/
def compareCells (op : Operator) (left right : Scalar) : Scalar :=
  if left.isNull || right.isNull then .null else .boolean (op.holds (left.compare right))

/-- Three-valued conjunction. -/
def conjunction : Scalar → Scalar → Scalar
  | .boolean false, _ => .boolean false
  | _, .boolean false => .boolean false
  | .boolean true, .boolean true => .boolean true
  | _, _ => .null

/-- Three-valued disjunction. -/
def disjunction : Scalar → Scalar → Scalar
  | .boolean true, _ => .boolean true
  | _, .boolean true => .boolean true
  | .boolean false, .boolean false => .boolean false
  | _, _ => .null

/-- The value of an operator on two cells. -/
def apply : Operator → Scalar → Scalar → Scalar
  | and => conjunction
  | or => disjunction
  | op => op.compareCells

theorem apply_fitsIn_boolean (op : Operator) (left right : Scalar) :
    (op.apply left right).FitsIn .boolean := by
  have comparison : ∀ op : Operator, (op.compareCells left right).FitsIn .boolean := by
    intro op
    unfold compareCells
    split
    · exact .inl rfl
    · exact .inr rfl
  cases op
  case and =>
    simp only [apply, conjunction]
    split <;> simp [Scalar.FitsIn, Scalar.type?]
  case or =>
    simp only [apply, disjunction]
    split <;> simp [Scalar.FitsIn, Scalar.type?]
  all_goals exact comparison _

end Operator

end ColumnQuery
