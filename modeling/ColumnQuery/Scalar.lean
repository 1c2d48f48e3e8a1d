import ColumnQuery.DataType
import ColumnQuery.Decimal.Layout

/-! # Single values

A scalar is one cell of a column: null, or a value of one of the five supported types. Scalars of
all types are totally ordered. Nulls come first, values of different types are ordered by type,
floats by the total order of their bits and strings by code point.
-/

namespace ColumnQuery

/-- One value read out of, or destined for, a column. -/
inductive Scalar where
  | null
  | boolean (value : Bool)
  | int32 (value : Int32)
  | int64 (value : Int64)
  | float64 (value : Binary64)
  | utf8 (value : String)
  deriving DecidableEq, Repr

namespace Scalar

/-- The type of a value. A null has none. -/
def type? : Scalar → Option DataType
  | null => none
  | boolean _ => some .boolean
  | int32 _ => some .int32
  | int64 _ => some .int64
  | float64 _ => some .float64
  | utf8 _ => some .utf8

def isNull : Scalar → Bool
  | null => true
  | _ => false

/-- A cell of a column of type `type`: null, or a value of exactly that type. -/
def FitsIn (value : Scalar) (type : DataType) : Prop :=
  value = null ∨ value.type? = some type

instance (value : Scalar) (type : DataType) : Decidable (value.FitsIn type) :=
  inferInstanceAs (Decidable (_ ∨ _))

/-- The place of a value's type in the order of scalars. -/
def rank : Scalar → Nat
  | null => 0
  | boolean _ => 1
  | int32 _ => 2
  | int64 _ => 3
  | float64 _ => 4
  | utf8 _ => 5

/-- The total order of scalars. -/
def compare : Scalar → Scalar → Ordering
  | boolean a, boolean b => Ord.compare a b
  | int32 a, int32 b => Ord.compare a.toInt b.toInt
  | int64 a, int64 b => Ord.compare a.toInt b.toInt
  | float64 a, float64 b => Ord.compare a.orderKey b.orderKey
  | utf8 a, utf8 b => Ord.compare a b
  | a, b => Ord.compare a.rank b.rank

/-- The order of tuples: the first difference decides, and a tuple comes before its extensions. -/
def compareTuples : List Scalar → List Scalar → Ordering
  | [], [] => .eq
  | [], _ :: _ => .lt
  | _ :: _, [] => .gt
  | a :: as, b :: bs => (a.compare b).then (compareTuples as bs)

/-- Equality of values as numbers: the zeros are equal and a NaN equals nothing. Other values are
equal when they have the same type and content. -/
def numericEq : Scalar → Scalar → Bool
  | float64 a, float64 b => a.numericEq b
  | a, b => a == b

/-- Zeros and NaNs replaced by their representatives. -/
def canonical : Scalar → Scalar
  | float64 x => float64 x.canonical
  | value => value

/-- The text of a value in messages and plans. -/
def text : Scalar → String
  | null => "null"
  | boolean b => if b then "true" else "false"
  | int32 n => toString n.toInt
  | int64 n => toString n.toInt
  | float64 x => Decimal.Layout.plain.write x
  | utf8 s => s

/-- The text of a value in result rows; `empty` stands for null. -/
def rowText (empty : String) : Scalar → String
  | null => empty
  | float64 x => Decimal.Layout.row.write x
  | value => value.text

/-- The cell that holds a value in a column of type `type`, if one does. Nulls and values of the
type are kept; a 32-bit integer is widened into a 64-bit column. -/
def place? (type : DataType) : Scalar → Option Scalar
  | null => some null
  | int32 n =>
    if type = .int32 then some (int32 n)
    else if type = .int64 then some (int64 n.toInt64)
    else none
  | value => if value.type? = some type then some value else none

/-- What `place?` is to find: the cell of a value in a column of type `type`. -/
inductive HeldAs (type : DataType) : Scalar → Scalar → Prop where
  | kept {value : Scalar} (fits : value.FitsIn type) : HeldAs type value value
  /-- A 32-bit integer in a 64-bit column. -/
  | widened {narrow : Int32} {wide : Int64} (isWide : type = .int64)
      (equal : wide.toInt = narrow.toInt) : HeldAs type (int32 narrow) (int64 wide)

theorem HeldAs.fitsIn {type : DataType} {value cell : Scalar} (held : value.HeldAs type cell) :
    cell.FitsIn type := by
  cases held with
  | kept fits => exact fits
  | widened isWide => exact .inr (congrArg some isWide.symm)

/-- A value that fits is kept as it is. -/
theorem place?_eq_some_of_fitsIn {type : DataType} {value : Scalar} (fits : value.FitsIn type) :
    value.place? type = some value := by
  rcases fits with isNull | same
  · subst isNull; rfl
  · cases value <;> simp_all [place?, type?]

theorem place?_eq_some_iff {type : DataType} {value cell : Scalar} :
    value.place? type = some cell ↔ value.HeldAs type cell := by
  constructor
  · intro placed
    cases value with
    | null =>
      cases placed
      exact .kept (.inl rfl)
    | int32 narrow =>
      simp only [place?] at placed
      split at placed
      · rename_i same
        cases placed
        exact .kept (.inr (congrArg some same.symm))
      · split at placed
        · rename_i isWide
          cases placed
          exact .widened isWide (Int32.toInt_toInt64 narrow)
        · cases placed
    | boolean | int64 | float64 | utf8 =>
      simp only [place?] at placed
      split at placed
      · rename_i same
        cases placed
        exact .kept (.inr same)
      · cases placed
  · intro held
    cases held with
    | kept fits => exact place?_eq_some_of_fitsIn fits
    | @widened narrow wide isWide equal =>
      subst isWide
      have same : narrow.toInt64 = wide :=
        Int64.toInt_inj.mp ((Int32.toInt_toInt64 narrow).trans equal.symm)
      exact congrArg (some ∘ int64) same

theorem fitsIn_of_place?_eq_some {type : DataType} {value cell : Scalar}
    (placed : value.place? type = some cell) : cell.FitsIn type :=
  (place?_eq_some_iff.mp placed).fitsIn

end Scalar

end ColumnQuery
