import ColumnQuery.Aggregate.Function
import ColumnQuery.Error
import Mathlib.Algebra.Ring.Int.Defs

/-! # Aggregates of lists

The value of an aggregate function on a list of values, said of the whole list: how many values are
not null, their exact sum, a least or greatest one, their average. The integers of a list can be
summed when no sum of a front part leaves 64 bits.
-/

namespace ColumnQuery

namespace Scalar

def integer? : Scalar → Option Int
  | int32 n => some n.toInt
  | int64 n => some n.toInt
  | _ => none

/-- The float that a value is, or that an integer is nearest to. -/
def float? : Scalar → Option Binary64
  | float64 x => some x
  | value => value.integer?.map Binary64.ofInt

end Scalar

def FitsInt64 (n : Int) : Prop := Int64.minValue.toInt ≤ n ∧ n ≤ Int64.maxValue.toInt

instance (n : Int) : Decidable (FitsInt64 n) := inferInstanceAs (Decidable (_ ∧ _))

/-- The sum of every front part of some integers fits in 64 bits. -/
def PartialSumsFit (integers : List Int) : Prop :=
  ∀ count ≤ integers.length, FitsInt64 (integers.take count).sum

instance (integers : List Int) : Decidable (PartialSumsFit integers) :=
  inferInstanceAs (Decidable (∀ count ≤ integers.length, FitsInt64 (integers.take count).sum))

/-- A least (`lt`) or greatest (`gt`) member of a list. -/
def extremumOf (direction : Ordering) : List Scalar → Option Scalar
  | [] => none
  | value :: rest =>
    match extremumOf direction rest with
    | none => some value
    | some best => some (if best.compare value == direction then best else value)

/-- The sum of some integers, null if there are none. -/
def sumOfIntegers (integers : List Int) : Except Error Scalar :=
  if integers = [] then .ok .null
  else if PartialSumsFit integers then .ok (.int64 (Int64.ofInt integers.sum))
  else .error .sumOverflow

/-- The sum of some floats from left to right, null if there are none. -/
def sumOfFloats : List Binary64 → Scalar
  | [] => .null
  | first :: rest => .float64 (rest.foldl Binary64.add first)

/-- The average of some floats, null if there are none. A NaN takes the place of an earlier one. -/
def averageOf (floats : List Binary64) : Scalar :=
  if floats = [] then .null
  else
    let total := floats.foldl (fun total value => Binary64.add value total) Binary64.zero
    .float64 (total.div (.ofInt floats.length))

/-- The value of an aggregate function on a list of values of a type. -/
def AggregateFunction.valueOn (function : AggregateFunction) (type : DataType)
    (values : List Scalar) : Except Error Scalar :=
  let present := values.filter fun value => !value.isNull
  match function with
  | .count => .ok (.int64 (Int64.ofNat present.length))
  | .sum =>
    if type = .float64 then .ok (sumOfFloats (present.filterMap Scalar.float?))
    else sumOfIntegers (present.filterMap Scalar.integer?)
  | .min => .ok ((extremumOf .lt present).getD .null)
  | .max => .ok ((extremumOf .gt present).getD .null)
  | .avg => .ok (averageOf (present.filterMap Scalar.float?))

end ColumnQuery
