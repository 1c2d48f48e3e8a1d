import ColumnQuery.Expr.Typing

/-! # Accumulators

An accumulator folds the values of one aggregate expression within one group. Nulls are ignored. A
value that is refused leaves the accumulator as it was. Integers are summed exactly and refused
where the sum would leave 64 bits; floats are added from left to right, starting with the first
value for a sum and with zero for an average. Of several NaNs a sum keeps the first and an average
the last.
-/

namespace ColumnQuery

/-- The state of a fold. -/
inductive Accumulator where
  | integerSum (total : Option Int64)
  | floatSum (total : Option Binary64)
  | count (seen : Nat)
  /-- The least (`lt`) or greatest (`gt`) value so far. -/
  | extremum (direction : Ordering) (type : DataType) (best : Option Scalar)
  | average (total : Binary64) (seen : Nat)
  deriving DecidableEq, Repr

/-- The sum of two integers, if it fits in 64 bits. -/
def addInt64? (left right : Int64) : Option Int64 :=
  let sum := left.toInt + right.toInt
  if Int64.minValue.toInt ≤ sum ∧ sum ≤ Int64.maxValue.toInt then some (Int64.ofInt sum) else none

namespace Accumulator

/-- The accumulator that a function starts with, for operands of a type that it accepts. -/
def create (function : AggregateFunction) (type : DataType) : Except Error Accumulator :=
  match function.resultType? type with
  | none => .error (.noAccumulator function type)
  | some result =>
    .ok <| match function with
      | .sum => if result = .float64 then floatSum none else integerSum none
      | .count => count 0
      | .min => extremum .lt type none
      | .max => extremum .gt type none
      | .avg => average .zero 0

/-- Add an integer to a sum. -/
def addInteger (total : Option Int64) (value : Int64) : Except Error Accumulator :=
  match total with
  | none => .ok (integerSum (some value))
  | some sum =>
    match addInt64? sum value with
    | some sum => .ok (integerSum (some sum))
    | none => .error .sumOverflow

/-- Whether a value takes the place of the best so far. -/
def replaces (direction : Ordering) (best : Option Scalar) (value : Scalar) : Bool :=
  match best with
  | none => true
  | some best => value.compare best == direction

/-- Add a float to the total of an average. The value comes first, so that a NaN takes the place of
an earlier one. -/
def addToAverage (total : Binary64) (seen : Nat) (value : Binary64) : Accumulator :=
  average (value.add total) (seen + 1)

def accumulate : Accumulator → Scalar → Except Error Accumulator
  | accumulator, .null => .ok accumulator
  | integerSum total, .int32 n => addInteger total n.toInt64
  | integerSum total, .int64 n => addInteger total n
  | integerSum _, value => .error (.sumRejects .int64 value)
  | floatSum none, .float64 x => .ok (floatSum (some x))
  | floatSum (some total), .float64 x => .ok (floatSum (some (total.add x)))
  | floatSum _, value => .error (.sumRejects .float64 value)
  | count seen, _ => .ok (count (seen + 1))
  | extremum direction type best, value =>
    if value.type? = some type then
      .ok (extremum direction type (if replaces direction best value then some value else best))
    else .error (.extremumRejects value type)
  | average total seen, .int32 n => .ok (addToAverage total seen (.ofInt n.toInt))
  | average total seen, .int64 n => .ok (addToAverage total seen (.ofInt n.toInt))
  | average total seen, .float64 x => .ok (addToAverage total seen x)
  | average _ _, value => .error (.averageRejects value)

def result : Accumulator → Scalar
  | integerSum total => total.elim .null .int64
  | floatSum total => total.elim .null .float64
  | count seen => .int64 (Int64.ofNat seen)
  | extremum _ _ best => best.getD .null
  | average total seen => if seen = 0 then .null else .float64 (total.div (.ofInt seen))

/-- Fold one value into each accumulator, up to the first refusal. -/
def accumulateEach : List Accumulator → List Scalar → Except Error Unit × List Accumulator
  | accumulator :: accumulators, value :: values =>
    match accumulator.accumulate value with
    | .error error => (.error error, accumulator :: accumulators)
    | .ok next =>
      let (outcome, rest) := accumulateEach accumulators values
      (outcome, next :: rest)
  | accumulators, _ => (.ok (), accumulators)

@[simp] theorem accumulate_null (accumulator : Accumulator) :
    accumulator.accumulate .null = .ok accumulator := by
  cases accumulator <;> rfl

end Accumulator

end ColumnQuery
