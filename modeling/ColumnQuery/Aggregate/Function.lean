import ColumnQuery.DataType

/-! # Aggregate functions

An aggregate function reduces the values of one group to a single value. Each accepts certain
operand types and fixes the type of its result.
-/

namespace ColumnQuery

/-- A function that reduces a group of values. -/
inductive AggregateFunction where
  | sum
  | count
  | min
  | max
  | avg
  deriving DecidableEq, Repr

namespace AggregateFunction

def name : AggregateFunction → String
  | sum => "sum"
  | count => "count"
  | min => "min"
  | max => "max"
  | avg => "avg"

def all : List AggregateFunction := [sum, count, min, max, avg]

/-- Look up a function by name, ignoring the case of ASCII letters. -/
def ofName? (name : String) : Option AggregateFunction :=
  all.find? fun function => function.name == name.map Char.toLower

/-- The result type for operands of a given type; none if they are not accepted. Integers are
summed as 64-bit integers, and every operand can be counted. -/
def resultType? : AggregateFunction → DataType → Option DataType
  | count, _ => some .int64
  | sum, .int32 => some .int64
  | sum, .int64 => some .int64
  | sum, .float64 => some .float64
  | sum, _ => none
  | avg, type => if type.isNumeric then some .float64 else none
  | min, type => if type.isSupported then some type else none
  | max, type => if type.isSupported then some type else none

end AggregateFunction

end ColumnQuery
