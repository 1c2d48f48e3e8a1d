import ColumnQuery.Error

/-! # Reading whole numbers

A whole number is an optional sign and at least one digit. It is read from left to right; the first
character that is no digit, or that takes the number past a bound, is the fault.
-/

namespace ColumnQuery.Text

def digit? (c : Char) : Option Nat :=
  if c.isDigit then some (c.toNat - '0'.toNat) else none

/-- The number of further digits after `value`, at most `greatest`. -/
def readMagnitude (greatest : Nat) (overflow : IntegerFault) (value : Nat) :
    List Char → Except IntegerFault Nat
  | [] => .ok value
  | c :: rest =>
    match digit? c with
    | none => .error .invalidDigit
    | some digit =>
      if 10 * value + digit ≤ greatest then
        readMagnitude greatest overflow (10 * value + digit) rest
      else .error overflow

/-- Read a number of at least `-below` and at most `greatest`. A minus sign is known only where
there are negative numbers. -/
def readInteger (below greatest : Nat) : List Char → Except IntegerFault Int
  | [] => .error .empty
  | ['+'] | ['-'] => .error .invalidDigit
  | '+' :: digits => do return (← readMagnitude greatest .tooLarge 0 digits : Nat)
  | '-' :: digits =>
    if below = 0 then .error .invalidDigit
    else do return -(← readMagnitude below .tooSmall 0 digits : Nat)
  | digits => do return (← readMagnitude greatest .tooLarge 0 digits : Nat)

end ColumnQuery.Text
