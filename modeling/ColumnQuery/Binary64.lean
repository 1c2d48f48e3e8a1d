/-! # Floats as bit patterns

A float is kept as the 64 bits of its binary64 encoding, so that the sign of zero and the payload
of a NaN survive storage, sorting and comparison. `orderKey` turns the bits into a natural number
whose order is the total order of floats: negative NaNs, negative infinity, the finite values with
`-0` below `0`, infinity, positive NaNs.

Arithmetic rounds to nearest, ties to even. An operation on a NaN returns the first NaN operand
made quiet; an invalid operation on other values returns the negative quiet NaN without payload.
-/

namespace ColumnQuery

/-- A binary64 value, given by its bits. -/
structure Binary64 where
  bits : UInt64
  deriving DecidableEq, Repr

namespace Binary64

def zero : Binary64 := ⟨0⟩

/-- The NaN that stands for every NaN in a group key. -/
def standardNaN : Binary64 := ⟨0x7ff8000000000000⟩

/-- The result of an invalid operation such as infinity minus infinity. -/
def invalidResult : Binary64 := ⟨0xfff8000000000000⟩

def isNegative (x : Binary64) : Bool := decide (0x8000000000000000 ≤ x.bits)

/-- The bits without the sign. -/
def magnitude (x : Binary64) : UInt64 := x.bits &&& 0x7fffffffffffffff

def isZero (x : Binary64) : Bool := x.magnitude == 0

def isInfinite (x : Binary64) : Bool := x.magnitude == 0x7ff0000000000000

def isNaN (x : Binary64) : Bool := decide (0x7ff0000000000000 < x.magnitude)

/-- The position of a value in the total order of floats. -/
def orderKey (x : Binary64) : Nat :=
  if x.bits.toNat < 1 <<< 63 then 1 <<< 63 + x.bits.toNat else UInt64.size - 1 - x.bits.toNat

theorem orderKey_injective {x y : Binary64} (same : x.orderKey = y.orderKey) : x = y := by
  obtain ⟨a⟩ := x
  obtain ⟨b⟩ := y
  have ha := a.toNat_lt
  have hb := b.toNat_lt
  have : a.toNat = b.toNat := by
    simp only [orderKey, UInt64.size] at same
    split at same <;> split at same <;> omega
  rw [UInt64.toNat_inj.mp this]

/-- One value for both zeros and one for all NaNs; other values are kept. -/
def canonical (x : Binary64) : Binary64 :=
  if x.isZero then zero else if x.isNaN then standardNaN else x

/-- Equality of numbers: the zeros are equal, and a NaN equals nothing. -/
def numericEq (x y : Binary64) : Bool :=
  !x.isNaN && !y.isNaN && (x == y || (x.isZero && y.isZero))

/-- A NaN with the quiet bit set. -/
def quiet (x : Binary64) : Binary64 := ⟨x.bits ||| 0x0008000000000000⟩

/-- Apply a rounded operation, with the rules for NaN operands and invalid results. -/
def arithmetic (operation : Float → Float → Float) (x y : Binary64) : Binary64 :=
  if x.isNaN then x.quiet
  else if y.isNaN then y.quiet
  else
    let result := operation (Float.ofBits x.bits) (Float.ofBits y.bits)
    if result.isNaN then invalidResult else ⟨result.toBits⟩

def add (x y : Binary64) : Binary64 := arithmetic (· + ·) x y

def div (x y : Binary64) : Binary64 := arithmetic (· / ·) x y

def ofInt (n : Int) : Binary64 := ⟨(Float.ofInt n).toBits⟩

theorem canonical_canonical (x : Binary64) : x.canonical.canonical = x.canonical := by
  unfold canonical
  split
  · decide
  · split
    · decide
    · simp [*]

end Binary64

end ColumnQuery
