import ColumnQuery.Binary64

/-! # Shortest decimals

Among the decimals that round to a given float, the ones with the fewest digits are found by exact
arithmetic on natural numbers. For one digit, then two, and so on, the two neighbours of the value
on the grid of that many digits are tried; the first grid with a hit wins, and of two hits the
nearer. A tie is decided by the caller.
-/

namespace ColumnQuery.Decimal

/-- A finite positive binary value, `mantissa * 2 ^ exponent`. -/
structure Binary where
  mantissa : Nat
  exponent : Int
  /-- The gap to the value below is half the gap to the value above. -/
  narrowBelow : Bool

/-- The magnitude of a finite float. -/
def Binary.ofBinary64 (x : Binary64) : Binary :=
  let magnitude := x.magnitude.toNat
  let hidden : Nat := 1 <<< 52
  let field := magnitude / hidden
  let fraction := magnitude % hidden
  if field = 0 then ⟨fraction, -1074, false⟩
  else ⟨hidden + fraction, (field : Int) - 1075, fraction == 0 && decide (1 < field)⟩

/-- The decimal value `digits * 10 ^ exponent`. -/
structure Digits where
  digits : Nat
  exponent : Int
  deriving DecidableEq, Repr

/-- Which of two equally near decimals is taken. -/
inductive Tie where
  | up
  | toEven
  deriving DecidableEq, Repr

/-- Compare `a * 10 ^ i` with `b * 2 ^ j`. -/
def compareScaled (a : Nat) (i : Int) (b : Nat) (j : Int) : Ordering :=
  compare ((a * Nat.pow 10 i.toNat) <<< (-j).toNat) ((b * Nat.pow 10 (-i).toNat) <<< j.toNat)

/-- Whether a decimal lies among the reals that round to the value: between the halfway points to
its neighbours, which belong to it exactly when its mantissa is even. -/
def Binary.readsBack (x : Binary) (d : Digits) : Bool :=
  let lower := if x.narrowBelow then 4 * x.mantissa - 1 else 4 * x.mantissa - 2
  let upper := 4 * x.mantissa + 2
  let closed := x.mantissa % 2 == 0
  let low := compareScaled d.digits d.exponent lower (x.exponent - 2)
  let high := compareScaled d.digits d.exponent upper (x.exponent - 2)
  (low == .gt || (closed && low == .eq)) && (high == .lt || (closed && high == .eq))

/-- Whether the value lies below `10 ^ k`. -/
def Binary.belowPower (x : Binary) (k : Int) : Bool :=
  compareScaled 1 k x.mantissa x.exponent == .gt

/-- The value divided by `10 ^ k`, rounded down. -/
def Binary.onGrid (x : Binary) (k : Int) : Nat :=
  ((x.mantissa * Nat.pow 10 (-k).toNat) <<< x.exponent.toNat) /
    (Nat.pow 10 k.toNat <<< (-x.exponent).toNat)

/-- The first power of ten above the value, counted up from `k` in at most `steps` steps. -/
def Binary.scaleFrom (x : Binary) (k : Int) : (steps : Nat) → Int
  | 0 => k
  | steps + 1 => if x.belowPower k then k else x.scaleFrom (k + 1) steps

/-- The least `k` with the value below `10 ^ k`, estimated from the binary logarithm. -/
def Binary.scale (x : Binary) : Int :=
  let log := (x.mantissa.log2 : Int) + x.exponent
  x.scaleFrom (Int.fdiv (log * 30103) 100000 - 1) 5

/-- The nearer of the value's two neighbours on the grid `10 ^ k` that read back, if any does. -/
def Binary.nearest? (x : Binary) (tie : Tie) (k : Int) : Option Digits :=
  let below := x.onGrid k
  let above := below + 1
  match x.readsBack ⟨below, k⟩, x.readsBack ⟨above, k⟩ with
  | false, false => none
  | true, false => some ⟨below, k⟩
  | false, true => some ⟨above, k⟩
  | true, true =>
    match compareScaled (below + above) k (2 * x.mantissa) x.exponent, tie with
    | .gt, _ => some ⟨below, k⟩
    | .lt, _ => some ⟨above, k⟩
    | .eq, .up => some ⟨above, k⟩
    | .eq, .toEven => some ⟨if below % 2 = 0 then below else above, k⟩

/-- Move trailing zeros from the digits to the exponent. -/
def Digits.strip (d : Digits) : (steps : Nat) → Digits
  | 0 => d
  | steps + 1 =>
    if d.digits % 10 = 0 ∧ d.digits ≠ 0 then
      Digits.strip ⟨d.digits / 10, d.exponent + 1⟩ steps
    else d

def Binary.exact (x : Binary) : Digits :=
  ⟨(x.mantissa * Nat.pow 5 (-x.exponent).toNat) <<< x.exponent.toNat, min x.exponent 0⟩

/-- The decimal with the fewest digits that reads back to a positive value. -/
def Binary.shortest (x : Binary) (tie : Tie) : Digits :=
  let scale := x.scale
  let found := (List.range 17).findSome? fun count => x.nearest? tie (scale - (count + 1 : Nat))
  (found.getD x.exact).strip 400

end ColumnQuery.Decimal
