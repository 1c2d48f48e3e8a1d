import ColumnQuery.Decimal.Shortest

/-! # Writing floats

A float is written with its shortest digits. A `Layout` states the rest: which values are written
positionally, whether a whole number keeps a point, and which of two equally short decimals is
taken. NaN and the infinities have fixed texts.
-/

namespace ColumnQuery.Decimal

/-- The decisions of a number format. The point position of a decimal `0.ddd * 10 ^ p` is `p`. -/
structure Layout where
  /-- Point positions above this one, up to `positionalTo`, are written without an exponent;
  with no bounds, all are. -/
  positional : Option (Int × Int)
  /-- Write `12.0` rather than `12`. -/
  keepsPoint : Bool
  tie : Tie

/-- Values in messages, plans and tables of counters: never an exponent, and no point after a
whole number. -/
def Layout.plain : Layout where
  positional := none
  keepsPoint := false
  tie := .up

/-- Values in result rows: positional from `0.00001` up to sixteen digits, a point in every
positional number, an exponent elsewhere. -/
def Layout.row : Layout where
  positional := some (-5, 16)
  keepsPoint := true
  tie := .toEven

/-- Whether a point position is written without an exponent. -/
def Layout.isPositional (layout : Layout) (point : Int) : Bool :=
  match layout.positional with
  | none => true
  | some (above, upTo) => decide (above < point) && decide (point ≤ upTo)

def zeros (count : Nat) : List Char := List.replicate count '0'

/-- Lay out the digits of a positive decimal. -/
def Layout.digits (layout : Layout) (d : Digits) : List Char :=
  let digits := Nat.toDigits 10 d.digits
  let point := (digits.length : Int) + d.exponent
  if layout.isPositional point then
    if point ≤ 0 then '0' :: '.' :: zeros (-point).toNat ++ digits
    else if point < digits.length then
      digits.take point.toNat ++ '.' :: digits.drop point.toNat
    else
      digits ++ zeros (point.toNat - digits.length) ++ if layout.keepsPoint then ['.', '0'] else []
  else
    let first := digits.take 1
    let rest := digits.drop 1
    first ++ (if rest.isEmpty then [] else '.' :: rest) ++ 'e' :: (toString (point - 1)).toList

/-- Write the magnitude of a finite float. -/
def Layout.magnitude (layout : Layout) (x : Binary64) : List Char :=
  if x.isZero then '0' :: if layout.keepsPoint then ['.', '0'] else []
  else layout.digits ((Binary.ofBinary64 x).shortest layout.tie)

def Layout.write (layout : Layout) (x : Binary64) : String :=
  if x.isNaN then "NaN"
  else
    let sign := if x.isNegative then ['-'] else []
    let text := if x.isInfinite then ['i', 'n', 'f'] else layout.magnitude x
    String.ofList (sign ++ text)

end ColumnQuery.Decimal
