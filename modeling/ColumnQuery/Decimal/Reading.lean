import ColumnQuery.Binary64

/-! # Reading floats

A float is written with digits, a point and an exponent, or as `inf`, `infinity` or `nan` in any
letter case, after an optional sign. The value is the float nearest to the decimal; one that is too
large is infinite, one that is too small is zero.
-/

namespace ColumnQuery.Decimal

/-- A decimal as it is written: `digits * 10 ^ exponent`. -/
structure Written where
  digits : Nat
  exponent : Int
  deriving DecidableEq, Repr

/-- Split off the leading digits. -/
def spanDigits (text : List Char) : List Char × List Char := text.span Char.isDigit

/-- The number that some digits denote. -/
def ofDigits (digits : List Char) : Nat :=
  digits.foldl (fun value c => 10 * value + (c.toNat - '0'.toNat)) 0

def readSign : List Char → Bool × List Char
  | '-' :: rest => (true, rest)
  | '+' :: rest => (false, rest)
  | text => (false, text)

/-- Read an exponent, which ends the text. -/
def readExponent : List Char → Option Int
  | [] => some 0
  | mark :: rest =>
    if mark = 'e' ∨ mark = 'E' then
      let (negative, rest) := readSign rest
      let (digits, rest) := spanDigits rest
      if digits.isEmpty || !rest.isEmpty then none
      else some (if negative then -(ofDigits digits : Int) else ofDigits digits)
    else none

/-- Read the digits after a point. -/
def readFraction : List Char → List Char × List Char
  | '.' :: rest => spanDigits rest
  | text => ([], text)

/-- Read a decimal without a sign. -/
def readDecimal (text : List Char) : Option Written := do
  let (whole, rest) := spanDigits text
  let (fraction, rest) := readFraction rest
  if whole.isEmpty && fraction.isEmpty then none
  else
    let exponent ← readExponent rest
    return ⟨ofDigits (whole ++ fraction), exponent - fraction.length⟩

/-- The float nearest to a decimal. Decimals far outside the range of floats are settled by their
number of digits alone. -/
def Written.nearest (written : Written) : Binary64 :=
  let position := ((Nat.toDigits 10 written.digits).length : Int) + written.exponent
  if written.digits = 0 || position < -400 then .zero
  else if 400 < position then ⟨0x7ff0000000000000⟩
  else
    let negative := decide (written.exponent < 0)
    ⟨(Float.ofScientific written.digits negative written.exponent.natAbs).toBits⟩

/-- Read the magnitude of a float. -/
def readMagnitude (text : List Char) : Option Binary64 :=
  let lower := String.ofList (text.map Char.toLower)
  if lower = "inf" ∨ lower = "infinity" then some ⟨0x7ff0000000000000⟩
  else if lower = "nan" then some .standardNaN
  else (readDecimal text).map Written.nearest

def read (text : List Char) : Option Binary64 := do
  let (negative, rest) := readSign text
  let magnitude ← readMagnitude rest
  return if negative then ⟨magnitude.bits ||| 0x8000000000000000⟩ else magnitude

end ColumnQuery.Decimal
