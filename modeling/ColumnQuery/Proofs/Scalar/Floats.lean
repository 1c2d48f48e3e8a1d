import ColumnQuery.Binary64

/-! # Adding floats in either order

The sum of two floats does not depend on which of them comes first, except that of two NaNs the
first is kept. Sums and averages that differ in this only are the same numbers, and NaNs together.
-/

namespace ColumnQuery.Binary64

open Float.Model (UnpackedFloat Format)

private theorem unpacked_add_comm (format : Format) (left right : UnpackedFloat) :
    left.add format right = right.add format left := by
  cases left with
  | notANumber => cases right <;> rfl
  | infinity sign =>
    cases right with
    | infinity other => cases sign <;> cases other <;> rfl
    | notANumber | zero | finite => rfl
  | zero sign =>
    cases right with
    | zero other => cases sign <;> cases other <;> rfl
    | notANumber | infinity | finite => rfl
  | finite sign mantissa exponent positive =>
    cases right with
    | finite other otherMantissa otherExponent otherPositive =>
      -- both mantissas are brought to the smaller exponent and added as integers
      change UnpackedFloat.normalize format (_ + _) (min exponent otherExponent) _ =
        UnpackedFloat.normalize format (_ + _) (min otherExponent exponent) _
      rw [Int.min_comm otherExponent exponent, Int.add_comm]
    | notANumber | infinity | zero => rfl

private theorem float_add_comm (left right : Float) : left + right = right + left :=
  congrArg (fun unpacked => Float.ofModel (Float.Model.pack unpacked))
    (unpacked_add_comm .binary64 left.toModel.unpack right.toModel.unpack)

/-- Only two NaNs can be told apart in the order in which they are added. -/
theorem add_comm_of_number {x y : Binary64} (number : x.isNaN = false ∨ y.isNaN = false) :
    x.add y = y.add x := by
  rw [add, add, arithmetic, arithmetic]
  cases left : x.isNaN with
  | true =>
    have right := number.resolve_left (by simp [left])
    simp [right]
  | false =>
    cases right : y.isNaN with
    | true => simp
    | false => simp only [float_add_comm, Bool.false_eq_true, if_false]

private theorem isNaN_quiet {x : Binary64} (isNaN : x.isNaN = true) : x.quiet.isNaN = true := by
  rw [Binary64.isNaN, decide_eq_true_iff, UInt64.lt_iff_toNat_lt, magnitude, UInt64.toNat_and] at *
  rw [quiet, UInt64.toNat_or, Nat.and_or_distrib_right]
  exact Nat.lt_of_lt_of_le isNaN Nat.left_le_or

/-- The same float, or NaNs whatever their bits. -/
def Alike (x y : Binary64) : Prop := x = y ∨ x.isNaN = true ∧ y.isNaN = true

private theorem isNaN_arithmetic {operation : Float → Float → Float} {x y : Binary64}
    (isNaN : x.isNaN = true ∨ y.isNaN = true) : (arithmetic operation x y).isNaN = true := by
  unfold arithmetic
  split
  · exact isNaN_quiet ‹_›
  · rename_i number
    have right := isNaN.resolve_left number
    rw [if_pos right]
    exact isNaN_quiet right

/-- Totals that are alike stay so when a value is added to one from the left and to the other from
the right. -/
theorem Alike.add {total other : Binary64} (alike : total.Alike other) (value : Binary64) :
    (value.add total).Alike (other.add value) := by
  rcases alike with rfl | ⟨isNaN, otherIsNaN⟩
  · cases first : value.isNaN with
    | false => exact .inl (add_comm_of_number (.inl first))
    | true =>
      cases second : total.isNaN with
      | false => exact .inl (add_comm_of_number (.inr second))
      | true => exact .inr ⟨isNaN_arithmetic (.inl first), isNaN_arithmetic (.inl second)⟩
  · exact .inr ⟨isNaN_arithmetic (.inr isNaN), isNaN_arithmetic (.inl otherIsNaN)⟩

theorem alike_foldl_add {total other : Binary64} (alike : total.Alike other)
    (values : List Binary64) :
    (values.foldl (fun total value => Binary64.add value total) total).Alike
      (values.foldl Binary64.add other) := by
  induction values generalizing total other with
  | nil => exact alike
  | cons value values ih => exact ih (alike.add value)

end ColumnQuery.Binary64
