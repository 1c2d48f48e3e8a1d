import ColumnQuery.Proofs.Group.Key
import Mathlib.Data.List.Forall2

/-! # Tuples of one group

Two tuples of group values belong to one group when they have the same length and the same value at
each position, where floats are compared by their canonical bits: both zeros count as one value and
all NaNs as one. The byte encoding and the order of keys both decide just this, for tuples of any
lengths, types and nulls.
-/

namespace ColumnQuery.GroupKey

/-- Two values that a key does not tell apart. -/
inductive SameValue : Scalar → Scalar → Prop where
  | null : SameValue .null .null
  | boolean (value : Bool) : SameValue (.boolean value) (.boolean value)
  | int32 (value : Int32) : SameValue (.int32 value) (.int32 value)
  | int64 (value : Int64) : SameValue (.int64 value) (.int64 value)
  | float64 {left right : Binary64} (bits : left.canonical.bits = right.canonical.bits) :
      SameValue (.float64 left) (.float64 right)
  | utf8 (value : String) : SameValue (.utf8 value) (.utf8 value)

private theorem sameValue_iff {left right : Scalar} :
    SameValue left right ↔ left.canonical = right.canonical := by
  constructor
  · intro same
    cases same with
    | float64 bits => exact congrArg (Scalar.float64 ∘ Binary64.mk) bits
    | null | boolean | int32 | int64 | utf8 => rfl
  · intro same
    cases left with
    | float64 left =>
      cases right with
      | float64 right => exact .float64 (congrArg Binary64.bits (Scalar.float64.inj same))
      | null | boolean | int32 | int64 | utf8 => cases same
    | null | boolean | int32 | int64 | utf8 =>
      -- the canonical form keeps the type
      cases right <;> cases same
      constructor

/-- Tuples are the same position by position when they have the same canonical form. -/
theorem forall₂_sameValue_iff {left right : List Scalar} :
    List.Forall₂ SameValue left right ↔
      left.map Scalar.canonical = right.map Scalar.canonical := by
  have pointwise : SameValue = fun left right => left.canonical = right.canonical :=
    funext fun _ => funext fun _ => propext sameValue_iff
  rw [pointwise, ← List.forall₂_eq_eq_eq, List.forall₂_map_left_iff, List.forall₂_map_right_iff]

private theorem encodeValue_canonical (value : Scalar) :
    encodeValue value.canonical = encodeValue value := by
  cases value with
  | float64 x => rw [Scalar.canonical, encodeValue, Binary64.canonical_canonical, encodeValue]
  | null | boolean | int32 | int64 | utf8 => rfl

/-- The encoding sees the canonical form of a tuple only. -/
theorem encode_map_canonical (values : List Scalar) :
    encode (values.map Scalar.canonical) = encode values := by
  induction values with
  | nil => rfl
  | cons value values ih => rw [List.map_cons, encode, encode, encodeValue_canonical, ih]

theorem encode_eq_iff_canonical {left right : List Scalar} :
    encode left = encode right ↔ left.map Scalar.canonical = right.map Scalar.canonical := by
  constructor
  · intro same
    rw [← encode_map_canonical left, ← encode_map_canonical right] at same
    exact encode_injective (isCanonical_map left) (isCanonical_map right) same
  · intro same
    rw [← encode_map_canonical left, same, encode_map_canonical]

/-- The order of keys is the order of tuples, taken of their canonical forms. -/
theorem compare_eq_compareTuples (left right : List Scalar) :
    compare left right =
      Scalar.compareTuples (left.map Scalar.canonical) (right.map Scalar.canonical) := by
  induction left generalizing right with
  | nil => cases right <;> rfl
  | cons value values ih =>
    cases right with
    | nil => rfl
    | cons other others => rw [compare, ih, List.map_cons, List.map_cons, Scalar.compareTuples]

/-- Two tuples have one encoding exactly when they are the same position by position. -/
theorem encode_eq_iff_same (left right : List Scalar) :
    encode left = encode right ↔ List.Forall₂ SameValue left right := by
  rw [encode_eq_iff_canonical, forall₂_sameValue_iff]

end ColumnQuery.GroupKey
