import ColumnQuery.Proofs.Group.Sameness
import ColumnQuery.Proofs.Text.ByteOrder

/-! # The orders of values and of keys

Values of all types stand in one order: by type, and within a type from false to true, by number, by
sign and magnitude of floats, and by the bytes of texts. Different values have different places.
Tuples of group values stand in an order too, in which those with one encoding share a place.
-/

namespace ColumnQuery

/-- The laws of a comparison that puts everything in one order. Different things may share a
place. -/
structure IsTotalPreorder {α : Type} (order : α → α → Ordering) : Prop where
  refl : ∀ value, order value value = .eq
  swap : ∀ left right, order right left = (order left right).swap
  trans : ∀ first middle last, (order first middle).isLE → (order middle last).isLE →
    (order first last).isLE
  total : ∀ left right, (order left right).isLE ∨ (order right left).isLE

/-- The laws of a comparison that gives each thing a place of its own. -/
structure IsTotalOrder {α : Type} (order : α → α → Ordering) : Prop extends
    IsTotalPreorder order where
  antisymm : ∀ left right, (order left right).isLE → (order right left).isLE → left = right

private theorem isTotalPreorder_of_transCmp {α : Type} (order : α → α → Ordering)
    [Std.TransCmp order] : IsTotalPreorder order where
  refl _ := Std.ReflCmp.compare_self
  swap _ _ := Std.OrientedCmp.eq_swap
  trans _ _ _ := Std.TransCmp.isLE_trans
  total left right := by
    have swapped : order right left = (order left right).swap := Std.OrientedCmp.eq_swap
    rw [swapped]
    cases order left right <;> decide

namespace Binary64

/-- The total order of floats, by sign and magnitude. -/
inductive Before : Binary64 → Binary64 → Prop where
  | signs {left right : Binary64} (negative : left.isNegative = true)
      (other : right.isNegative = false) : Before left right
  | positive {left right : Binary64} (leftSign : left.isNegative = false)
      (rightSign : right.isNegative = false) (less : left.magnitude < right.magnitude) :
      Before left right
  /-- Of two negative floats the one further from zero comes first. -/
  | negative {left right : Binary64} (leftSign : left.isNegative = true)
      (rightSign : right.isNegative = true) (less : right.magnitude < left.magnitude) :
      Before left right

private theorem isNegative_iff {x : Binary64} : x.isNegative = true ↔ 2 ^ 63 ≤ x.bits.toNat := by
  rw [isNegative, decide_eq_true_iff, UInt64.le_iff_toNat_le]
  rfl

private theorem toNat_magnitude (x : Binary64) : x.magnitude.toNat = x.bits.toNat % 2 ^ 63 := by
  rw [magnitude, UInt64.toNat_and]
  exact Nat.and_two_pow_sub_one_eq_mod x.bits.toNat 63

private theorem orderKey_lt_iff {left right : Binary64} :
    left.orderKey < right.orderKey ↔ left.Before right := by
  have leftBound := left.bits.toNat_lt
  have rightBound := right.bits.toNat_lt
  have leftSign := isNegative_iff (x := left)
  have rightSign := isNegative_iff (x := right)
  have magnitudes (x y : Binary64) :
      x.magnitude < y.magnitude ↔ x.bits.toNat % 2 ^ 63 < y.bits.toNat % 2 ^ 63 := by
    rw [UInt64.lt_iff_toNat_lt, toNat_magnitude, toNat_magnitude]
  simp only [orderKey, UInt64.size]
  constructor
  · intro less
    cases leftIs : left.isNegative <;> cases rightIs : right.isNegative <;>
      simp only [leftIs, rightIs, Bool.false_eq_true, true_iff, false_iff] at leftSign rightSign
    · refine .positive leftIs rightIs ((magnitudes _ _).mpr ?_)
      split at less <;> split at less <;> omega
    · split at less <;> split at less <;> omega
    · exact .signs leftIs rightIs
    · refine .negative leftIs rightIs ((magnitudes _ _).mpr ?_)
      split at less <;> split at less <;> omega
  · intro before
    cases before with
    | signs negative other =>
      simp only [negative, other, Bool.false_eq_true, true_iff, false_iff] at leftSign rightSign
      split <;> split <;> omega
    | positive leftIs rightIs less =>
      simp only [leftIs, rightIs, Bool.false_eq_true, false_iff] at leftSign rightSign
      rw [magnitudes] at less
      split <;> split <;> omega
    | negative leftIs rightIs less =>
      simp only [leftIs, rightIs, true_iff] at leftSign rightSign
      rw [magnitudes] at less
      split <;> split <;> omega

end Binary64

namespace Scalar

/-- The order of values of all types. -/
inductive Before : Scalar → Scalar → Prop where
  | type {left right : Scalar} (lower : left.rank < right.rank) : Before left right
  | boolean : Before (boolean false) (boolean true)
  | int32 {left right : Int32} (less : left.toInt < right.toInt) : Before (int32 left) (int32 right)
  | int64 {left right : Int64} (less : left.toInt < right.toInt) : Before (int64 left) (int64 right)
  | float64 {left right : Binary64} (before : left.Before right) :
      Before (float64 left) (float64 right)
  /-- Texts are in the order of their bytes. -/
  | utf8 {left right : String} (less : left.toUTF8.toList < right.toUTF8.toList) :
      Before (utf8 left) (utf8 right)

private theorem compare_of_before {left right : Scalar} (before : left.Before right) :
    left.compare right = .lt := by
  cases before with
  | type lower =>
    rw [compare_of_rank_ne (Nat.ne_of_lt lower)]
    exact Nat.compare_eq_lt.mpr lower
  | boolean => rfl
  | int32 less | int64 less => exact Int.compare_eq_lt.mpr less
  | float64 before => exact Nat.compare_eq_lt.mpr (Binary64.orderKey_lt_iff.mpr before)
  | utf8 less => exact compareOfLessAndEq_eq_lt.mpr (Text.toUTF8_lt_iff.mp less)

private theorem before_of_compare {left right : Scalar} (less : left.compare right = .lt) :
    left.Before right := by
  by_cases ranks : left.rank = right.rank
  · cases left with
    | null =>
      cases right with
      | null => cases less
      | _ => cases ranks
    | boolean left =>
      cases right with
      | boolean right =>
        cases left <;> cases right <;> first
          | exact .boolean
          | cases less
      | _ => cases ranks
    | int32 left =>
      cases right with
      | int32 right => exact .int32 (Int.compare_eq_lt.mp less)
      | _ => cases ranks
    | int64 left =>
      cases right with
      | int64 right => exact .int64 (Int.compare_eq_lt.mp less)
      | _ => cases ranks
    | float64 left =>
      cases right with
      | float64 right => exact .float64 (Binary64.orderKey_lt_iff.mp (Nat.compare_eq_lt.mp less))
      | _ => cases ranks
    | utf8 left =>
      cases right with
      | utf8 right => exact .utf8 (Text.toUTF8_lt_iff.mpr (compareOfLessAndEq_eq_lt.mp less))
      | _ => cases ranks
  · rw [compare_of_rank_ne ranks] at less
    exact .type (Nat.compare_eq_lt.mp less)

private theorem compare_eq_lt_iff (left right : Scalar) :
    left.compare right = .lt ↔ left.Before right :=
  ⟨before_of_compare, compare_of_before⟩

private theorem compare_eq_eq_iff (left right : Scalar) : left.compare right = .eq ↔ left = right :=
  ⟨eq_of_compare_eq, fun same => same ▸ Std.ReflCmp.compare_self⟩

end Scalar

namespace GroupKey

instance : Std.TransCmp compare where
  eq_swap {left right} := by
    rw [compare_eq_compareTuples, compare_eq_compareTuples]
    exact Std.OrientedCmp.eq_swap
  isLE_trans {first middle last} front back := by
    rw [compare_eq_compareTuples] at front back ⊢
    exact Std.TransCmp.isLE_trans front back

/-- Keys have the same place exactly when they have the same encoding. -/
theorem compare_eq_eq_iff (left right : List Scalar) :
    compare left right = .eq ↔ encode left = encode right := by
  rw [compare_eq_compareTuples, encode_eq_iff_canonical]
  exact ⟨Std.LawfulEqCmp.eq_of_compare, fun same => same ▸ Std.ReflCmp.compare_self⟩

/-- The first position at which the values of two keys differ decides, and if there is none in the
shorter key, the lengths. -/
theorem compare_eq_zipWith (left right : List Scalar) :
    compare left right =
      ((List.zipWith (fun value other => value.canonical.compare other.canonical) left right).find?
        (· ≠ .eq)).getD (Ord.compare left.length right.length) := by
  induction left generalizing right with
  | nil =>
    cases right with
    | nil => rfl
    | cons other others => exact (Nat.compare_eq_lt.mpr (Nat.succ_pos _)).symm
  | cons value values ih =>
    cases right with
    | nil => exact (Nat.compare_eq_gt.mpr (Nat.succ_pos _)).symm
    | cons other others =>
      rw [compare, ih, List.zipWith_cons_cons, List.find?_cons, List.length_cons, List.length_cons]
      cases value.canonical.compare other.canonical with
      | lt | gt => rfl
      | eq => simp [Nat.compare_eq_ite_lt]

/-- Two keys stand as in the lexicographic order of their values, in which a tuple comes before its
extensions. -/
structure IsLexical (left right : List Scalar) : Prop where
  less : compare left right = .lt ↔
    List.Lex (fun value other => value.compare other = .lt) left right
  same : compare left right = .eq ↔ left = right
  greater : compare left right = .gt ↔
    List.Lex (fun value other => value.compare other = .lt) right left

private theorem isLexical {left right : List Scalar} (leftCanonical : IsCanonical left)
    (rightCanonical : IsCanonical right) : IsLexical left right where
  less := by
    rw [compare_of_isCanonical leftCanonical rightCanonical]
    exact Scalar.compareTuples_eq_lt_iff
  same := by
    rw [compare_of_isCanonical leftCanonical rightCanonical]
    exact ⟨Std.LawfulEqCmp.eq_of_compare, fun same => same ▸ Std.ReflCmp.compare_self⟩
  greater := by
    rw [← Scalar.compareTuples_eq_lt_iff, compare_of_isCanonical leftCanonical rightCanonical,
      Std.OrientedCmp.gt_iff_lt]

end GroupKey

open GroupKey (IsCanonical)

/-- Values are totally ordered and only equal ones share a place. Keys are totally ordered and
share a place when they have one encoding; the first difference decides, then the lengths, so that
on canonical keys the order is the lexicographic one. -/
theorem orders_are_total :
    (IsTotalOrder Scalar.compare ∧ ∀ left right : Scalar,
      (left.compare right = .eq ↔ left = right) ∧
      (left.compare right = .lt ↔ left.Before right)) ∧
    (IsTotalPreorder GroupKey.compare ∧ ∀ left right : List Scalar,
      (GroupKey.compare left right = .eq ↔ GroupKey.encode left = GroupKey.encode right) ∧
      GroupKey.compare left right =
        ((List.zipWith (fun value other => value.canonical.compare other.canonical)
          left right).find? (· ≠ .eq)).getD (Ord.compare left.length right.length)) ∧
    ∀ left right : List Scalar, IsCanonical left → IsCanonical right →
      GroupKey.IsLexical left right := by
  refine ⟨⟨?_, fun left right => ?_⟩, ⟨?_, fun left right => ?_⟩, fun left right => ?_⟩
  · exact { isTotalPreorder_of_transCmp Scalar.compare with
      antisymm := fun left right le ge => Std.LawfulEqCmp.eq_of_compare
        (Std.OrientedCmp.isLE_antisymm le ge) }
  · exact ⟨Scalar.compare_eq_eq_iff left right, Scalar.compare_eq_lt_iff left right⟩
  · exact isTotalPreorder_of_transCmp GroupKey.compare
  · exact ⟨GroupKey.compare_eq_eq_iff left right, GroupKey.compare_eq_zipWith left right⟩
  · exact GroupKey.isLexical

/-- Of two keys that begin with the same NaN and the same text, the shorter one comes first. -/
theorem orders_are_total_extension :
    let short : List Scalar := [.float64 .standardNaN, .utf8 "é"]
    let long : List Scalar := [.float64 .standardNaN, .utf8 "é", .null]
    IsCanonical short ∧ IsCanonical long ∧ GroupKey.compare short long = .lt ∧
      GroupKey.IsLexical short long := by
  intro short long
  have shortCanonical : IsCanonical short := by rfl
  have longCanonical : IsCanonical long := by rfl
  have lexical := orders_are_total.2.2 short long shortCanonical longCanonical
  exact ⟨shortCanonical, longCanonical, lexical.less.mpr (.cons (.cons .nil)), lexical⟩

end ColumnQuery
