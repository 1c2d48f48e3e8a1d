import ColumnQuery.Scalar

/-! # The order of scalars is total

Scalars are ordered by the rank of their types and, within one type, by an order that tells
different values apart. Tuples inherit this, position by position.
-/

namespace ColumnQuery.Scalar

theorem compare_of_rank_ne {left right : Scalar} (differ : left.rank ≠ right.rank) :
    left.compare right = Ord.compare left.rank right.rank := by
  cases left <;> cases right <;> first | rfl | exact absurd rfl differ

private theorem rank_le_of_isLE {left right : Scalar} (le : (left.compare right).isLE = true) :
    left.rank ≤ right.rank := by
  by_cases same : left.rank = right.rank
  · exact Nat.le_of_eq same
  · rw [compare_of_rank_ne same, Nat.isLE_compare] at le
    exact le

instance : Std.OrientedCmp compare where
  eq_swap {left right} := by
    by_cases same : left.rank = right.rank
    · cases left <;> cases right <;> exact Std.OrientedOrd.eq_swap
    · rw [compare_of_rank_ne same, compare_of_rank_ne (Ne.symm same)]
      exact Std.OrientedOrd.eq_swap

instance : Std.TransCmp compare where
  isLE_trans {first middle last} front back := by
    have lower := rank_le_of_isLE front
    have upper := rank_le_of_isLE back
    by_cases same : first.rank = last.rank
    · have frontSame : first.rank = middle.rank := by omega
      cases first <;> cases middle <;> cases frontSame <;> cases last <;> first
        | exact Std.TransOrd.isLE_trans front back
        | cases same
    · rw [compare_of_rank_ne same, Nat.isLE_compare]
      omega

theorem eq_of_compare_eq {left right : Scalar} (same : left.compare right = .eq) :
    left = right := by
  by_cases ranks : left.rank = right.rank
  · cases left <;> cases right <;> cases ranks <;> simp only [compare] at same
    · rfl
    · rw [Std.LawfulEqOrd.eq_of_compare same]
    · rw [Int32.toInt_inj.mp (Std.LawfulEqOrd.eq_of_compare same)]
    · rw [Int64.toInt_inj.mp (Std.LawfulEqOrd.eq_of_compare same)]
    · rw [Binary64.orderKey_injective (Std.LawfulEqOrd.eq_of_compare same)]
    · rw [Std.LawfulEqOrd.eq_of_compare same]
  · rw [compare_of_rank_ne ranks] at same
    exact absurd (Std.LawfulEqOrd.eq_of_compare same) ranks

instance : Std.LawfulEqCmp compare where
  compare_self := Std.ReflCmp.compare_self
  eq_of_compare := eq_of_compare_eq

private theorem compareTuples_eq_compareLex : compareTuples = List.compareLex compare := by
  funext left right
  induction left generalizing right with
  | nil => cases right <;> rfl
  | cons value rest ih =>
    cases right with
    | nil => rfl
    | cons other others => rw [compareTuples, ih, List.compareLex_cons_cons]

/-- A tuple comes before another when it is less at the first difference or is cut off there. -/
theorem compareTuples_eq_lt_iff {left right : List Scalar} :
    compareTuples left right = .lt ↔
      List.Lex (fun value other => value.compare other = .lt) left right := by
  induction left generalizing right with
  | nil =>
    cases right with
    | nil => exact ⟨nofun, nofun⟩
    | cons other others => exact ⟨fun _ => .nil, fun _ => rfl⟩
  | cons value values ih =>
    cases right with
    | nil => exact ⟨nofun, nofun⟩
    | cons other others =>
      rw [compareTuples, Ordering.then_eq_lt, ih]
      constructor
      · rintro (less | ⟨same, later⟩)
        · exact .rel less
        · exact eq_of_compare_eq same ▸ .cons later
      · intro less
        cases less with
        | rel less => exact .inl less
        | cons later => exact .inr ⟨Std.ReflCmp.compare_self, later⟩

instance : Std.TransCmp compareTuples := by
  rw [compareTuples_eq_compareLex]
  infer_instance

instance : Std.LawfulEqCmp compareTuples := by
  rw [compareTuples_eq_compareLex]
  infer_instance

end ColumnQuery.Scalar
