import ColumnQuery.Proofs.Aggregate.Fold
import Mathlib.Algebra.BigOperators.Group.List.Basic

/-! # Aggregates that do not depend on order

The number of some values, a least or greatest one and the exact sum of integers are the same in
whatever order the values come. An extremum is so to the last bit, because the order of values tells
any two different ones apart. An integer sum may fail in one order and succeed in another, but two
orders in which it succeeds agree. A sum or an average of floats is rounded at each step and is left
out.
-/

namespace ColumnQuery

section Extremum

variable {direction : Ordering}

theorem eq_nil_of_extremumOf {values : List Scalar} (none : extremumOf direction values = none) :
    values = [] := by
  cases values with
  | nil => rfl
  | cons value rest =>
    rw [extremumOf_cons] at none
    cases none

private theorem not_beats_self (isDirection : IsDirection direction) (value : Scalar) :
    (value.compare value == direction) = false := by
  have self : value.compare value = .eq := Std.ReflCmp.compare_self
  rw [self]
  rcases isDirection with rfl | rfl <;> rfl

/-- Nothing in a list beats its extremum. -/
theorem not_beats_extremumOf (isDirection : IsDirection direction) {values : List Scalar}
    {best : Scalar} (found : extremumOf direction values = some best) :
    ∀ value ∈ values, (value.compare best == direction) = false := by
  induction values generalizing best with
  | nil => cases found
  | cons first rest ih =>
    rw [extremumOf_cons, Option.some.injEq] at found
    cases later : extremumOf direction rest with
    | none =>
      obtain rfl := eq_nil_of_extremumOf later
      rw [later, Option.elim_none] at found
      subst found
      intro value isMember
      rw [List.mem_singleton.mp isMember]
      exact not_beats_self isDirection first
    | some other =>
      have beyond := ih later
      rw [later, Option.elim_some, better] at found
      cases beats : other.compare first == direction with
      | true =>
        rw [beats, if_pos rfl] at found
        subst found
        intro value isMember
        rcases List.mem_cons.mp isMember with rfl | isRest
        · by_contra reversed
          have circle := beats_trans isDirection (Bool.not_eq_false _ ▸ reversed) beats
          rw [not_beats_self isDirection] at circle
          cases circle
        · exact beyond value isRest
      | false =>
        rw [beats, if_neg Bool.false_ne_true] at found
        subst found
        intro value isMember
        rcases List.mem_cons.mp isMember with rfl | isRest
        · exact not_beats_self isDirection value
        · exact not_beats_trans isDirection (beyond value isRest) beats

/-- Two values neither of which beats the other are the same, to the last bit. -/
theorem eq_of_not_beats (isDirection : IsDirection direction) {left right : Scalar}
    (front : (left.compare right == direction) = false)
    (back : (right.compare left == direction) = false) : left = right := by
  rw [beq_eq_false_iff_ne] at front back
  have swapped : right.compare left = (left.compare right).swap := Std.OrientedCmp.eq_swap
  rw [swapped] at back
  apply Scalar.eq_of_compare_eq
  cases compared : left.compare right with
  | eq => rfl
  | lt | gt =>
    rw [compared] at front back
    rcases isDirection with rfl | rfl <;> simp at front back

/-- The extremum of some values is the same in any order of them. -/
theorem extremumOf_perm (isDirection : IsDirection direction) {values others : List Scalar}
    (same : values.Perm others) : extremumOf direction values = extremumOf direction others := by
  cases found : extremumOf direction values with
  | none =>
    obtain rfl := eq_nil_of_extremumOf found
    rw [List.nil_perm.mp same]
    rfl
  | some best =>
    have isMember := same.mem_iff.mp (mem_of_extremumOf found)
    cases otherFound : extremumOf direction others with
    | none =>
      rw [eq_nil_of_extremumOf otherFound] at isMember
      cases isMember
    | some other =>
      have isOther := same.mem_iff.mpr (mem_of_extremumOf otherFound)
      refine congrArg some (eq_of_not_beats isDirection ?_ ?_)
      · exact not_beats_extremumOf isDirection otherFound best isMember
      · exact not_beats_extremumOf isDirection found other isOther

end Extremum

/-- Two orders in which some integers have a sum agree on it. -/
theorem sumOfIntegers_perm {integers others : List Int} (same : integers.Perm others)
    {value other : Scalar} (summed : sumOfIntegers integers = .ok value)
    (otherSummed : sumOfIntegers others = .ok other) : value = other := by
  unfold sumOfIntegers at summed otherSummed
  by_cases empty : integers = []
  · subst empty
    obtain rfl := List.nil_perm.mp same
    exact Except.ok.inj (summed.symm.trans otherSummed)
  · have nonempty : others ≠ [] := fun none => empty (List.perm_nil.mp (none ▸ same))
    rw [if_neg empty] at summed
    rw [if_neg nonempty] at otherSummed
    split at summed
    · split at otherSummed
      · cases summed
        cases otherSummed
        rw [same.sum_eq]
      · cases otherSummed
    · cases summed

/-- An aggregate function whose value on operands of a type does not depend on their order. -/
def AggregateFunction.IsOrderFree (type : DataType) : AggregateFunction → Prop
  | count | min | max => True
  | sum => type = .int32 ∨ type = .int64
  | avg => False

/-- Two orders in which some operands have an order free aggregate agree on it. -/
theorem AggregateFunction.valueOn_perm {function : AggregateFunction} {type : DataType}
    (free : function.IsOrderFree type) {values others : List Scalar} (same : values.Perm others)
    {value other : Scalar} (made : function.valueOn type values = .ok value)
    (otherMade : function.valueOn type others = .ok other) : value = other := by
  have present := same.filter fun value => !value.isNull
  cases function with
  | count =>
    cases made
    cases otherMade
    rw [present.length_eq]
  | min =>
    cases made
    cases otherMade
    rw [extremumOf_perm (.inl rfl) present]
  | max =>
    cases made
    cases otherMade
    rw [extremumOf_perm (.inr rfl) present]
  | sum =>
    have integer : type ≠ .float64 := by
      rintro rfl
      rcases free with isInt32 | isInt64
      · cases isInt32
      · cases isInt64
    simp only [valueOn, if_neg integer] at made otherMade
    exact sumOfIntegers_perm (present.filterMap _) made otherMade
  | avg => cases free

end ColumnQuery
