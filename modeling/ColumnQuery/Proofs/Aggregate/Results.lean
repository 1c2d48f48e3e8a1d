import ColumnQuery.Aggregate.Accumulator
import Mathlib.Data.List.Forall2

/-! # The types of results

An accumulator has results of the type that its function was given for its operands, whatever it is
fed. Values that it refuses do not change it, so that this holds of operands of any type.
-/

namespace ColumnQuery.Accumulator

/-- The results of an accumulator are of a type, now and after every value that it accepts. -/
def Yields (result : DataType) : Accumulator → Prop
  | integerSum _ | count _ => result = .int64
  | floatSum _ | average _ _ => result = .float64
  | extremum _ type best => result = type ∧ ∀ value, best = some value → value.type? = some type

variable {accumulator next : Accumulator} {result : DataType}

theorem yields_of_create {function : AggregateFunction} {type : DataType}
    (accepted : function.resultType? type = some result)
    (created : create function type = .ok accumulator) : accumulator.Yields result := by
  rw [create, accepted] at created
  cases function with
  | sum => cases type <;> cases accepted <;> cases created <;> rfl
  | count =>
    cases accepted
    cases created
    rfl
  | avg =>
    rw [AggregateFunction.resultType?] at accepted
    split at accepted <;> cases accepted
    cases created
    rfl
  | min | max =>
    rw [AggregateFunction.resultType?] at accepted
    split at accepted <;> cases accepted
    cases created
    exact ⟨rfl, nofun⟩

private theorem yields_of_addInteger {total : Option Int64} {value : Int64}
    (added : addInteger total value = .ok next) : next.Yields .int64 := by
  unfold addInteger at added
  split at added
  · cases added
    rfl
  · split at added <;> cases added
    rfl

theorem Yields.accumulate (yields : accumulator.Yields result) {value : Scalar}
    (accumulated : accumulator.accumulate value = .ok next) : next.Yields result := by
  cases accumulator with
  | integerSum total =>
    obtain rfl : result = .int64 := yields
    cases value with
    | null =>
      cases accumulated
      rfl
    | int32 | int64 => exact yields_of_addInteger accumulated
    | boolean | float64 | utf8 => cases accumulated
  | floatSum total =>
    obtain rfl : result = .float64 := yields
    cases total <;> cases value <;> cases accumulated <;> rfl
  | count seen => cases value <;> cases accumulated <;> exact yields
  | average total seen => cases value <;> cases accumulated <;> exact yields
  | extremum direction type best =>
    obtain ⟨same, typed⟩ := yields
    cases value with
    | null =>
      cases accumulated
      exact ⟨same, typed⟩
    | _ =>
      simp only [Accumulator.accumulate] at accumulated
      split at accumulated <;> cases accumulated
      refine ⟨same, fun value isBest => ?_⟩
      split at isBest
      · cases isBest
        assumption
      · exact typed value isBest

theorem Yields.fits_result (yields : accumulator.Yields result) :
    accumulator.result.FitsIn result := by
  cases accumulator with
  | integerSum total =>
    obtain rfl : result = .int64 := yields
    cases total with
    | none => exact .inl rfl
    | some total => exact .inr rfl
  | floatSum total =>
    obtain rfl : result = .float64 := yields
    cases total with
    | none => exact .inl rfl
    | some total => exact .inr rfl
  | count seen =>
    obtain rfl : result = .int64 := yields
    exact .inr rfl
  | average total seen =>
    obtain rfl : result = .float64 := yields
    rw [Accumulator.result]
    split
    · exact .inl rfl
    · exact .inr rfl
  | extremum direction type best =>
    obtain ⟨rfl, typed⟩ := yields
    cases best with
    | none => exact .inl rfl
    | some value => exact .inr (typed value rfl)

/-- Accumulators have results of some types, one each. -/
def YieldEach (accumulators : List Accumulator) (results : List DataType) : Prop :=
  List.Forall₂ (fun accumulator result => accumulator.Yields result) accumulators results

/-- What a row changes has results of the same types, also if the row is refused half way. -/
theorem YieldEach.accumulateEach {accumulators : List Accumulator} {results : List DataType}
    (yields : YieldEach accumulators results) (values : List Scalar) :
    YieldEach (accumulateEach accumulators values).2 results := by
  induction yields generalizing values with
  | nil => exact .nil
  | @cons accumulator result accumulators results first later ih =>
    cases values with
    | nil => exact .cons first later
    | cons value values =>
      rw [Accumulator.accumulateEach]
      cases accumulated : accumulator.accumulate value with
      | error error => exact .cons first later
      | ok next => exact .cons (first.accumulate accumulated) (ih values)

end ColumnQuery.Accumulator
