import ColumnQuery.Aggregate.Accumulator
import ColumnQuery.Aggregate.Meaning
import ColumnQuery.Proofs.Scalar.Order
import ColumnQuery.Proofs.Traversal

/-! # Folding values gives their aggregate

An accumulator that has folded some values holds what the aggregate function gives for the whole
list. It refuses a value only where a sum of integers leaves 64 bits, which is just where the list
has no sum.
-/

namespace ColumnQuery

theorem Scalar.isNull_of_ne {value : Scalar} (present : value ≠ .null) : value.isNull = false := by
  cases value with
  | null => exact absurd rfl present
  | _ => rfl

namespace Accumulator

/-- Fold some values, up to the first refusal. -/
def absorb (accumulator : Accumulator) (values : List Scalar) : Except Error Accumulator :=
  values.foldlM accumulate accumulator

theorem absorb_cons (accumulator : Accumulator) (value : Scalar) (values : List Scalar) :
    accumulator.absorb (value :: values) =
      (accumulator.accumulate value >>= fun next => next.absorb values) := by
  rw [absorb, List.foldlM_cons]
  rfl

/-- Nulls do not count. -/
theorem absorb_present (accumulator : Accumulator) (values : List Scalar) :
    accumulator.absorb (values.filter fun value => !value.isNull) = accumulator.absorb values := by
  induction values generalizing accumulator with
  | nil => rfl
  | cons value values ih =>
    by_cases isNull : value = .null
    · subst isNull
      rw [absorb_cons, accumulate_null, ok_bind, ← ih]
      rfl
    · have present : (!value.isNull) = true := by rw [Scalar.isNull_of_ne isNull, Bool.not_false]
      rw [List.filter_cons, if_pos present, absorb_cons, absorb_cons]
      exact congrArg _ (funext ih)

/-- Values that are not null. -/
theorem type?_of_present {type : DataType} {values : List Scalar}
    (fits : ∀ value ∈ values, value.FitsIn type) :
    ∀ value ∈ values.filter fun value => !value.isNull, value.type? = some type := by
  intro value isMember
  obtain ⟨isValue, present⟩ := List.mem_filter.mp isMember
  rcases fits value isValue with rfl | typed
  · cases present
  · exact typed

private theorem absorb_count {type : DataType} (seen : Nat) {values : List Scalar}
    (typed : ∀ value ∈ values, value.type? = some type) :
    (count seen).absorb values = .ok (count (seen + values.length)) := by
  induction values generalizing seen with
  | nil => rfl
  | cons value values ih =>
    have counted : (count seen).accumulate value = .ok (count (seen + 1)) := by
      cases value <;> first
        | rfl
        | simpa [Scalar.type?] using typed _ List.mem_cons_self
    rw [absorb_cons, counted, ok_bind, ih _ fun other isMember =>
      typed other (List.mem_cons_of_mem _ isMember), List.length_cons]
    simp only [Except.ok.injEq, count.injEq]
    omega

private theorem absorb_floatSum (total : Binary64) {values : List Scalar}
    (typed : ∀ value ∈ values, value.type? = some .float64) :
    (floatSum (some total)).absorb values =
      .ok (floatSum (some ((values.filterMap Scalar.float?).foldl Binary64.add total))) := by
  induction values generalizing total with
  | nil => rfl
  | cons value values ih =>
    have rest := fun other isMember => typed other (List.mem_cons_of_mem value isMember)
    cases value with
    | float64 x => exact ih (total.add x) rest
    | _ => simpa [Scalar.type?] using typed _ List.mem_cons_self

/-- The operands of an average. -/
theorem absorb_average {type : DataType} (numeric : type.isNumeric = true) (total : Binary64)
    (seen : Nat) {values : List Scalar} (typed : ∀ value ∈ values, value.type? = some type) :
    (average total seen).absorb values =
      .ok (average
        ((values.filterMap Scalar.float?).foldl (fun total value => Binary64.add value total) total)
        (seen + values.length)) := by
  induction values generalizing total seen with
  | nil => rfl
  | cons value values ih =>
    have rest := fun other isMember => typed other (List.mem_cons_of_mem value isMember)
    have typedHead := typed _ List.mem_cons_self
    have length : seen + (value :: values).length = seen + 1 + values.length := by
      rw [List.length_cons]
      omega
    rw [length]
    cases value with
    | int32 n => exact ih _ _ rest
    | int64 n => exact ih _ _ rest
    | float64 x => exact ih _ _ rest
    | null => simp [Scalar.type?] at typedHead
    | boolean b | utf8 s =>
      simp [Scalar.type?] at typedHead
      simp [← typedHead, DataType.isNumeric] at numeric

/-- The sum of every front part of some integers fits in 64 bits, counted from a start. -/
def PartialSumsFitFrom (start : Int) (integers : List Int) : Prop :=
  ∀ count ≤ integers.length, FitsInt64 (start + (integers.take count).sum)

private theorem partialSumsFitFrom_cons (start n : Int) (rest : List Int) :
    PartialSumsFitFrom start (n :: rest) ↔
      FitsInt64 start ∧ PartialSumsFitFrom (start + n) rest := by
  constructor
  · intro fits
    refine ⟨by simpa using fits 0 (Nat.zero_le _), ?_⟩
    intro count bound
    simpa [Int.add_assoc] using fits (count + 1) (by simpa using bound)
  · rintro ⟨first, later⟩ count bound
    cases count with
    | zero => simpa using first
    | succ count => simpa [Int.add_assoc] using later count (by simpa using bound)

theorem fitsInt64_toInt (n : Int64) : FitsInt64 n.toInt :=
  ⟨n.minValue_le_toInt, n.toInt_le⟩

theorem toInt_ofInt_of_fits {n : Int} (fits : FitsInt64 n) : (Int64.ofInt n).toInt = n :=
  Int64.toInt_ofInt_of_le fits.1 (Int64.toInt_maxValue_add_one ▸ Int.lt_add_one_of_le fits.2)

private theorem accumulate_integer {type : DataType} (integer : type = .int32 ∨ type = .int64)
    {value : Scalar} (typed : value.type? = some type) (total : Option Int64) :
    ∃ n : Int64, value.integer? = some n.toInt ∧
      (integerSum total).accumulate value = addInteger total n := by
  cases value with
  | int32 n => exact ⟨n.toInt64, by rw [Int32.toInt_toInt64]; rfl, rfl⟩
  | int64 n => exact ⟨n, rfl, rfl⟩
  | null => cases typed
  | boolean b | float64 x | utf8 s => rcases integer with rfl | rfl <;> cases typed

theorem addInteger_of_fits {total n : Int64} (fits : FitsInt64 (total.toInt + n.toInt)) :
    addInteger (some total) n =
      .ok (integerSum (some (Int64.ofInt (total.toInt + n.toInt)))) := by
  unfold FitsInt64 at fits
  simp only [addInteger, addInt64?, if_pos fits]

theorem addInteger_of_not_fits {total n : Int64} (unfit : ¬FitsInt64 (total.toInt + n.toInt)) :
    addInteger (some total) n = .error .sumOverflow := by
  unfold FitsInt64 at unfit
  simp only [addInteger, addInt64?, if_neg unfit]

/-- A sum that has begun goes on as long as it fits in 64 bits. -/
theorem absorb_integerSum {type : DataType} (integer : type = .int32 ∨ type = .int64)
    (total : Int64) {values : List Scalar} (typed : ∀ value ∈ values, value.type? = some type) :
    (PartialSumsFitFrom total.toInt (values.filterMap Scalar.integer?) →
      (integerSum (some total)).absorb values = .ok (integerSum (some
        (Int64.ofInt (total.toInt + (values.filterMap Scalar.integer?).sum))))) ∧
    (¬PartialSumsFitFrom total.toInt (values.filterMap Scalar.integer?) →
      (integerSum (some total)).absorb values = .error .sumOverflow) := by
  induction values generalizing total with
  | nil =>
    refine ⟨fun _ => ?_, fun refused => ?_⟩
    · simp [absorb]
    · refine absurd (fun count bound => ?_) refused
      simpa using fitsInt64_toInt total
  | cons value values ih =>
    have rest := fun other isMember => typed other (List.mem_cons_of_mem value isMember)
    obtain ⟨n, isInteger, accumulated⟩ :=
      accumulate_integer integer (typed value List.mem_cons_self) (some total)
    rw [List.filterMap_cons_some isInteger, partialSumsFitFrom_cons, absorb_cons, accumulated]
    by_cases fits : FitsInt64 (total.toInt + n.toInt)
    · have later := ih (Int64.ofInt (total.toInt + n.toInt)) rest
      rw [toInt_ofInt_of_fits fits] at later
      rw [addInteger_of_fits fits, ok_bind, List.sum_cons, ← Int.add_assoc]
      exact ⟨fun all => later.1 all.2, fun refused =>
        later.2 fun all => refused ⟨fitsInt64_toInt total, all⟩⟩
    · rw [addInteger_of_not_fits fits, error_bind]
      refine ⟨fun all => ?_, fun _ => rfl⟩
      exact absurd (by simpa using all.2 0 (Nat.zero_le _)) fits

end Accumulator

section Extremum

/-- A direction in which values can be extremal. -/
def IsDirection (direction : Ordering) : Prop := direction = .lt ∨ direction = .gt

theorem beats_trans {direction : Ordering} (isDirection : IsDirection direction)
    {first middle last : Scalar} (front : (first.compare middle == direction) = true)
    (back : (middle.compare last == direction) = true) :
    (first.compare last == direction) = true := by
  rw [beq_iff_eq] at front back ⊢
  rcases isDirection with rfl | rfl
  · exact Std.TransCmp.lt_trans front back
  · exact Std.TransCmp.gt_trans front back

theorem not_beats_trans {direction : Ordering} (isDirection : IsDirection direction)
    {first middle last : Scalar} (front : (first.compare middle == direction) = false)
    (back : (middle.compare last == direction) = false) :
    (first.compare last == direction) = false := by
  rw [beq_eq_false_iff_ne] at front back ⊢
  rcases isDirection with rfl | rfl
  · have := Std.TransCmp.isGE_trans (Ordering.isGE_iff_ne_lt.mpr front)
      (Ordering.isGE_iff_ne_lt.mpr back)
    exact Ordering.isGE_iff_ne_lt.mp this
  · have := Std.TransCmp.isLE_trans (Ordering.isLE_iff_ne_gt.mpr front)
      (Ordering.isLE_iff_ne_gt.mpr back)
    exact Ordering.isLE_iff_ne_gt.mp this

/-- The better of two values, the first one where neither is. -/
def better (direction : Ordering) (first second : Scalar) : Scalar :=
  if second.compare first == direction then second else first

theorem better_assoc {direction : Ordering} (isDirection : IsDirection direction)
    (first middle last : Scalar) :
    better direction (better direction first middle) last =
      better direction first (better direction middle last) := by
  unfold better
  cases second : middle.compare first == direction <;>
    cases third : last.compare middle == direction <;> simp only [second, third, if_true, if_false,
      Bool.false_eq_true]
  · rw [not_beats_trans isDirection third second]
    rfl
  · rw [beats_trans isDirection third second]
    rfl

theorem extremumOf_cons (direction : Ordering) (value : Scalar) (rest : List Scalar) :
    extremumOf direction (value :: rest) =
      some ((extremumOf direction rest).elim value (better direction value)) := by
  rw [extremumOf]
  cases extremumOf direction rest <;> rfl

theorem mem_of_extremumOf {direction : Ordering} {values : List Scalar} {best : Scalar}
    (found : extremumOf direction values = some best) : best ∈ values := by
  induction values generalizing best with
  | nil => cases found
  | cons value rest ih =>
    rw [extremumOf_cons, Option.some.injEq] at found
    subst found
    cases later : extremumOf direction rest with
    | none => exact List.mem_cons_self
    | some other =>
      simp only [Option.elim_some, better]
      split
      · exact List.mem_cons_of_mem _ (ih later)
      · exact List.mem_cons_self

namespace Accumulator

theorem accumulate_extremum {direction : Ordering} {type : DataType} {value : Scalar}
    (typed : value.type? = some type) (best : Option Scalar) :
    (extremum direction type best).accumulate value =
      .ok (extremum direction type (some (best.elim value (better direction · value)))) := by
  have step : (extremum direction type best).accumulate value =
      .ok (extremum direction type
        (if replaces direction best value then some value else best)) := by
    cases value with
    | null => cases typed
    | _ => simp only [accumulate, typed, if_true]
  rw [step]
  cases best with
  | none => rfl
  | some best =>
    by_cases beats : value.compare best = direction <;> simp [replaces, better, beats]

private theorem absorb_some_extremum {direction : Ordering} (isDirection : IsDirection direction)
    {type : DataType} (best : Scalar) {values : List Scalar}
    (typed : ∀ value ∈ values, value.type? = some type) :
    (extremum direction type (some best)).absorb values = .ok (extremum direction type
      (some ((extremumOf direction values).elim best (better direction best)))) := by
  induction values generalizing best with
  | nil => rfl
  | cons value rest ih =>
    rw [absorb_cons, accumulate_extremum (typed value List.mem_cons_self), ok_bind,
      Option.elim_some, ih _ fun other isMember => typed other (List.mem_cons_of_mem _ isMember),
      extremumOf_cons, Option.elim_some]
    cases extremumOf direction rest with
    | none => rfl
    | some other => simp only [Option.elim_some, better_assoc isDirection]

private theorem absorb_extremum {direction : Ordering} (isDirection : IsDirection direction)
    {type : DataType} {values : List Scalar} (typed : ∀ value ∈ values, value.type? = some type) :
    (extremum direction type none).absorb values =
      .ok (extremum direction type (extremumOf direction values)) := by
  cases values with
  | nil => rfl
  | cons value rest =>
    rw [absorb_cons, accumulate_extremum (typed value List.mem_cons_self), ok_bind,
      Option.elim_none, absorb_some_extremum isDirection value
        fun other isMember => typed other (List.mem_cons_of_mem _ isMember), extremumOf_cons]

end Accumulator

end Extremum

private theorem length_filterMap_float? {type : DataType} (numeric : type.isNumeric = true)
    {values : List Scalar} (typed : ∀ value ∈ values, value.type? = some type) :
    (values.filterMap Scalar.float?).length = values.length := by
  induction values with
  | nil => rfl
  | cons value rest ih =>
    have length := ih fun other isMember => typed other (List.mem_cons_of_mem _ isMember)
    have typedHead := typed value List.mem_cons_self
    cases value with
    | int32 n | int64 n | float64 x => exact congrArg (· + 1) length
    | null => cases typedHead
    | boolean b | utf8 s =>
      cases typedHead
      cases numeric

namespace AggregateFunction

section Result

variable {type : DataType} {values : List Scalar}
  (typed : ∀ value ∈ values, value.type? = some type)
include typed

private theorem result_of_integerSum (integer : type = .int32 ∨ type = .int64) :
    ((Accumulator.integerSum none).absorb values).map Accumulator.result =
      sumOfIntegers (values.filterMap Scalar.integer?) := by
  cases values with
  | nil => rfl
  | cons value rest =>
    obtain ⟨n, isInteger, accumulated⟩ :=
      Accumulator.accumulate_integer integer (typed value List.mem_cons_self) none
    obtain ⟨fits, unfit⟩ := Accumulator.absorb_integerSum integer n
      fun other isMember => typed other (List.mem_cons_of_mem _ isMember)
    -- the sum of no integers is zero, which fits
    have sums : PartialSumsFit (n.toInt :: rest.filterMap Scalar.integer?) ↔
        Accumulator.PartialSumsFitFrom n.toInt (rest.filterMap Scalar.integer?) := by
      have zero : FitsInt64 0 := by decide
      have := Accumulator.partialSumsFitFrom_cons 0 n.toInt (rest.filterMap Scalar.integer?)
      simpa [Accumulator.PartialSumsFitFrom, PartialSumsFit, zero] using this
    rw [Accumulator.absorb_cons, accumulated, List.filterMap_cons_some isInteger, sumOfIntegers,
      if_neg (List.cons_ne_nil _ _)]
    change (((Accumulator.integerSum (some n)).absorb rest).map Accumulator.result) = _
    by_cases all : PartialSumsFit (n.toInt :: rest.filterMap Scalar.integer?)
    · rw [if_pos all, fits (sums.mp all), List.sum_cons]
      rfl
    · rw [if_neg all, unfit fun whole => all (sums.mpr whole)]
      rfl

private theorem result_of_floatSum (float : type = .float64) :
    ((Accumulator.floatSum none).absorb values).map Accumulator.result =
      .ok (sumOfFloats (values.filterMap Scalar.float?)) := by
  subst float
  cases values with
  | nil => rfl
  | cons value rest =>
    have typedHead := typed value List.mem_cons_self
    cases value with
    | float64 x =>
      have summed := Accumulator.absorb_floatSum x
        fun other isMember => typed other (List.mem_cons_of_mem _ isMember)
      rw [Accumulator.absorb_cons]
      change (((Accumulator.floatSum (some x)).absorb rest).map Accumulator.result) = _
      rw [summed]
      rfl
    | _ => cases typedHead

private theorem result_of_average (numeric : type.isNumeric = true) :
    ((Accumulator.average .zero 0).absorb values).map Accumulator.result =
      .ok (averageOf (values.filterMap Scalar.float?)) := by
  have length := length_filterMap_float? numeric typed
  rw [Accumulator.absorb_average numeric .zero 0 typed, Nat.zero_add]
  simp only [Except.map, Accumulator.result, averageOf, ← List.length_eq_zero_iff, length]

end Result

/-- An accumulator that has folded some values of a type that its function accepts holds what the
function gives for them, or the function has no value for them. -/
theorem result_of_absorb {function : AggregateFunction} {type result : DataType}
    (accepted : function.resultType? type = some result) {start : Accumulator}
    (fresh : Accumulator.create function type = .ok start) {values : List Scalar}
    (fits : ∀ value ∈ values, value.FitsIn type) :
    (start.absorb values).map Accumulator.result = function.valueOn type values := by
  have typed := Accumulator.type?_of_present fits
  rw [← Accumulator.absorb_present]
  simp only [Accumulator.create, accepted, Except.ok.injEq] at fresh
  subst fresh
  cases function with
  | count =>
    rw [Accumulator.absorb_count 0 typed, Nat.zero_add]
    rfl
  | min =>
    rw [Accumulator.absorb_extremum (.inl rfl) typed]
    rfl
  | max =>
    rw [Accumulator.absorb_extremum (.inr rfl) typed]
    rfl
  | avg =>
    have numeric : type.isNumeric = true := by
      cases numeric : type.isNumeric with
      | true => rfl
      | false => simp [resultType?, numeric] at accepted
    exact result_of_average typed numeric
  | sum =>
    cases type <;> cases accepted
    · exact result_of_integerSum typed (.inl rfl)
    · exact result_of_integerSum typed (.inr rfl)
    · exact result_of_floatSum typed rfl

/-- The only aggregate that some values may not have is a sum. -/
theorem eq_sumOverflow_of_valueOn {function : AggregateFunction} {type : DataType}
    {values : List Scalar} {error : Error} (failed : function.valueOn type values = .error error) :
    error = .sumOverflow := by
  cases function with
  | sum =>
    simp only [valueOn, sumOfIntegers] at failed
    split at failed
    · cases failed
    · split at failed
      · cases failed
      · split at failed <;> cases failed
        rfl
  | count | min | max | avg => cases failed

private theorem fits_of_extremumOf {type : DataType} {values : List Scalar}
    (fits : ∀ value ∈ values, value.FitsIn type) (direction : Ordering) :
    ((extremumOf direction values).getD .null).FitsIn type := by
  cases found : extremumOf direction values with
  | none => exact .inl rfl
  | some best => exact fits best (mem_of_extremumOf found)

private theorem fits_of_sumOfIntegers {integers : List Int} {value : Scalar}
    (success : sumOfIntegers integers = .ok value) : value.FitsIn .int64 := by
  unfold sumOfIntegers at success
  split at success
  · cases success
    exact .inl rfl
  · split at success <;> cases success
    exact .inr rfl

private theorem fits_sumOfFloats (floats : List Binary64) :
    (sumOfFloats floats).FitsIn .float64 := by
  cases floats with
  | nil => exact .inl rfl
  | cons first rest => exact .inr rfl

/-- The aggregate of some values is of the type that its function gives. -/
theorem fits_of_valueOn {function : AggregateFunction} {type result : DataType}
    (accepted : function.resultType? type = some result) {values : List Scalar} {value : Scalar}
    (fits : ∀ value ∈ values, value.FitsIn type)
    (success : function.valueOn type values = .ok value) : value.FitsIn result := by
  have present (value : Scalar) (isMember : value ∈ values.filter fun value => !value.isNull) :=
    fits value (List.mem_filter.mp isMember).1
  cases function with
  | count =>
    cases accepted
    cases success
    exact .inr rfl
  | min | max =>
    simp only [resultType?] at accepted
    split at accepted <;> cases accepted
    cases success
    exact fits_of_extremumOf present _
  | avg =>
    simp only [resultType?] at accepted
    split at accepted <;> cases accepted
    cases success
    unfold averageOf
    split
    · exact .inl rfl
    · exact .inr rfl
  | sum =>
    cases type <;> cases accepted
    · exact fits_of_sumOfIntegers success
    · exact fits_of_sumOfIntegers success
    · cases success
      exact fits_sumOfFloats _

end AggregateFunction

end ColumnQuery
