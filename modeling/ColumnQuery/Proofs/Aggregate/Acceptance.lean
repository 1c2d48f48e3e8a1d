import ColumnQuery.Proofs.Aggregate.Reordering
import ColumnQuery.Proofs.Scalar.Floats

/-! # What an accumulator makes of any values

An accumulator is offered values of any types, nulls among them, and goes on after it has refused
one. Its result is then the aggregate of just those values that it has accepted. It refuses a value
of a foreign type, and an integer that would take the exact sum of those accepted out of 64 bits.
-/

namespace ColumnQuery

namespace AggregateFunction

/-- The types of the values that an accumulator for operands of a type takes. It widens: a sum or an
average does not ask for just the type of its operands. -/
def takesType (function : AggregateFunction) (type given : DataType) : Bool :=
  match function with
  | count => true
  | sum => if type = .float64 then given == .float64 else given == .int32 || given == .int64
  | min | max => given == type
  | avg => given.isNumeric

/-- Whether a value is of a type that is taken. A null has no type. -/
def takes (function : AggregateFunction) (type : DataType) (value : Scalar) : Bool :=
  value.type?.any (function.takesType type)

/-- A value is an integer that takes the exact sum of those accepted out of 64 bits. -/
def Overflows (function : AggregateFunction) (type : DataType) (accepted : List Scalar)
    (value : Scalar) : Prop :=
  function = sum ∧ type ≠ .float64 ∧
    ∃ n, value.integer? = some n ∧ ¬FitsInt64 ((accepted.filterMap Scalar.integer?).sum + n)

/-- The result of a function on the values that were accepted. -/
inductive IsResult (type : DataType) (accepted : List Scalar) : AggregateFunction → Scalar → Prop
  /-- Their number, as long as it fits. -/
  | count {n : Int64} (number : accepted.length < 2 ^ 63 → n.toInt = accepted.length) :
    IsResult type accepted .count (.int64 n)
  /-- Null where nothing was accepted, except for the number. -/
  | none {function : AggregateFunction} (other : function ≠ .count) (nothing : accepted = []) :
    IsResult type accepted function .null
  /-- One that is least in the total order of scalars. -/
  | min {least : Scalar} (isMember : least ∈ accepted)
    (below : ∀ value ∈ accepted, (least.compare value).isLE = true) :
    IsResult type accepted .min least
  /-- One that is greatest. -/
  | max {greatest : Scalar} (isMember : greatest ∈ accepted)
    (above : ∀ value ∈ accepted, (greatest.compare value).isGE = true) :
    IsResult type accepted .max greatest
  /-- The exact sum of integers. -/
  | integerSum {integers : List Int} {total : Int64} (integral : type ≠ .float64)
    (nonempty : integers ≠ []) (are : accepted.map Scalar.integer? = integers.map some)
    (sums : total.toInt = integers.sum) :
    IsResult type accepted .sum (.int64 total)
  /-- Floats, added from left to right, starting with the first. -/
  | floatSum {first : Binary64} {rest : List Binary64} (isFloat : type = .float64)
    (are : accepted = (first :: rest).map Scalar.float64) :
    IsResult type accepted .sum (.float64 (rest.foldl Binary64.add first))
  /-- Floats, and integers as floats, added from left to right, starting with zero, and divided by
  their number. A NaN takes the place of an earlier one, so that a total that is a NaN can differ
  from the plain sum in its bits. -/
  | avg {floats : List Binary64} {total : Binary64} (nonempty : floats ≠ [])
    (are : accepted.map Scalar.float? = floats.map some)
    (bits : total = floats.foldl (fun total value => Binary64.add value total) .zero)
    (rounded : total.Alike (floats.foldl Binary64.add .zero)) :
    IsResult type accepted .avg (.float64 (total.div (.ofInt floats.length)))

/-- The direction in which the values of a function are extremal. -/
def direction? : AggregateFunction → Option Ordering
  | min => some .lt
  | max => some .gt
  | _ => none

private theorem isDirection_of_direction? {function : AggregateFunction} {direction : Ordering}
    (towards : function.direction? = some direction) : IsDirection direction := by
  cases function <;> cases towards
  · exact .inl rfl
  · exact .inr rfl

@[simp] theorem takes_null (function : AggregateFunction) (type : DataType) :
    function.takes type .null = false := rfl

private theorem takes_count (type : DataType) (value : Scalar) :
    AggregateFunction.count.takes type value = !value.isNull := by
  cases value <;> rfl

/-- A value that is taken is no null. -/
theorem isNull_of_takes {function : AggregateFunction} {type : DataType} {value : Scalar}
    (taken : function.takes type value = true) : value.isNull = false := by
  cases value <;> first
    | rfl
    | cases taken

private theorem takesType_sum {type : DataType} (integral : type ≠ .float64) (given : DataType) :
    AggregateFunction.sum.takesType type given = (given == .int32 || given == .int64) :=
  if_neg integral

private theorem takes_of_overflows {function : AggregateFunction} {type : DataType}
    {accepted : List Scalar} {value : Scalar}
    (overflows : function.Overflows type accepted value) : function.takes type value = true := by
  obtain ⟨rfl, integral, n, isInteger, -⟩ := overflows
  cases value <;> cases isInteger
  · exact takesType_sum integral .int32
  · exact takesType_sum integral .int64

/-- Only a sum of integers can overflow. -/
theorem not_overflows {function : AggregateFunction} {type : DataType}
    (bounded : function = sum → type = .float64) (accepted : List Scalar) (value : Scalar) :
    ¬function.Overflows type accepted value :=
  fun ⟨isSum, integral, _⟩ => integral (bounded isSum)

end AggregateFunction

/-- The extremum with one more value at the end. -/
theorem extremumOf_concat {direction : Ordering} (isDirection : IsDirection direction)
    (values : List Scalar) (value : Scalar) :
    extremumOf direction (values ++ [value]) =
      some ((extremumOf direction values).elim value (better direction · value)) := by
  induction values with
  | nil => rfl
  | cons first rest ih =>
    rw [List.cons_append, extremumOf_cons, ih, extremumOf_cons]
    cases extremumOf direction rest with
    | none => rfl
    | some best => exact congrArg some (better_assoc isDirection first best value).symm

/-- Reading one more value. -/
theorem map_concat_some {read : Scalar → Option α} {values : List Scalar} {results : List α}
    (are : values.map read = results.map some) {value : Scalar} {result : α}
    (is : read value = some result) :
    (values ++ [value]).map read = (results ++ [result]).map some := by
  rw [List.map_append, List.map_append, are, List.map_singleton, List.map_singleton, is]

private theorem filterMap_of_map_some {read : Scalar → Option α} {values : List Scalar}
    {results : List α} (are : values.map read = results.map some) :
    values.filterMap read = results :=
  calc values.filterMap read
    _ = (values.map read).filterMap id := by rw [List.filterMap_map, Function.id_comp]
    _ = results := by rw [are, List.filterMap_map, Function.id_comp, List.filterMap_some]

namespace Accumulator

/-- One call: its outcome, and the accumulator after it, which is as before if the call failed. -/
def offer (accumulator : Accumulator) (value : Scalar) : Except Error Unit × Accumulator :=
  match accumulator.accumulate value with
  | .ok next => (.ok (), next)
  | .error error => (.error error, accumulator)

/-- The accumulator after some calls, whether they succeeded or failed. -/
def after (accumulator : Accumulator) (values : List Scalar) : Accumulator :=
  values.foldl (fun accumulator value => (accumulator.offer value).2) accumulator

/-- The values, other than nulls, of the calls that succeeded. -/
def accepted (accumulator : Accumulator) : List Scalar → List Scalar
  | [] => []
  | value :: values =>
    let (outcome, next) := accumulator.offer value
    if outcome.isOk && !value.isNull then value :: next.accepted values else next.accepted values

@[simp] theorem accumulateEach_singleton (accumulator : Accumulator) (value : Scalar) :
    accumulateEach [accumulator] [value] =
      ((accumulator.offer value).1, [(accumulator.offer value).2]) := by
  rw [accumulateEach, offer]
  cases accumulator.accumulate value <;> rfl

private theorem offer_of_ok {accumulator next : Accumulator} {value : Scalar}
    (folded : accumulator.accumulate value = .ok next) :
    accumulator.offer value = (.ok (), next) := by
  rw [offer, folded]

private theorem offer_of_error {accumulator : Accumulator} {value : Scalar} {error : Error}
    (refused : accumulator.accumulate value = .error error) :
    accumulator.offer value = (.error error, accumulator) := by
  rw [offer, refused]

/-- An accumulator holds the aggregate of the values that a function on operands of a type has
accepted. -/
inductive Holds (type : DataType) (accepted : List Scalar) : AggregateFunction → Accumulator → Prop
  | count {seen : Nat} (number : seen = accepted.length) : Holds type accepted .count (.count seen)
  | noInteger (integral : type ≠ .float64) (nothing : accepted = []) :
    Holds type accepted .sum (.integerSum none)
  | integers {integers : List Int} {total : Int64} (integral : type ≠ .float64)
    (nonempty : integers ≠ []) (are : accepted.map Scalar.integer? = integers.map some)
    (sums : total.toInt = integers.sum) : Holds type accepted .sum (.integerSum (some total))
  | noFloat (isFloat : type = .float64) (nothing : accepted = []) :
    Holds type accepted .sum (.floatSum none)
  | floats {first : Binary64} {rest : List Binary64} (isFloat : type = .float64)
    (are : accepted = (first :: rest).map Scalar.float64) :
    Holds type accepted .sum (.floatSum (some (rest.foldl Binary64.add first)))
  | extremum {function : AggregateFunction} {direction : Ordering}
    (towards : function.direction? = some direction) {best : Option Scalar}
    (found : extremumOf direction accepted = best) :
    Holds type accepted function (.extremum direction type best)
  | average {floats : List Binary64} {seen : Nat}
    (are : accepted.map Scalar.float? = floats.map some) (number : seen = floats.length) :
    Holds type accepted .avg
      (.average (floats.foldl (fun total value => Binary64.add value total) .zero) seen)

/-- A new accumulator has accepted nothing. -/
theorem holds_of_create {function : AggregateFunction} {type : DataType} {start : Accumulator}
    (created : create function type = .ok start) : Holds type [] function start := by
  rw [create] at created
  cases given : function.resultType? type with
  | none =>
    rw [given] at created
    cases created
  | some result =>
    rw [given] at created
    cases function with
    | count =>
      cases created
      exact .count rfl
    | min | max =>
      cases created
      exact .extremum rfl rfl
    | avg =>
      cases created
      exact @Holds.average type [] [] 0 rfl rfl
    | sum =>
      cases type <;> cases given <;> cases created
      · exact .noInteger (by decide) rfl
      · exact .noInteger (by decide) rfl
      · exact .noFloat rfl rfl

/-- What becomes of a call for an accumulator that has accepted some values. -/
inductive Offered (function : AggregateFunction) (type : DataType) (accepted : List Scalar)
    (accumulator : Accumulator) (value : Scalar) : Except Error Unit × Accumulator → Prop
  | passed (isNull : value = .null) :
    Offered function type accepted accumulator value (.ok (), accumulator)
  | folded {next : Accumulator} (taken : function.takes type value = true)
    (fits : ¬function.Overflows type accepted value)
    (holds : Holds type (accepted ++ [value]) function next) :
    Offered function type accepted accumulator value (.ok (), next)
  | overflowed (taken : function.takes type value = true)
    (overflows : function.Overflows type accepted value) :
    Offered function type accepted accumulator value (.error .sumOverflow, accumulator)
  | refused {error : Error} (present : value ≠ .null) (foreign : function.takes type value = false)
    (kind : error.kind = .type) :
    Offered function type accepted accumulator value (.error error, accumulator)

section Offer

variable {type : DataType} {accepted : List Scalar}

private theorem offered_count {seen : Nat} (number : seen = accepted.length) (value : Scalar) :
    Offered .count type accepted (.count seen) value ((count seen).offer value) := by
  by_cases isNull : value = .null
  · subst isNull
    exact .passed rfl
  · have folded : (count seen).accumulate value = .ok (count (seen + 1)) := by
      cases value with
      | null => exact absurd rfl isNull
      | _ => rfl
    have fits : ¬AggregateFunction.count.Overflows type accepted value :=
      AggregateFunction.not_overflows (by nofun) accepted value
    rw [offer_of_ok folded]
    refine .folded ?_ fits (.count ?_)
    · rw [AggregateFunction.takes_count, Scalar.isNull_of_ne isNull, Bool.not_false]
    · rw [List.length_append, number, List.length_singleton]

private theorem offered_extremum {function : AggregateFunction} {direction : Ordering}
    (towards : function.direction? = some direction) (value : Scalar) :
    Offered function type accepted (.extremum direction type (extremumOf direction accepted)) value
      ((extremum direction type (extremumOf direction accepted)).offer value) := by
  have takes : function.takes type value = (value.type? == some type) := by
    cases function <;> cases towards <;> cases value <;> rfl
  have fits : ¬function.Overflows type accepted value :=
    AggregateFunction.not_overflows (by rintro rfl; cases towards) accepted value
  by_cases typed : value.type? = some type
  · rw [offer_of_ok (accumulate_extremum typed _)]
    refine .folded (by rw [takes, typed, beq_self_eq_true]) fits (.extremum towards ?_)
    exact extremumOf_concat (AggregateFunction.isDirection_of_direction? towards) accepted value
  · by_cases isNull : value = .null
    · subst isNull
      exact .passed rfl
    · have refused : (extremum direction type (extremumOf direction accepted)).accumulate value =
          .error (.extremumRejects value type) := by
        cases value with
        | null => exact absurd rfl isNull
        | _ => exact if_neg typed
      rw [offer_of_error refused]
      exact .refused isNull (by rw [takes, beq_eq_false_iff_ne.mpr typed]) rfl

private theorem offered_average {floats : List Binary64} {seen : Nat}
    (are : accepted.map Scalar.float? = floats.map some) (length : seen = floats.length)
    (value : Scalar) :
    let total := floats.foldl (fun total value => Binary64.add value total) .zero
    Offered .avg type accepted (.average total seen) value ((average total seen).offer value) := by
  intro total
  have fits : ¬AggregateFunction.avg.Overflows type accepted value :=
    AggregateFunction.not_overflows (by nofun) accepted value
  -- a number is added as the float that it is or is nearest to
  have number (x : Binary64) (isFloat : value.float? = some x)
      (taken : AggregateFunction.avg.takes type value = true)
      (folded : (average total seen).accumulate value = .ok (addToAverage total seen x)) :
      Offered .avg type accepted (.average total seen) value
        ((average total seen).offer value) := by
    rw [offer_of_ok folded]
    have added : Holds type (accepted ++ [value]) .avg
        (.average ((floats ++ [x]).foldl (fun total value => Binary64.add value total) .zero)
          (seen + 1)) :=
      .average (map_concat_some are isFloat) (by rw [length, List.length_append]; rfl)
    rw [List.foldl_append] at added
    exact .folded taken fits added
  cases value with
  | null => exact .passed rfl
  | int32 n => exact number (.ofInt n.toInt) rfl rfl rfl
  | int64 n => exact number (.ofInt n.toInt) rfl rfl rfl
  | float64 x => exact number x rfl rfl rfl
  | boolean b | utf8 s => exact .refused nofun rfl rfl

private theorem offered_float (isFloat : type = .float64) {total : Option Binary64}
    (holds : Holds type accepted .sum (.floatSum total)) (value : Scalar) :
    Offered .sum type accepted (.floatSum total) value ((floatSum total).offer value) := by
  subst isFloat
  cases value with
  | null => exact .passed rfl
  | float64 x =>
    have fits : ¬AggregateFunction.sum.Overflows .float64 accepted (.float64 x) :=
      AggregateFunction.not_overflows (fun _ => rfl) accepted _
    cases holds with
    | noFloat _ nothing =>
      subst nothing
      exact .folded rfl fits (@Holds.floats _ _ x [] rfl rfl)
    | @floats first rest _ are =>
      have added : Holds .float64 (accepted ++ [.float64 x]) .sum
          (.floatSum (some ((rest ++ [x]).foldl Binary64.add first))) :=
        .floats rfl (by rw [are, ← List.cons_append, List.map_append]; rfl)
      rw [List.foldl_append] at added
      exact .folded rfl fits added
  | boolean b | int32 n | int64 n | utf8 s => exact .refused nofun rfl rfl

/-- An integer is added to the exact sum of those before it, or refused if this leaves 64 bits. -/
theorem offered_integer (integral : type ≠ .float64) {total : Option Int64}
    (holds : Holds type accepted .sum (.integerSum total)) {value : Scalar} {n : Int64}
    (isInteger : value.integer? = some n.toInt)
    (taken : AggregateFunction.sum.takes type value = true)
    (called : (integerSum total).accumulate value = addInteger total n) :
    Offered .sum type accepted (.integerSum total) value ((integerSum total).offer value) := by
  have overflows_iff (integers : List Int)
      (are : accepted.map Scalar.integer? = integers.map some) :
      AggregateFunction.sum.Overflows type accepted value ↔
        ¬FitsInt64 (integers.sum + n.toInt) := by
    simp [AggregateFunction.Overflows, integral, isInteger, filterMap_of_map_some are]
  cases holds with
  | noInteger _ nothing =>
    subst nothing
    have fits : ¬AggregateFunction.sum.Overflows type [] value := by
      rw [overflows_iff [] rfl, not_not, List.sum_nil, Int.zero_add]
      exact fitsInt64_toInt n
    rw [offer_of_ok called]
    have are : [value].map Scalar.integer? = [n.toInt].map some := by
      rw [List.map_singleton, isInteger, List.map_singleton]
    exact .folded taken fits (.integers integral (List.cons_ne_nil _ _) are (Int.add_zero _).symm)
  | @integers integers total _ nonempty are sums =>
    by_cases fits : FitsInt64 (integers.sum + n.toInt)
    · have called := called.trans (addInteger_of_fits (sums ▸ fits))
      rw [offer_of_ok called]
      refine .folded taken (by rw [overflows_iff integers are, not_not]; exact fits) ?_
      refine .integers integral (by simp) (map_concat_some are isInteger) ?_
      rw [sums, List.sum_append, List.sum_singleton]
      exact toInt_ofInt_of_fits fits
    · have called := called.trans (addInteger_of_not_fits (sums ▸ fits))
      rw [offer_of_error called]
      exact .overflowed taken ((overflows_iff integers are).mpr fits)

private theorem offered_integerSum (integral : type ≠ .float64) {total : Option Int64}
    (holds : Holds type accepted .sum (.integerSum total)) (value : Scalar) :
    Offered .sum type accepted (.integerSum total) value ((integerSum total).offer value) := by
  have takes := AggregateFunction.takesType_sum integral
  cases value with
  | null => exact .passed rfl
  | int32 n =>
    exact offered_integer integral holds (n := n.toInt64) (by rw [Int32.toInt_toInt64]; rfl)
      (takes .int32) rfl
  | int64 n => exact offered_integer integral holds rfl (takes .int64) rfl
  | boolean b => exact .refused nofun (takes .boolean) rfl
  | float64 x => exact .refused nofun (takes .float64) rfl
  | utf8 s => exact .refused nofun (takes .utf8) rfl

/-- What becomes of a call depends only on the values that were accepted before it. -/
theorem Holds.offered {function : AggregateFunction} {accumulator : Accumulator}
    (holds : Holds type accepted function accumulator) (value : Scalar) :
    Offered function type accepted accumulator value (accumulator.offer value) := by
  cases holds with
  | count number => exact offered_count number value
  | noInteger integral nothing =>
    exact offered_integerSum integral (.noInteger integral nothing) value
  | integers integral nonempty are sums =>
    exact offered_integerSum integral (.integers integral nonempty are sums) value
  | noFloat isFloat nothing => exact offered_float isFloat (.noFloat isFloat nothing) value
  | floats isFloat are => exact offered_float isFloat (.floats isFloat are) value
  | extremum towards found =>
    subst found
    exact offered_extremum towards value
  | average are number => exact offered_average are number value

end Offer

section Run

variable {function : AggregateFunction} {type : DataType} {earlier : List Scalar}
  {accumulator : Accumulator}

private theorem accepted_cons (accumulator : Accumulator) (value : Scalar) (values : List Scalar) :
    accumulator.accepted (value :: values) =
      if (accumulator.offer value).1.isOk && !value.isNull then
        value :: (accumulator.offer value).2.accepted values
      else (accumulator.offer value).2.accepted values := rfl

private theorem after_cons (accumulator : Accumulator) (value : Scalar) (values : List Scalar) :
    accumulator.after (value :: values) = (accumulator.offer value).2.after values := rfl

/-- After any calls an accumulator holds the aggregate of the values accepted before them and in
them. -/
theorem Holds.after (holds : Holds type earlier function accumulator) (values : List Scalar) :
    Holds type (earlier ++ accumulator.accepted values) function (accumulator.after values) := by
  induction values generalizing earlier accumulator with
  | nil =>
    rw [accepted, List.append_nil]
    exact holds
  | cons value values ih =>
    have called := holds.offered value
    rw [accepted_cons, after_cons]
    generalize accumulator.offer value = result at called
    cases called with
    | passed isNull =>
      subst isNull
      exact ih holds
    | folded taken fits next =>
      rw [AggregateFunction.isNull_of_takes taken]
      have rest := ih next
      rwa [List.append_assoc] at rest
    | overflowed | refused => exact ih holds

/-- A call that cannot overflow succeeds where its value is of a type that is taken. -/
theorem Holds.accepted_eq_filter (holds : Holds type earlier function accumulator)
    (bounded : function = .sum → type = .float64) (values : List Scalar) :
    accumulator.accepted values = values.filter (function.takes type) := by
  induction values generalizing earlier accumulator with
  | nil => rfl
  | cons value values ih =>
    have called := holds.offered value
    rw [accepted_cons, List.filter_cons]
    generalize accumulator.offer value = result at called
    cases called with
    | passed isNull =>
      subst isNull
      exact ih holds
    | folded taken fits next =>
      rw [AggregateFunction.isNull_of_takes taken, taken, if_pos rfl]
      exact congrArg (value :: ·) (ih next)
    | overflowed taken overflows =>
      exact absurd overflows (AggregateFunction.not_overflows bounded earlier value)
    | refused present foreign =>
      rw [foreign]
      exact ih holds

/-- What an accumulator holds is its result. -/
theorem Holds.isResult (holds : Holds type earlier function accumulator) :
    function.IsResult type earlier accumulator.result := by
  cases holds with
  | count number =>
    refine .count fun small => ?_
    rw [number]
    exact Int64.toInt_ofNat_of_lt small
  | noInteger integral nothing => exact .none nofun nothing
  | integers integral nonempty are sums => exact .integerSum integral nonempty are sums
  | noFloat isFloat nothing => exact .none nofun nothing
  | floats isFloat are => exact .floatSum isFloat are
  | @extremum _ direction towards best found =>
    have isDirection := AggregateFunction.isDirection_of_direction? towards
    cases best with
    | none =>
      refine .none ?_ (eq_nil_of_extremumOf found)
      rintro rfl
      cases towards
    | some best =>
      have isMember := mem_of_extremumOf found
      have unbeaten := not_beats_extremumOf isDirection found
      have swapped (value : Scalar) : best.compare value = (value.compare best).swap :=
        Std.OrientedCmp.eq_swap
      cases function <;> cases towards
      · refine .min isMember fun value isValue => ?_
        change (best.compare value).isLE = true
        rw [swapped, Ordering.isLE_swap]
        exact Ordering.isGE_iff_ne_lt.mpr (beq_eq_false_iff_ne.mp (unbeaten value isValue))
      · refine .max isMember fun value isValue => ?_
        change (best.compare value).isGE = true
        rw [swapped, Ordering.isGE_swap]
        exact Ordering.isLE_iff_ne_gt.mpr (beq_eq_false_iff_ne.mp (unbeaten value isValue))
  | @average floats seen are number =>
    subst number
    cases floats with
    | nil => exact .none nofun (List.map_eq_nil_iff.mp are)
    | cons first rest =>
      have same : Binary64.zero.Alike .zero := .inl rfl
      exact .avg (List.cons_ne_nil first rest) are rfl (Binary64.alike_foldl_add same _)

end Run

/-- A call has failed with an error of a kind. -/
def FailsWith (outcome : Except Error Unit) (kind : ErrorKind) : Prop :=
  ∃ error, outcome = .error error ∧ error.kind = kind

@[simp] theorem not_failsWith_ok (kind : ErrorKind) : ¬FailsWith (.ok ()) kind :=
  fun ⟨_, failed, _⟩ => nomatch failed

@[simp] theorem failsWith_error_iff {error : Error} {kind : ErrorKind} :
    FailsWith (.error error) kind ↔ error.kind = kind := by
  simp [FailsWith]

/-- How an accumulator for a function on operands of a type, which has accepted some values, answers
the next call. -/
structure Answers (function : AggregateFunction) (type : DataType) (accepted : List Scalar)
    (accumulator : Accumulator) (value : Scalar) : Prop where
  /-- A call is a row of one value, folded into one accumulator. -/
  row : accumulateEach [accumulator] [value] =
    ((accumulator.offer value).1, [(accumulator.offer value).2])
  /-- A null changes nothing. -/
  null : value = .null → accumulator.offer value = (.ok (), accumulator)
  /-- A call fails in execution exactly for an integer that takes the exact sum of those accepted
  out of 64 bits, -/
  overflow : FailsWith (accumulator.offer value).1 .execution ↔
    function.Overflows type accepted value
  /-- and with a type error exactly for a value of a type that is not taken. -/
  foreign : FailsWith (accumulator.offer value).1 .type ↔
    value ≠ .null ∧ function.takes type value = false
  /-- There are no other failures. -/
  success : (accumulator.offer value).1 = .ok () ↔
    value = .null ∨ function.takes type value = true ∧ ¬function.Overflows type accepted value
  /-- A failing call leaves the accumulator as it was, its result too. -/
  kept : (accumulator.offer value).1 ≠ .ok () → (accumulator.offer value).2 = accumulator

theorem Holds.answers {function : AggregateFunction} {type : DataType} {accepted : List Scalar}
    {accumulator : Accumulator} (holds : Holds type accepted function accumulator)
    (value : Scalar) : accumulator.Answers function type accepted value := by
  have offered := holds.offered value
  have within (foreign : function.takes type value = false) :
      ¬function.Overflows type accepted value := fun overflows => by
    rw [AggregateFunction.takes_of_overflows overflows] at foreign
    cases foreign
  have present (taken : function.takes type value = true) : value ≠ .null := by
    rintro rfl
    cases taken
  generalize called : accumulator.offer value = result at offered
  cases offered with
  | passed isNull =>
    subst isNull
    have fits := within (AggregateFunction.takes_null function type)
    constructor <;> simp [called, fits]
  | folded taken fits next => constructor <;> simp [called, taken, fits, present taken]
  | overflowed taken overflows =>
    constructor <;> simp [called, taken, overflows, present taken, Error.kind]
  | refused isPresent foreign kind =>
    constructor <;> simp [called, isPresent, foreign, within foreign, kind]

/-- Whatever an accumulator is offered, its result is that of its function on the values that it has
accepted, and these decide how it answers the next call. Unless it sums integers, it accepts every
value of a type that is taken. -/
theorem folds_accepted_values {function : AggregateFunction} {type : DataType}
    {start : Accumulator} (created : create function type = .ok start) (values : List Scalar) :
    function.IsResult type (start.accepted values) (start.after values).result ∧
      ((function = .sum → type = .float64) →
        start.accepted values = values.filter (function.takes type)) ∧
      ∀ value, (start.after values).Answers function type (start.accepted values) value := by
  have fresh := holds_of_create created
  have holds := fresh.after values
  exact ⟨holds.isResult, fun bounded => fresh.accepted_eq_filter bounded values, holds.answers⟩

/-- A sum goes on after a refusal and after an overflow. -/
theorem folds_accepted_values_overflow :
    let offered : List Scalar :=
      [.utf8 "x", .int64 Int64.maxValue, .int32 1, .null, .int32 (-1)]
    let start := Accumulator.integerSum none
    create .sum .int32 = .ok start ∧
      start.accepted offered = [.int64 Int64.maxValue, .int32 (-1)] ∧
      AggregateFunction.sum.IsResult .int32 (start.accepted offered)
        (.int64 (Int64.maxValue - 1)) ∧
      (start.after offered).Answers .sum .int32 (start.accepted offered) (.int64 2) := by
  intro offered start
  have created : create .sum .int32 = .ok start := rfl
  have accepted : start.accepted offered = [.int64 Int64.maxValue, .int32 (-1)] := by decide
  have result : (start.after offered).result = .int64 (Int64.maxValue - 1) := by decide
  obtain ⟨isResult, -, answers⟩ := folds_accepted_values created offered
  rw [result] at isResult
  exact ⟨created, accepted, isResult, answers (.int64 2)⟩

end Accumulator

end ColumnQuery
