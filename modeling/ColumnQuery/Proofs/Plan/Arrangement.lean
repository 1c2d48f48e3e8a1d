import ColumnQuery.Proofs.Plan.Compilation

/-! # The order of groups

The groups of a single group expression come in any order, and what a plan means depends on this
order. As long as these groups are not aggregated again it does so only in the order of its rows:
projections and filters take rows one by one, and an aggregation over rows whose order is certain
makes the same groups. A sum over rows that come in any order may leave 64 bits for one order and
not for another, and a sum of floats may be rounded in another way.
-/

namespace ColumnQuery

/-- Two results are the same rows in some order, or the same failure. -/
inductive SameRows : Except Error (List Row) → Except Error (List Row) → Prop where
  | ok {rows others : List Row} (perm : rows.Perm others) : SameRows (.ok rows) (.ok others)
  | error (error : Error) : SameRows (.error error) (.error error)

namespace SameRows

theorem refl (result : Except Error (List Row)) : SameRows result result := by
  cases result with
  | error error => exact .error error
  | ok rows => exact .ok (.refl rows)

theorem bind {result other : Except Error (List Row)} (same : SameRows result other)
    {next : List Row → Except Error (List Row)}
    (nextSame : ∀ {rows others : List Row}, rows.Perm others → SameRows (next rows) (next others)) :
    SameRows (result >>= next) (other >>= next) := by
  cases same with
  | error error => exact .error error
  | ok perm => exact nextSame perm

/-- A traversal that can only fail in one way does the same in any order. -/
theorem mapM {f : Row → Except Error Row} (only : Error)
    (fails : ∀ key error, f key = .error error → error = only) {keys others : List Row}
    (perm : keys.Perm others) : SameRows (keys.mapM f) (others.mapM f) := by
  have failure {keys others : List Row} (perm : keys.Perm others) {error : Error}
      (failed : keys.mapM f = .error error) : others.mapM f = .error only := by
    cases made : others.mapM f with
    | error other =>
      obtain ⟨key, -, failed⟩ := exists_of_mapM_error made
      rw [fails key other failed]
    | ok rows =>
      obtain ⟨key, isKey, failed⟩ := exists_of_mapM_error failed
      obtain ⟨row, -, success⟩ := exists_result_of_mapM made (perm.mem_iff.mp isKey)
      cases failed.symm.trans success
  cases made : keys.mapM f with
  | error error =>
    rw [← made, failure perm made, failure (.refl keys) made]
    exact .error only
  | ok rows =>
    cases otherMade : others.mapM f with
    | error error => cases made.symm.trans (failure perm.symm otherMade)
    | ok otherRows => exact .ok (perm_of_mapM perm made otherMade)

end SameRows

namespace Plan

/-- Whether some groups of a plan come in any order. -/
def groupsBySingle : Plan → Bool
  | input _ => false
  | project below _ | filter below _ | output below => below.groupsBySingle
  | aggregate below groups _ => groups.length == 1 || below.groupsBySingle

/-- Whether a plan aggregates rows that come from groups in any order. -/
def regroups : Plan → Bool
  | input _ => false
  | project below _ | filter below _ | output below => below.regroups
  | aggregate below _ _ => below.groupsBySingle

variable (arrangement other : GroupArrangement) (contents : List Row)

/-- Without groups that come in any order, a plan means only one list of rows. -/
theorem rows_eq_of_groupsBySingle {plan : Plan} (certain : plan.groupsBySingle = false) :
    plan.rows arrangement contents = plan.rows other contents := by
  induction plan with
  | input => rfl
  | project below exprs ih | filter below predicate ih =>
    simp only [Plan.rows, ih certain]
  | output below ih => exact ih certain
  | aggregate below groups aggregates ih =>
    obtain ⟨several, below⟩ := Bool.or_eq_false_iff.mp certain
    have sameOrder (arrange : List Row → List Row) (keys : List Row) :
        groupOrder arrange groups.length keys = groupOrder id groups.length keys := by
      unfold groupOrder
      split
      · rfl
      · simp_all
      · rfl
    simp only [Plan.rows, ih below, sameOrder]

/-- If the groups that come in any order are not aggregated again, then a plan means the same rows
whatever this order is. -/
theorem sameRows_of_regroups {plan : Plan} {schema : Schema} (derives : Derives plan schema)
    (once : plan.regroups = false) :
    SameRows (plan.rows arrangement contents) (plan.rows other contents) := by
  induction derives with
  | whole | narrowed => exact .refl _
  | project derives _ rowwise named ih =>
    obtain ⟨own, -, -, values⟩ := bind_each_of_isRowwise rowwise named
    simp only [Plan.rows, schema_of_derives derives, ok_bind, values, mapM_ok]
    exact (ih once).bind fun perm => .ok (perm.map _)
  | filter derives rowwise boolean ih =>
    simp only [Plan.rows, schema_of_derives derives, ok_bind,
      Expr.truthOn_of_hasType boolean rowwise, mapM_ok, pure_eq_ok, keep_map_self]
    exact (ih once).bind fun perm => .ok (perm.filter _)
  | @aggregate below schema groups aggregates _ derives _ rowwise isAggregation named =>
    obtain ⟨_, resultFields, -, groupsNamed, resultsNamed⟩ := toField_append named
    obtain ⟨own, -, -, values⟩ := bind_each_of_isRowwise rowwise groupsNamed
    obtain ⟨inputs, -, -, results⟩ := bindAggregate_each isAggregation resultsNamed
    simp only [Plan.rows, schema_of_derives derives, ok_bind,
      rows_eq_of_groupsBySingle arrangement other contents once]
    cases below.rows other contents with
    | error error => exact .error error
    | ok received =>
      have keys : groupKeyOn schema groups =
          fun row => .ok ((BoundExpr.valuesAt own row).map Scalar.canonical) :=
        funext fun row => mapM_change Scalar.canonical (values .groupBy row)
      simp only [ok_bind, keys, mapM_ok, results]
      refine .mapM .sumOverflow (fun key error failed => ?_) ?_
      · rcases bind_eq_error_iff.mp failed with failed | ⟨_, -, success⟩
        · obtain ⟨input, -, failed⟩ := exists_of_mapM_error failed
          exact AggregateFunction.eq_sumOverflow_of_valueOn failed
        · cases success
      · exact (GroupStrategy.groupOrder_perm (arrangement.isPerm _) _ _).trans
          (GroupStrategy.groupOrder_perm (other.isPerm _) _ _).symm

end Plan

end ColumnQuery
