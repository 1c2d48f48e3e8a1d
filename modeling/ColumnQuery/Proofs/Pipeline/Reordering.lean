import ColumnQuery.Proofs.Aggregate.Reordering
import ColumnQuery.Proofs.Pipeline.Running
import ColumnQuery.Proofs.Plan.Compilation

/-! # Rows that arrive in another order

Projections and filters take rows one by one, so that rows that come in another order leave in
another order but are the same. An aggregation of order free functions at the end of such a chain
makes the same rows of them: the members of each group are the same, whichever came first, and the
key of a group is canonical, so that it does not depend on which member opened the group. Only the
order of the rows may differ, and with an ordered table that does not either.
-/

namespace ColumnQuery

variable {σ : Type}

/-- Hand the batches that a run makes to a sink, unless the run has failed. -/
def Sink.acceptResults (sink : Sink σ) (results : Except Fault (List Batch)) (held : σ) :
    Except Fault Unit × σ :=
  match results with
  | .ok batches => sink.acceptAll batches held
  | .error fault => (.error fault, held)

section Pointwise

/-- A node that takes rows one by one. -/
def BoundNode.isPointwise : BoundNode → Bool
  | project _ _ | filter _ _ => true
  | aggregate _ => false

private theorem BoundNode.stageBy_of_isPointwise (select : Aggregation → GroupStrategy)
    {node : BoundNode} (pointwise : node.isPointwise = true) :
    node.stageBy select = node.freshStage := by
  cases node with
  | project | filter => rfl
  | aggregate => cases pointwise

/-- A node that takes rows one by one makes the same rows of rows in another order. -/
theorem BoundNode.rowsOn_perm {node : BoundNode} (pointwise : node.isPointwise = true)
    {arrange : List Row → List Row} {rows others made otherMade : List Row}
    (same : rows.Perm others) (success : node.rowsOn arrange rows = .ok made)
    (otherSuccess : node.rowsOn arrange others = .ok otherMade) : made.Perm otherMade := by
  cases node with
  | project =>
    cases success
    cases otherSuccess
    exact same.map _
  | filter =>
    cases success
    cases otherSuccess
    exact same.filter _
  | aggregate => cases pointwise

theorem rowsThrough_perm {nodes : List BoundNode} (pointwise : ∀ node ∈ nodes, node.isPointwise)
    {arrangement : GroupArrangement} {rows others made otherMade : List Row}
    (same : rows.Perm others) (success : rowsThrough arrangement nodes rows = .ok made)
    (otherSuccess : rowsThrough arrangement nodes others = .ok otherMade) :
    made.Perm otherMade := by
  induction nodes generalizing arrangement rows others with
  | nil =>
    cases success
    cases otherSuccess
    exact same
  | cons node nodes ih =>
    rw [rowsThrough] at success otherSuccess
    obtain ⟨middle, first, rest⟩ := bind_eq_ok_iff.mp success
    obtain ⟨otherMiddle, otherFirst, otherRest⟩ := bind_eq_ok_iff.mp otherSuccess
    have middles := BoundNode.rowsOn_perm (pointwise node List.mem_cons_self) same first otherFirst
    exact ih (fun other later => pointwise other (List.mem_cons_of_mem _ later)) middles rest
      otherRest

/-- Nodes that take rows one by one pass on batches of the rows that they make. -/
theorem NodesTyped.drive_pointwise (select : Aggregation → GroupStrategy) {input output : Schema}
    {nodes : List BoundNode} (typed : NodesTyped input nodes output)
    (pointwise : ∀ node ∈ nodes, node.isPointwise) {batches : List Batch}
    (batchTypes : ∀ batch ∈ batches, batch.schema.types = input.types) :
    ∃ nexts : List Batch, (∀ batch ∈ nexts, batch.schema.types = output.types) ∧
      (∀ arrangement, rowsThrough arrangement nodes (batches.flatMap Batch.rows) =
        .ok (nexts.flatMap Batch.rows)) ∧
      ∀ {σ : Type} (order : DrainOrder) (sink : Sink σ) (rest : List Stage) (held : σ),
        drive order sink batches (nodes.map (BoundNode.stageBy select) ++ rest) held =
          drive order sink nexts rest held := by
  induction typed generalizing batches with
  | nil => exact ⟨batches, batchTypes, fun _ => rfl, fun _ _ _ _ => rfl⟩
  | @cons input middle output node nodes first _ ih =>
    have alone := pointwise node List.mem_cons_self
    rcases first.passes_or_aggregates with ⟨change, passes, made⟩ | ⟨_, _, _, rfl, -⟩
    · obtain ⟨middles, middleTypes, middleRows, passed⟩ := drive_each passes batchTypes
      obtain ⟨nexts, types, rows, driven⟩ :=
        ih (fun other later => pointwise other (List.mem_cons_of_mem _ later)) middleTypes
      refine ⟨nexts, types, fun arrangement => ?_, fun order sink rest held => ?_⟩
      · rw [rowsThrough, made, ok_bind, ← middleRows]
        exact rows arrangement.above
      · rw [List.map_cons, List.cons_append, BoundNode.stageBy_of_isPointwise select alone, passed]
        exact driven order sink rest held
    · cases alone

end Pointwise

namespace Aggregation

variable {aggregation : Aggregation} {types groupTypes resultTypes : List DataType}
  {fresh : List Accumulator} {table : GroupTable} {rows others : List Row}

theorem membersOf_eq_filter (rows : List Row) (key : Row) :
    aggregation.membersOf rows key = rows.filter fun row => aggregation.key row == key := by
  have paired : (rows.map aggregation.key).zip (rows.map id) =
      rows.map fun row => (aggregation.key row, row) := List.zip_map'
  rw [List.map_id] at paired
  rw [membersOf, paired, groupMembers, List.filter_map, List.map_map]
  exact List.map_id _

/-- Two orders of some rows that both give a group its row give it the same. -/
theorem rowOf_perm (free : ∀ input ∈ aggregation.aggregates, input.function.IsOrderFree input.type)
    (same : rows.Perm others) {key made otherMade : Row}
    (success : aggregation.rowOf rows key = .ok made)
    (otherSuccess : aggregation.rowOf others key = .ok otherMade) : made = otherMade := by
  obtain ⟨results, aggregated, isRow⟩ := bind_eq_ok_iff.mp success
  obtain ⟨otherResults, otherAggregated, isOtherRow⟩ := bind_eq_ok_iff.mp otherSuccess
  cases isRow
  cases isOtherRow
  have members : (aggregation.membersOf rows key).Perm (aggregation.membersOf others key) := by
    rw [membersOf_eq_filter, membersOf_eq_filter]
    exact same.filter _
  rw [resultsOn] at aggregated otherAggregated
  -- column by column
  generalize aggregation.aggregates = inputs at free aggregated otherAggregated
  congr 1
  clear success otherSuccess
  induction inputs generalizing results otherResults with
  | nil =>
    cases aggregated
    cases otherAggregated
    rfl
  | cons input inputs ih =>
    obtain ⟨value, values, first, rest, rfl⟩ := mapM_cons_eq_ok_iff.mp aggregated
    obtain ⟨other, otherValues, otherFirst, otherRest, rfl⟩ :=
      mapM_cons_eq_ok_iff.mp otherAggregated
    have heads := AggregateFunction.valueOn_perm (free input List.mem_cons_self)
      (members.map fun row => input.operand.valueAt row) first otherFirst
    have tails := ih values otherValues
      (fun other later => free other (List.mem_cons_of_mem _ later)) rest otherRest
    rw [heads, tails]

/-- The groups of some rows are those of the rows in another order. -/
theorem groupKeys_perm (strategy : GroupStrategy) (count : Nat) {keys others : List Row}
    (same : keys.Perm others) :
    (strategy.groupKeys count keys).Perm (strategy.groupKeys count others) ∧
      (strategy = .ordered → strategy.groupKeys count keys = strategy.groupKeys count others) := by
  unfold GroupStrategy.groupKeys
  split
  · exact ⟨.refl _, fun _ => rfl⟩
  have members (key : Row) : key ∈ strategy.arrange keys ↔ key ∈ strategy.arrange others := by
    rw [GroupStrategy.mem_arrange, GroupStrategy.mem_arrange, same.mem_iff]
  have arranged := strategy.arranged_arrange keys
  have otherArranged := strategy.arranged_arrange others
  constructor
  · exact (List.perm_ext_iff_of_nodup (GroupStrategy.nodup_of_arranged arranged)
      (GroupStrategy.nodup_of_arranged otherArranged)).mpr members
  · rintro rfl
    exact GroupStrategy.eq_of_ascending arranged otherArranged members

/-- What an aggregation of order free functions makes of the same rows in two orders is the same. -/
theorem Makes.perm (free : ∀ input ∈ aggregation.aggregates, input.function.IsOrderFree input.type)
    {strategy : GroupStrategy} {made otherMade : List Row} (same : rows.Perm others)
    (makes : aggregation.Makes strategy rows made)
    (otherMakes : aggregation.Makes strategy others otherMade) :
    made.Perm otherMade ∧ (strategy = .ordered → made = otherMade) := by
  obtain ⟨keys, groups, inOrder, each⟩ := makes
  obtain ⟨otherKeys, otherGroups, otherInOrder, otherEach⟩ := otherMakes
  have sameGroups := groupKeys_perm strategy aggregation.groups.length (same.map aggregation.key)
  have sameKeys : keys.Perm otherKeys := groups.trans (sameGroups.1.trans otherGroups.symm)
  have sameRows : otherKeys.map (aggregation.rowOf rows) = otherMade.map .ok := by
    rw [← mapM_eq_ok_iff.mp otherEach]
    refine List.map_congr_left fun key isKey => ?_
    obtain ⟨row, -, success⟩ := exists_result_of_mapM each (sameKeys.mem_iff.mpr isKey)
    obtain ⟨otherRow, -, otherSuccess⟩ := exists_result_of_mapM otherEach isKey
    rw [success, otherSuccess, rowOf_perm free same success otherSuccess]
  have otherRows : otherKeys.mapM (aggregation.rowOf rows) = .ok otherMade :=
    mapM_eq_ok_iff.mpr sameRows
  refine ⟨perm_of_mapM sameKeys each otherRows, fun ordered => ?_⟩
  have equalKeys : keys = otherKeys := by
    rw [inOrder ordered, sameGroups.2 ordered, otherInOrder ordered]
  rw [equalKeys] at each
  exact Except.ok.inj (each.symm.trans otherRows)

/-- An aggregation at the end of a chain hands over, when it closes, what it makes of the rows of
all batches, or it fails before it hands over anything. -/
theorem Typed.results_of_drive (typed : aggregation.Typed types groupTypes resultTypes)
    (strategy : GroupStrategy) (order : DrainOrder) {batches : List Batch}
    (batchTypes : ∀ batch ∈ batches, batch.schema.types = types) :
    ∃ results : Except Fault (List Batch),
      (∀ {σ : Type} (sink : Sink σ) (held : σ),
        drive order sink batches [.aggregate aggregation (.empty strategy)] held =
          sink.acceptResults results held) ∧
      ∀ delivered, results = .ok delivered →
        aggregation.Makes strategy (batches.flatMap Batch.rows) (delivered.flatMap Batch.rows) := by
  rcases typed.exists_made batchTypes strategy order 0 with
    ⟨batch, -, makes, driven⟩ | ⟨fault, failed, -⟩
  · refine ⟨.ok [batch], fun sink held => ?_, ?_⟩
    · rw [driven sink [] rfl held, drive_nil]
      rfl
    · rintro delivered ⟨⟩
      rwa [List.flatMap_singleton]
  · exact ⟨.error fault, fun sink held => failed sink [] rfl held, nofun⟩

end Aggregation

end ColumnQuery
