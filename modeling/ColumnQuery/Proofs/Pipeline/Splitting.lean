import ColumnQuery.Proofs.Plan.Execution

/-! # Where batches end

A chain cannot tell how the rows that it receives are cut into batches. A projection and a filter
change each row by itself, so that what they hand on is cut in another way but has the same rows.
An aggregation enters the rows one by one, so that it holds the same groups whatever the cut, and
fails at the same row. When it closes there is nothing left to tell the cuts apart.
-/

namespace ColumnQuery

/-- Two ways to cut the same rows make no difference to a typed chain. -/
theorem NodesTyped.drive_congr {input output : Schema} {nodes : List BoundNode}
    (typed : NodesTyped input nodes output) (order : DrainOrder) {front back : List Batch}
    (frontTypes : ∀ batch ∈ front, batch.schema.types = input.types)
    (backTypes : ∀ batch ∈ back, batch.schema.types = input.types)
    (same : front.flatMap Batch.rows = back.flatMap Batch.rows) :
    ∃ outcome arrived others, arrived.flatMap Batch.rows = others.flatMap Batch.rows ∧
      ∀ {σ : Type} (sink : Sink σ), sink.IsTotal → ∀ held,
        drive order sink front (nodes.map BoundNode.freshStage) held =
            (outcome, sink.keptAfter arrived held) ∧
          drive order sink back (nodes.map BoundNode.freshStage) held =
            (outcome, sink.keptAfter others held) := by
  induction typed generalizing front back with
  | nil =>
    refine ⟨.ok (), front, back, same, fun sink total held => ?_⟩
    rw [List.map_nil, drive_nil, drive_nil, total.acceptAll, total.acceptAll]
    exact ⟨rfl, rfl⟩
  | @cons input middle output node rest first later ih =>
    rw [List.map_cons]
    rcases first.passes_or_aggregates with
      ⟨change, passes, -⟩ | ⟨aggregation, groupTypes, resultTypes, rfl, -, aggregates⟩
    · obtain ⟨frontNexts, frontMiddle, frontRows, frontDriven⟩ := drive_each passes frontTypes
      obtain ⟨backNexts, backMiddle, backRows, backDriven⟩ := drive_each passes backTypes
      simp only [frontDriven, backDriven]
      exact ih frontMiddle backMiddle (by rw [frontRows, backRows, same])
    · -- after the rows have entered, the two runs are one
      obtain ⟨outcome, emitted, driven⟩ := exists_drive order front
        ((BoundNode.aggregate aggregation).freshStage :: rest.map BoundNode.freshStage)
      refine ⟨outcome, emitted, emitted, rfl, fun sink total held => ?_⟩
      have run := driven sink total held
      refine ⟨run, ?_⟩
      rw [BoundNode.freshStage, drive_aggregate aggregates backTypes, ← same,
        ← drive_aggregate aggregates frontTypes]
      exact run

/-- An accepted plan compiles to a chain that takes no notice of where batches end: batches with the
same rows, however they are cut, have the same outcome, and the same rows arrive at the sink, in
whatever order the hash tables of the chain give up their groups. -/
theorem Plan.drive_of_same_rows {below : Plan} (accepted : (output below).validate = .ok ()) :
    ∃ scan chain, (output below).compile .standard = .ok scan ∧ scan.children = [chain] ∧
      ∀ (order : DrainOrder) (front back : List Batch),
        (∀ batch ∈ front, batch.schema = scan.schema) →
        (∀ batch ∈ back, batch.schema = scan.schema) →
        front.flatMap Batch.rows = back.flatMap Batch.rows →
        ∃ outcome arrived others, arrived.flatMap Batch.rows = others.flatMap Batch.rows ∧
          ∀ {σ : Type} (sink : Sink σ), sink.IsTotal → ∀ held,
            drive order sink front chain.stages held =
                (outcome, sink.keptAfter arrived held) ∧
              drive order sink back chain.stages held =
                (outcome, sink.keptAfter others held) := by
  obtain ⟨schema, derives⟩ := validate_output.mp accepted
  obtain ⟨nodes, read, -, typed, compiled, -⟩ := compile_of_derives derives
  refine ⟨_, _, compiled, rfl, fun order front back frontSchema backSchema same => ?_⟩
  exact typed.drive_congr order (fun batch isMember => by rw [frontSchema batch isMember])
    (fun batch isMember => by rw [backSchema batch isMember]) same

def noOrders : Batch where
  schema := ordersSchema
  columns := [⟨.utf8, [], DataType.isSupported_utf8, by decide⟩,
    ⟨.int64, [], DataType.isSupported_int64, by decide⟩]
  rowCount := 0
  matching := ⟨rfl, by decide⟩

def allOrders : Batch where
  schema := ordersSchema
  columns := [⟨.utf8, [.utf8 "pen", .utf8 "ink", .utf8 "pen", .utf8 "ink"],
      DataType.isSupported_utf8, by decide⟩,
    ⟨.int64, [.int64 1, .int64 5, .int64 2, .null], DataType.isSupported_int64, by decide⟩]
  rowCount := 4
  matching := ⟨rfl, by decide⟩

/-- The totals of the orders are the same with all orders in one batch or in two and an empty one
between them. -/
theorem drive_of_same_rows_orders :
    ∃ scan chain, (Plan.output totalsPlan).compile .standard = .ok scan ∧
      scan.children = [chain] ∧
      ∀ order : DrainOrder, ∃ outcome arrived others,
        arrived.flatMap Batch.rows = others.flatMap Batch.rows ∧
        ∀ {σ : Type} (sink : Sink σ), sink.IsTotal → ∀ held,
          drive order sink [firstOrders, noOrders, laterOrders] chain.stages held =
              (outcome, sink.keptAfter arrived held) ∧
            drive order sink [allOrders] chain.stages held =
              (outcome, sink.keptAfter others held) := by
  have accepted : (Plan.output totalsPlan).validate = .ok () := by decide +kernel
  obtain ⟨scan, chain, compiled, one, same⟩ := Plan.drive_of_same_rows accepted
  have schema : scan.schema = ordersSchema := by
    have known : (Plan.output totalsPlan).compile .standard = .ok _ := rfl
    rw [known] at compiled
    cases compiled
    rfl
  refine ⟨scan, chain, compiled, one, fun order => same order _ _ (fun batch isMember => ?_)
    (fun batch isMember => ?_) (by decide +kernel)⟩
  · rw [schema]
    simp only [List.mem_cons, List.not_mem_nil, or_false] at isMember
    rcases isMember with rfl | rfl | rfl <;> rfl
  · rw [schema, List.mem_singleton.mp isMember]
    rfl

end ColumnQuery
