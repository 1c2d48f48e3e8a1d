import ColumnQuery.Proofs.Optimizer.Validity
import ColumnQuery.Proofs.Pipeline.Handovers
import ColumnQuery.Proofs.Plan.Execution
import ColumnQuery.Proofs.Source.Fidelity
import ColumnQuery.Session.Basic

/-! # Accepted plans do not go wrong

A plan that validation accepts, over a faithful source of supported types, compiles. The run fails
at most for an integer sum that leaves 64 bits. Every batch that goes from one operator to the next
is of exactly the schema of its sender, and every batch that reaches the sink is of the schema of
the plan and can be handed to a client.
-/

namespace ColumnQuery

section Sinks

variable {σ : Type} {sink : Sink σ}

/-- A sink that takes every batch takes those of a schema. -/
theorem Sink.IsTotal.takes (total : sink.IsTotal) (schema : Schema) : sink.Takes schema where
  accepts batch held _ _ := total.accepts batch held
  unstopped := total.unstopped

/-- A client takes every batch that has no null in a required column. -/
theorem Sink.takes_handOver (schema : Schema) : Sink.handOver.Takes schema where
  accepts batch held _ required := by
    simp only [handOver, Batch.toRecordSet, required]
  unstopped _ := rfl

end Sinks

/-- Without registered rules, a session compiles what pushdown makes of an accepted plan. -/
theorem Session.compile_of_builtin {session : Session} (builtin : session.optimizer = .empty)
    {plan narrowed : Plan} (accepted : plan.validate = .ok ())
    (pushed : plan.pushdown = .ok narrowed) :
    session.compile plan = narrowed.compile session.strategies := by
  have optimized : session.optimizer.optimize plan = .ok narrowed := by
    rw [builtin, Optimizer.optimize, Optimizer.empty, Optimizer.runRules]
    simp only [Rule.pushdown, pushed, Optimizer.runRules]
  rw [compile, accepted, optimized]
  rfl

/-- A session compiles every accepted plan. Over a faithful source the run succeeds, or an integer
sum leaves 64 bits; every batch on its way is of the schema of its sender, and what reaches the sink
is of the schema of the plan and complete. All this holds in whatever orders hash tables give up
their groups. -/
theorem Session.run_of_accepted {session : Session} (builtin : session.optimizer = .empty)
    (standard : session.strategies = .standard) {below : Plan}
    (accepted : (Plan.output below).validate = .ok ()) {source : Source}
    (planned : below.table.source = source.schema) (supported : source.schema.IsSupported)
    {batchSize : Nat} (faithful : source.IsFaithful batchSize) :
    ∃ scan schema, session.compile (.output below) = .ok scan ∧
      (Plan.output below).schema = .ok schema ∧
      ∀ (orders : Nat → DrainOrder) {σ : Type} (sink : Sink σ), sink.Takes schema → ∀ held,
        let report := scan.execute orders sink source batchSize false held
        let handovers := scan.handovers orders sink source batchSize false held
        (report.outcome = .ok () ∨ report.outcome = .error (.error .sumOverflow)) ∧
        (∀ handover ∈ handovers, handover.IsSound schema) ∧
        report.world.2 = sink.keptAfter (arrivals handovers) held := by
  obtain ⟨schema, derives⟩ := Plan.validate_output.mp accepted
  obtain ⟨narrowed, pushed, narrowedDerives, sameSource⟩ := Plan.derives_pushdown derives
  obtain ⟨nodes, read, table, typed, compiled, -⟩ := Plan.compile_of_derives narrowedDerives
  have narrowedPlanned : narrowed.table.source = source.schema := sameSource.trans planned
  obtain ⟨batches, batchesRead, ofRead⟩ := faithful narrowed.table read narrowedPlanned table
  have produced : below.schema = .ok schema := Plan.schema_of_derives derives
  rw [← standard, ← compile_of_builtin builtin accepted pushed] at compiled
  refine ⟨_, schema, compiled, produced, ?_⟩
  intro orders σ sink takes held
  -- what the narrowed leaf reads is what the first stage of the chain receives
  have readSupported : read.IsSupported :=
    Plan.isSupported_of_read table (narrowedPlanned ▸ supported)
  have each : ∀ batch ∈ batches, batch.IsOf read := by
    intro batch isMember
    obtain ⟨rfl, required⟩ := ofRead batch isMember
    exact ⟨rfl, batch.nullInRequired?_eq_none_iff.mp required⟩
  let scan : Scan := ⟨narrowed.table.path, narrowed.table.projection, read,
    [⟨nodes.map BoundNode.freshStage, schema⟩]⟩
  have one : scan.children = [⟨nodes.map BoundNode.freshStage, schema⟩] := rfl
  have ready : StagesReady scan.schema (nodes.map BoundNode.freshStage) schema := typed.ready
  obtain ⟨outcome, sound⟩ :=
    Scan.execute_of_ready one orders ready readSupported takes batchesRead each held
  exact ⟨outcome.ok_or, sound, Scan.kept_eq_arrivals one orders takes.unstopped batchesRead held⟩

private theorem ordersTable_isFaithful : (Source.memory ordersTable).IsFaithful 8 := by
  have built : MemoryTable.ofPartitions "orders" ordersSchema [[firstOrders], [laterOrders]] =
      .ok ordersTable := rfl
  refine MemoryTable.isFaithful_of_built built ?_ ?_ 8
  · decide
  · decide +kernel

/-- The totals of the orders are handed to a client. -/
theorem run_of_accepted_totals :
    ∃ scan schema, (Session.start .standard).compile (.output totalsPlan) = .ok scan ∧
      (Plan.output totalsPlan).schema = .ok schema ∧
      ∀ orders : Nat → DrainOrder,
        let report := scan.execute orders .handOver (.memory ordersTable) 8 false []
        (report.outcome = .ok () ∨ report.outcome = .error (.error .sumOverflow)) ∧
        ∀ handover ∈ scan.handovers orders .handOver (.memory ordersTable) 8 false [],
          handover.IsSound schema := by
  have accepted : (Plan.output totalsPlan).validate = .ok () := by decide +kernel
  have planned : totalsPlan.table.source = (Source.memory ordersTable).schema := rfl
  have supported : (Source.memory ordersTable).schema.IsSupported := by
    change ∀ type ∈ ordersSchema.types, type.isSupported = true
    decide
  have builtin : (Session.start .standard).optimizer = .empty := rfl
  have standard : (Session.start .standard).strategies = .standard := rfl
  obtain ⟨scan, schema, compiled, produced, safe⟩ :=
    Session.run_of_accepted builtin standard accepted planned supported ordersTable_isFaithful
  refine ⟨scan, schema, compiled, produced, fun orders => ?_⟩
  obtain ⟨outcome, sound, -⟩ := safe orders .handOver (Sink.takes_handOver schema) []
  exact ⟨outcome, sound⟩

end ColumnQuery
