import ColumnQuery.Pipeline.Execution
import ColumnQuery.Proofs.Pipeline.Driving
import ColumnQuery.Proofs.Pipeline.Nodes
import ColumnQuery.Proofs.Source.Batches

/-! # Running a chain

A chain of stages that receives some batches and is then closed hands to its sink what its last
stages make of the batches that its first stage makes. A projection or a filter makes one batch of
each batch; an aggregation makes a single batch at the end. So a typed chain hands over the rows
that its nodes make of the rows received, or fails for an integer sum before it hands over anything.
-/

namespace ColumnQuery

variable {σ : Type}

private theorem drive_eq_feed (orders : Nat → DrainOrder) (sink : Sink σ) (chain : Chain)
    (batches : List Batch) (held : σ) :
    drive (orders 0) sink batches chain.stages held =
      match (Consumers.ofChains sink 1).feed batches ([chain], held) with
      | (.ok (), children, held) =>
        ((finishAll orders sink children held).1, (finishAll orders sink children held).2.2)
      | (.error fault, _, held) => (.error fault, held) := by
  induction batches generalizing chain held with
  | nil =>
    simp only [drive, Consumers.feed, finishAll, Chain.finish, List.length_nil]
    rcases finish (orders 0) sink chain.stages held with ⟨fault | _, stages, held⟩ <;> rfl
  | cons batch rest ih =>
    rw [drive, Consumers.feed]
    simp only [Consumers.ofChains, List.getElem?_cons_zero, Chain.push, List.set_cons_zero]
    rcases push sink chain.stages batch held with ⟨fault | _, stages, held⟩
    · rfl
    · exact ih { chain with stages } held

/-- A scan of one chain that nobody stops drives the batches of its source through this chain. -/
theorem Scan.execute_of_one {scan : Scan} {chain : Chain} (one : scan.children = [chain])
    (orders : Nat → DrainOrder) {sink : Sink σ} (unstopped : ∀ held, sink.stops held = false)
    {source : Source} {batchSize : Nat} {batches : List Batch}
    (read : source.batches batchSize scan.projection = .ok batches) (held : σ) :
    ((scan.execute orders sink source batchSize false held).outcome,
      (scan.execute orders sink source batchSize false held).world.2) =
        drive (orders 0) sink batches chain.stages held := by
  have never (world : List Chain × σ) : (Consumers.ofChains sink 1).stops world = false :=
    unstopped world.2
  have pushed := Source.push_of_one rfl never read ([chain], held)
  rw [drive_eq_feed, ← pushed, execute, one]
  dsimp only [List.length_cons, List.length_nil, Nat.zero_add]
  rcases source.push (.ofChains sink 1) batchSize scan.projection false ([chain], held) with
    ⟨fault | _, ⟨children, held⟩, partitions, batchRows⟩ <;> rfl

section Aggregate

variable {aggregation : Aggregation} {groupTypes resultTypes types : List DataType}
  (typed : aggregation.Typed types groupTypes resultTypes) {batches : List Batch}
  (batchTypes : ∀ batch ∈ batches, batch.schema.types = types)
include typed batchTypes

/-- An aggregation enters the rows of all batches before it closes, up to the first that fails. -/
theorem drive_aggregate (order : DrainOrder) (sink : Sink σ) (table : GroupTable)
    (rest : List Stage) (held : σ) :
    drive order sink batches (.aggregate aggregation table :: rest) held =
      match aggregation.absorbRows ((batches.flatMap Batch.rows).map aggregation.contribution)
        table with
      | (.ok (), next) => drive order sink [] (.aggregate aggregation next :: rest) held
      | (.error error, _) => (.error (.error error), held) := by
  induction batches generalizing table with
  | nil => rfl
  | cons batch batches ih =>
    have sameTypes := batchTypes batch List.mem_cons_self
    rw [drive, push, Stage.receive, Aggregation.absorb,
      Aggregation.contributions_of_typed (sameTypes ▸ typed), List.flatMap_cons, List.map_append,
      Aggregation.absorbRows_append]
    dsimp only
    rcases aggregation.absorbRows (batch.rows.map aggregation.contribution) table with
      ⟨error | _, next⟩
    · rfl
    · exact ih (fun other isMember => batchTypes other (List.mem_cons_of_mem _ isMember)) next

/-- A fresh aggregation hands on, when it closes, what it makes of the rows of all batches, or the
chain fails before anything is handed on. If the columns of the groups can be held then it fails for
a sum, and a group has no aggregates. -/
theorem Aggregation.Typed.exists_made (strategy : GroupStrategy) (order : DrainOrder)
    (later : Nat) :
    (∃ batch : Batch, batch.schema = aggregation.schema ∧
        aggregation.Makes strategy (batches.flatMap Batch.rows) batch.rows ∧
        ∀ {σ : Type} (sink : Sink σ) (rest : List Stage), rest.length = later → ∀ held,
          drive order sink batches (.aggregate aggregation (.empty strategy) :: rest) held =
            drive order sink [batch] rest held) ∨
      ∃ fault, (∀ {σ : Type} (sink : Sink σ) (rest : List Stage), rest.length = later → ∀ held,
          drive order sink batches (.aggregate aggregation (.empty strategy) :: rest) held =
            (.error fault, held)) ∧
        (aggregation.schema.IsSupported → fault = .error .sumOverflow ∧
          aggregation.LacksResults (batches.flatMap Batch.rows)) := by
  obtain ⟨fresh, created⟩ := create_of_hasType typed.aggregates
  have fits : ∀ row ∈ batches.flatMap Batch.rows, RowFits types row := by
    intro row isMember
    obtain ⟨batch, isBatch, isRow⟩ := List.mem_flatMap.mp isMember
    exact batchTypes batch isBatch ▸ Batch.fits_of_mem_rows isRow
  have driven {σ : Type} (sink : Sink σ) (rest : List Stage) (held : σ) :=
    drive_aggregate typed batchTypes order sink (.empty strategy) rest held
  have started : (GroupTable.empty strategy).Represents fresh (aggregation.entered []) :=
    GroupTable.represents_empty strategy fresh
  rcases absorbRows_of_represents created started (batches.flatMap Batch.rows) with
    ⟨next, absorbed, same, represents⟩ | ⟨error, next, absorbed, refuses⟩
  · obtain rfl : next.strategy = strategy := same
    have closed {σ : Type} (sink : Sink σ) (rest : List Stage) (held : σ) :
        drive order sink batches (.aggregate aggregation (.empty next.strategy) :: rest) held =
          match (aggregation.flush order rest.length next).1 with
          | .error fault => (.error fault, held)
          | .ok batch => drive order sink [batch] rest held := by
      rw [driven, absorbed]
      dsimp only
      rw [drive_close, Stage.close]
      dsimp only
      cases (aggregation.flush order rest.length next).1 <;> rfl
    -- whether the batch can be made depends on the types of the columns alone
    cases flushed : (aggregation.flush order later next).1 with
    | ok batch =>
      have supported : aggregation.schema.IsSupported := by
        obtain ⟨leaving, -, made⟩ := bind_eq_ok_iff.mp flushed
        exact isSupported_of_batchOf typed.width made
      obtain ⟨own, made, schema, makes⟩ :=
        exists_flush typed supported created fits represents order later
      obtain rfl : batch = own := Except.ok.inj (flushed.symm.trans (congrArg Prod.fst made))
      refine .inl ⟨batch, schema, makes, ?_⟩
      rintro σ sink rest rfl held
      rw [closed, flushed]
    | error fault =>
      refine .inr ⟨fault, ?_, fun supported => ?_⟩
      · rintro σ sink rest rfl held
        rw [closed, flushed]
      · obtain ⟨own, made, -⟩ :=
          exists_flush typed supported created fits represents order later
        cases flushed.symm.trans (congrArg Prod.fst made)
  · obtain ⟨rfl, lacks⟩ := lacksResults_of_refuses typed created fits refuses
    refine .inr ⟨.error .sumOverflow, fun sink rest _ held => ?_, fun _ => ⟨rfl, lacks⟩⟩
    rw [driven, absorbed]

end Aggregate

/-- What a stage that changes each batch by itself makes of some batches. -/
theorem drive_each {stage : Stage} {types middle : List DataType} {change : List Row → List Row}
    (passes : stage.Passes types middle change) {batches : List Batch}
    (batchTypes : ∀ batch ∈ batches, batch.schema.types = types) :
    ∃ nexts : List Batch, (∀ batch ∈ nexts, batch.schema.types = middle) ∧
      nexts.flatMap Batch.rows = change (batches.flatMap Batch.rows) ∧
      ∀ {σ : Type} (order : DrainOrder) (sink : Sink σ) (rest : List Stage) (held : σ),
        drive order sink batches (stage :: rest) held = drive order sink nexts rest held := by
  obtain ⟨nexts, made⟩ := exists_forall₂ fun batch isMember =>
    passes.receives batch (batchTypes batch isMember)
  refine ⟨nexts, fun next isNext => ?_, ?_, fun order sink rest held => ?_⟩
  · obtain ⟨batch, -, same⟩ := exists_of_mem_forall₂ made isNext
    exact same.2.1
  · have rows := map_eq_map_of_forall₂ (made.imp fun _ _ holds => holds.2.2.symm)
    rw [← passes.whole, List.flatMap, List.flatMap, rows]
  · exact drive_pass order sink (made.imp fun _ _ holds => holds.1) (passes.closes order) rest held

/-- The first node of a typed chain makes the batches that the others receive, with its groups in
some order, or has no rows. -/
theorem drive_node {input output : Schema} {node : BoundNode} (typed : node.Typed input output)
    (supported : input.IsSupported) (order : DrainOrder) (later : Nat) {batches : List Batch}
    (batchTypes : ∀ batch ∈ batches, batch.schema.types = input.types) :
    ∃ arrange : List Row → List Row, (∀ keys, (arrange keys).Perm keys) ∧
      ((∃ nexts : List Batch, (∀ batch ∈ nexts, batch.schema.types = output.types) ∧
          node.rowsOn arrange (batches.flatMap Batch.rows) = .ok (nexts.flatMap Batch.rows) ∧
          ∀ {σ : Type} (sink : Sink σ) (rest : List Stage), rest.length = later → ∀ held,
            drive order sink batches (node.freshStage :: rest) held =
              drive order sink nexts rest held) ∨
        node.rowsOn arrange (batches.flatMap Batch.rows) = .error .sumOverflow ∧
          ∀ {σ : Type} (sink : Sink σ) (rest : List Stage), rest.length = later → ∀ held,
            drive order sink batches (node.freshStage :: rest) held =
              (.error (.error .sumOverflow), held)) := by
  rcases typed.passes_or_aggregates with
    ⟨change, passes, made⟩ | ⟨aggregation, groupTypes, resultTypes, rfl, rfl, aggregates⟩
  · obtain ⟨nexts, types, rows, driven⟩ := drive_each passes batchTypes
    refine ⟨id, .refl, .inl ⟨nexts, types, by rw [made, rows], fun sink rest _ held => ?_⟩⟩
    exact driven order sink rest held
  · rcases aggregates.exists_made batchTypes (StrategyRegistry.byArity aggregation) order later with
      ⟨batch, schema, makes, driven⟩ | ⟨fault, driven, failed⟩
    · obtain ⟨arrange, isPerm, made⟩ := makes.exists_rowsOn
      refine ⟨arrange, isPerm, .inl ⟨[batch], fun next isMember => ?_, ?_, driven⟩⟩
      · rw [List.mem_singleton.mp isMember, schema]
      · rw [List.flatMap_singleton]
        exact made
    · obtain ⟨rfl, lacks⟩ := failed (typed.isSupported supported)
      exact ⟨id, .refl, .inr ⟨lacks.rowsOn .refl, driven⟩⟩

/-- A typed chain hands its sink the rows that its nodes make of the rows received, with the groups
in some order, or its nodes have no rows for an integer sum and the sink receives nothing. -/
theorem drive_of_typed {input output : Schema} {nodes : List BoundNode}
    (typed : NodesTyped input nodes output) (supported : input.IsSupported) (order : DrainOrder)
    {batches : List Batch} (batchTypes : ∀ batch ∈ batches, batch.schema.types = input.types) :
    ∃ arrangement : GroupArrangement,
      (∃ delivered : List Batch,
          rowsThrough arrangement nodes (batches.flatMap Batch.rows) =
            .ok (delivered.flatMap Batch.rows) ∧
          ∀ {σ : Type} (sink : Sink σ) (held : σ),
            drive order sink batches (nodes.map BoundNode.freshStage) held =
              sink.acceptAll delivered held) ∨
        rowsThrough arrangement nodes (batches.flatMap Batch.rows) = .error .sumOverflow ∧
          ∀ {σ : Type} (sink : Sink σ) (held : σ),
            drive order sink batches (nodes.map BoundNode.freshStage) held =
              (.error (.error .sumOverflow), held) := by
  induction typed generalizing batches with
  | nil =>
    exact ⟨.firstSeen, .inl ⟨batches, rfl, fun sink held => drive_nil order sink batches held⟩⟩
  | @cons input middle output node rest first later ih =>
    obtain ⟨arrange, isPerm, ⟨nexts, types, made, driven⟩ | ⟨failed, driven⟩⟩ :=
      drive_node first supported order (rest.map BoundNode.freshStage).length batchTypes
    · obtain ⟨above, drivenOn⟩ := ih (first.isSupported supported) types
      refine ⟨.under arrange isPerm above, ?_⟩
      have through : rowsThrough (.under arrange isPerm above) (node :: rest)
          (batches.flatMap Batch.rows) = rowsThrough above rest (nexts.flatMap Batch.rows) := by
        rw [rowsThrough, GroupArrangement.under, made]
        rfl
      simp only [through, List.map_cons, driven _ _ rfl]
      exact drivenOn
    · refine ⟨.under arrange isPerm .firstSeen, .inr ⟨?_, fun sink held => driven sink _ rfl held⟩⟩
      rw [rowsThrough, GroupArrangement.under, failed]
      rfl

end ColumnQuery
