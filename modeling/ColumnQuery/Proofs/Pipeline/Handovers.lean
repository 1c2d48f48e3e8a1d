import ColumnQuery.Proofs.Pipeline.Ready
import ColumnQuery.Proofs.Pipeline.Running

/-! # Handovers of a run

While a scan runs, batches go from the scan to the first stage of a chain, from stage to stage, and
from the last stage to the sink. The handovers of a run are all these batches, each with the schema
of the operator that sends it. What a sink keeps after a run is what it makes of the handovers that
reach it. When all stages are ready, every handover is of the schema of its sender, and the run
fails at most for an integer sum.
-/

namespace ColumnQuery

/-- A batch on its way from one operator to the next, or to the sink. -/
structure Handover where
  /-- The schema of the results of the operator that sends the batch. -/
  sender : Schema
  toSink : Bool
  batch : Batch

section Definitions

variable {σ World : Type}

/-- What follows when a batch is pushed into some stages. -/
def pushHandovers : List Stage → Batch → List Handover
  | [], _ => []
  | stage :: rest, batch =>
    match (stage.receive batch).1 with
    | .ok (some next) => ⟨stage.schema, rest.isEmpty, next⟩ :: pushHandovers rest next
    | .ok none | .error _ => []

/-- What follows when some stages are closed. -/
def finishHandovers (order : DrainOrder) (sink : Sink σ) (stages : List Stage) (held : σ) :
    List Handover :=
  match stages with
  | [] => []
  | stage :: rest =>
    match (stage.close order rest.length).1 with
    | .error _ => []
    | .ok none => finishHandovers order sink rest held
    | .ok (some batch) =>
      ⟨stage.schema, rest.isEmpty, batch⟩ :: pushHandovers rest batch ++
        match (push sink rest batch held).1 with
        | .error _ => []
        | .ok () =>
          finishHandovers order sink (push sink rest batch held).2.1
            (push sink rest batch held).2.2
  termination_by stages.length
  decreasing_by all_goals simp

/-- What follows when some chains are closed in order. -/
def finishAllHandovers (orders : Nat → DrainOrder) (sink : Sink σ) :
    List Chain → σ → List Handover
  | [], _ => []
  | chain :: rest, held =>
    let order := orders rest.length
    finishHandovers order sink chain.stages held ++
      match (chain.finish order sink held).1 with
      | .error _ => []
      | .ok () => finishAllHandovers orders sink rest (chain.finish order sink held).2.2

/-- Consumers that also write something down about each batch that they are handed. -/
def Consumers.recording {Note : Type} (consumers : Consumers World)
    (notes : Nat → Batch → World → List Note) : Consumers (World × List Note) where
  width := consumers.width
  handOver worker batch world :=
    let (outcome, next) := consumers.handOver worker batch world.1
    (outcome, next, world.2 ++ notes worker batch world.1)
  stops world := consumers.stops world.1

/-- The handover of a batch by a scan, and what follows from it. -/
def Scan.scanHandovers (scan : Scan) (worker : Nat) (batch : Batch) (world : List Chain × σ) :
    List Handover :=
  match world.1[worker]? with
  | none => []
  | some chain => ⟨scan.schema, chain.stages.isEmpty, batch⟩ :: pushHandovers chain.stages batch

/-- All handovers while a scan runs over a source. -/
def Scan.handovers (scan : Scan) (orders : Nat → DrainOrder) (sink : Sink σ) (source : Source)
    (batchSize : Nat) (cancelled : Bool) (held : σ) : List Handover :=
  let chains := Consumers.ofChains sink scan.children.length
  let delivered := source.push (chains.recording scan.scanHandovers) batchSize scan.projection
    cancelled ((scan.children, held), [])
  let ((children, held), handed) := delivered.world
  match delivered.outcome with
  | .error _ => handed
  | .ok () => handed ++ finishAllHandovers orders sink children held

end Definitions

/-- Who writes down what is handed over does not change the run. -/
theorem Consumers.feed_recording {World Note : Type} (consumers : Consumers World)
    (notes : Nat → Batch → World → List Note) (batches : List Batch) (world : World)
    (written : List Note) :
    ((consumers.recording notes).feed batches (world, written)).1 =
        (consumers.feed batches world).1 ∧
      ((consumers.recording notes).feed batches (world, written)).2.1 =
        (consumers.feed batches world).2 := by
  induction batches generalizing world written with
  | nil => exact ⟨rfl, rfl⟩
  | cons batch rest ih =>
    have recorded : (consumers.recording notes).handOver 0 batch (world, written) =
      ((consumers.handOver 0 batch world).1, (consumers.handOver 0 batch world).2,
        written ++ notes 0 batch world) := rfl
    rw [feed, feed, recorded]
    rcases consumers.handOver 0 batch world with ⟨fault | _, next⟩
    · exact ⟨rfl, rfl⟩
    · exact ih next _

section Recorded

variable {σ : Type} {sink : Sink σ}

/-- A run of a scan with one chain that nobody stops, and its handovers, given those of feeding the
chain. -/
theorem Scan.execute_of_recorded {scan : Scan} {chain : Chain} (one : scan.children = [chain])
    (orders : Nat → DrainOrder) (unstopped : ∀ held, sink.stops held = false) {source : Source}
    {batchSize : Nat} {batches : List Batch}
    (read : source.batches batchSize scan.projection = .ok batches) (held : σ) :
    ((scan.execute orders sink source batchSize false held).outcome,
      (scan.execute orders sink source batchSize false held).world.2,
      scan.handovers orders sink source batchSize false held) =
        match ((Consumers.ofChains sink 1).recording scan.scanHandovers).feed batches
          (([chain], held), []) with
        | (.error fault, (_, kept), handed) => (.error fault, kept, handed)
        | (.ok (), (children, kept), handed) =>
          ((finishAll orders sink children kept).1, (finishAll orders sink children kept).2.2,
            handed ++ finishAllHandovers orders sink children kept) := by
  have never (world : List Chain × σ) : (Consumers.ofChains sink 1).stops world = false :=
    unstopped world.2
  have neverRecording (world : (List Chain × σ) × List Handover) :
      ((Consumers.ofChains sink 1).recording scan.scanHandovers).stops world = false :=
    never world.1
  have delivered := Source.push_of_one rfl never read ([chain], held)
  have recorded := Source.push_of_one rfl neverRecording read (([chain], held), [])
  obtain ⟨sameOutcome, sameWorld⟩ :=
    (Consumers.ofChains sink 1).feed_recording scan.scanHandovers batches ([chain], held) []
  rw [← recorded, ← delivered] at sameOutcome sameWorld
  have count : scan.children.length = 1 := congrArg List.length one
  rw [execute, handovers, count, one, ← recorded]
  generalize source.push (Consumers.ofChains sink 1) batchSize scan.projection false
    ([chain], held) = plain at sameOutcome sameWorld ⊢
  generalize source.push ((Consumers.ofChains sink 1).recording scan.scanHandovers) batchSize
    scan.projection false (([chain], held), []) = noted at sameOutcome sameWorld ⊢
  obtain ⟨outcome, ⟨children, kept⟩, partitions, rows⟩ := plain
  obtain ⟨notedOutcome, ⟨⟨notedChildren, notedKept⟩, handed⟩, _, _⟩ := noted
  obtain rfl : notedOutcome = outcome := sameOutcome
  obtain ⟨rfl, rfl⟩ := Prod.mk.inj sameWorld
  rcases notedOutcome with fault | _ <;> rfl

private theorem finishAll_one (orders : Nat → DrainOrder) (sink : Sink σ) (chain : Chain)
    (held : σ) :
    (finishAll orders sink [chain] held).1 = (finish (orders 0) sink chain.stages held).1 ∧
      (finishAll orders sink [chain] held).2.2 =
        (finish (orders 0) sink chain.stages held).2.2 := by
  rw [finishAll, Chain.finish, List.length_nil]
  rcases finish (orders 0) sink chain.stages held with ⟨fault | _, stages, kept⟩ <;>
    exact ⟨rfl, rfl⟩

private theorem finishAllHandovers_one (orders : Nat → DrainOrder) (sink : Sink σ) (chain : Chain)
    (held : σ) :
    finishAllHandovers orders sink [chain] held =
      finishHandovers (orders 0) sink chain.stages held := by
  rw [finishAllHandovers, List.length_nil]
  rcases (chain.finish (orders 0) sink held).1 with fault | _ <;> exact List.append_nil _

/-- Feeding a chain hands each batch to its first stage. -/
theorem handOver_recorded (scan : Scan) (stages : List Stage) (output : Schema) (batch : Batch)
    (held : σ) (handed : List Handover) :
    ((Consumers.ofChains sink 1).recording scan.scanHandovers).handOver 0 batch
        (([⟨stages, output⟩], held), handed) =
      ((push sink stages batch held).1,
        ([⟨(push sink stages batch held).2.1, output⟩], (push sink stages batch held).2.2),
        handed ++ ⟨scan.schema, stages.isEmpty, batch⟩ :: pushHandovers stages batch) := rfl

end Recorded

section Arrivals

variable {σ : Type} {sink : Sink σ}

/-- The batches that reach the sink. -/
def arrivals (handovers : List Handover) : List Batch :=
  (handovers.filter (·.toSink)).map (·.batch)

private theorem arrivals_append (early late : List Handover) :
    arrivals (early ++ late) = arrivals early ++ arrivals late := by
  rw [arrivals, List.filter_append, List.map_append]
  rfl

/-- A sink makes of a batch that is pushed what it makes of the batches that reach it. -/
theorem kept_push (sink : Sink σ) (sender : Schema) (stages : List Stage) (batch : Batch)
    (held : σ) :
    (push sink stages batch held).2.2 =
      sink.keptAfter (arrivals (⟨sender, stages.isEmpty, batch⟩ :: pushHandovers stages batch))
        held := by
  induction stages generalizing sender batch with
  | nil => rfl
  | cons stage rest ih =>
    rw [push, pushHandovers]
    rcases stage.receive batch with ⟨fault | _ | next, after⟩
    · rfl
    · rfl
    · exact ih stage.schema next

private theorem kept_finish (order : DrainOrder) (stages : List Stage) (held : σ) :
    (finish order sink stages held).2.2 =
      sink.keptAfter (arrivals (finishHandovers order sink stages held)) held := by
  -- what is pushed into the later stages changes them before they close, but not their number
  generalize count : stages.length = length
  induction length generalizing stages held with
  | zero =>
    rw [List.length_eq_zero_iff.mp count, finish, finishHandovers]
    rfl
  | succ length ih =>
    cases stages with
    | nil => cases count
    | cons stage rest =>
      have restLength : rest.length = length := Nat.succ.inj count
      rw [finish, finishHandovers]
      rcases stage.close order rest.length with ⟨fault | _ | batch, after⟩
      · rfl
      · exact ih rest held restLength
      · have pushed := kept_push sink stage.schema rest batch held
        have sameLength := (length_push sink rest batch held).trans restLength
        dsimp only
        split
        · rename_i pushing
          rw [pushing] at pushed
          rw [pushing]
          simpa using pushed
        · rename_i others left pushing
          rw [pushing] at pushed sameLength
          rw [pushing, arrivals_append, Sink.keptAfter_append, ← pushed]
          exact ih others left sameLength

private theorem kept_feed (scan : Scan) (stages : List Stage) (output : Schema)
    (batches : List Batch) {start held : σ} {handed : List Handover}
    (before : held = sink.keptAfter (arrivals handed) start) :
    let result := ((Consumers.ofChains sink 1).recording scan.scanHandovers).feed batches
      (([⟨stages, output⟩], held), handed)
    ∃ left kept, result.2.1 = ([⟨left, output⟩], kept) ∧
      kept = sink.keptAfter (arrivals result.2.2) start := by
  induction batches generalizing stages held handed with
  | nil => exact ⟨stages, held, rfl, before⟩
  | cons batch rest ih =>
    have pushed := kept_push sink scan.schema stages batch held
    rw [before, ← Sink.keptAfter_append, ← arrivals_append, ← before] at pushed
    rw [Consumers.feed, handOver_recorded]
    rcases pushing : push sink stages batch held with ⟨fault | _, left, kept⟩ <;>
      rw [pushing] at pushed
    · exact ⟨left, kept, rfl, pushed⟩
    · exact ih left pushed

/-- What a sink keeps after a run is what it makes of the batches that reach it. -/
theorem Scan.kept_eq_arrivals {scan : Scan} {chain : Chain} (one : scan.children = [chain])
    (orders : Nat → DrainOrder) (unstopped : ∀ held, sink.stops held = false) {source : Source}
    {batchSize : Nat} {batches : List Batch}
    (read : source.batches batchSize scan.projection = .ok batches) (held : σ) :
    (scan.execute orders sink source batchSize false held).world.2 =
      sink.keptAfter (arrivals (scan.handovers orders sink source batchSize false held)) held := by
  obtain ⟨stages, output⟩ := chain
  have start : held = sink.keptAfter (arrivals []) held := rfl
  obtain ⟨left, kept, world, same⟩ := kept_feed scan stages output batches start
  obtain ⟨-, ran⟩ := Prod.mk.inj (execute_of_recorded one orders unstopped read held)
  rcases feeding : ((Consumers.ofChains sink 1).recording scan.scanHandovers).feed batches
    (([⟨stages, output⟩], held), []) with ⟨fault | _, ⟨children, final⟩, handed⟩ <;>
    rw [feeding] at world same ran <;>
    obtain ⟨ended, listed⟩ := Prod.mk.inj ran <;>
    obtain ⟨rfl, rfl⟩ := Prod.mk.inj world
  · rw [ended, listed]
    exact same
  · rw [ended, listed, arrivals_append, Sink.keptAfter_append, ← same, (finishAll_one ..).2,
      finishAllHandovers_one]
    exact kept_finish (orders 0) left _

end Arrivals

/-- A batch of exactly the columns of its sender, without a null in a required column. What reaches
the sink is of the schema that the run produces. -/
structure Handover.IsSound (produced : Schema) (handover : Handover) : Prop where
  schema : handover.batch.schema = handover.sender
  columns : Batch.Matches handover.sender handover.batch.columns handover.batch.rowCount
  required : handover.batch.nullInRequired? = none
  last : handover.toSink = true → handover.sender = produced
  records : ∃ records, handover.batch.toRecordSet = .ok records

private theorem Batch.IsOf.isSound {batch : Batch} {sender produced : Schema}
    (sent : batch.IsOf sender) {toSink : Bool} (last : toSink = true → sender = produced) :
    Handover.IsSound produced ⟨sender, toSink, batch⟩ := by
  obtain ⟨rfl, allowed⟩ := sent
  obtain ⟨records, taken, -⟩ := toRecordSet_of_allows allowed
  exact ⟨rfl, batch.matching, batch.nullInRequired?_eq_none_iff.mpr allowed, last, records, taken⟩

/-- A sink that takes every batch of a schema that can be handed to a client, and never asks for the
query to be cancelled. -/
structure Sink.Takes {σ : Type} (sink : Sink σ) (schema : Schema) : Prop where
  accepts : ∀ batch held, batch.schema = schema → batch.nullInRequired? = none →
    (sink.accept batch held).1 = .ok ()
  unstopped : ∀ held, sink.stops held = false

/-- Stages that take batches of one schema to batches of another. -/
inductive StagesReady : Schema → List Stage → Schema → Prop where
  | nil {schema : Schema} : StagesReady schema [] schema
  | cons {input middle output : Schema} {stage : Stage} {rest : List Stage}
      (first : stage.Ready input middle) (later : StagesReady middle rest output) :
      StagesReady input (stage :: rest) output

theorem StagesReady.last {middle output : Schema} {rest : List Stage}
    (later : StagesReady middle rest output) (isLast : rest.isEmpty = true) : middle = output := by
  cases later with
  | nil => rfl
  | cons => cases isLast

/-- The stages of typed nodes are ready before they have received anything. -/
theorem NodesTyped.ready {input output : Schema} {nodes : List BoundNode}
    (typed : NodesTyped input nodes output) :
    StagesReady input (nodes.map BoundNode.freshStage) output := by
  induction typed with
  | nil => exact .nil
  | cons first _ ih => exact .cons first.ready ih

section Runs

variable {σ : Type} {sink : Sink σ} {input output : Schema} {stages : List Stage}

/-- A batch that is pushed into ready stages leaves them ready, or a sum leaves 64 bits. -/
theorem push_of_ready (ready : StagesReady input stages output) (takes : sink.Takes output)
    {batch : Batch} (received : batch.IsOf input) (held : σ) :
    GivesOrOverflows (fun _ => StagesReady input (push sink stages batch held).2.1 output)
        (push sink stages batch held).1 ∧
      ∀ handover ∈ pushHandovers stages batch, handover.IsSound output := by
  induction ready generalizing batch with
  | nil =>
    obtain ⟨rfl, allowed⟩ := received
    have accepted := takes.accepts batch held rfl (batch.nullInRequired?_eq_none_iff.mpr allowed)
    refine ⟨?_, List.forall_mem_nil _⟩
    simp only [push, accepted]
    exact .nil
  | @cons input middle output stage rest first later ih =>
    have step := Stage.receive_of_ready first received
    rw [push, pushHandovers]
    rcases answered : stage.receive batch with ⟨fault | _ | next, after⟩ <;> rw [answered] at step
    · exact ⟨step, List.forall_mem_nil _⟩
    · exact ⟨.cons step.2 later, List.forall_mem_nil _⟩
    · have nextIsOf := step.1 next rfl
      obtain ⟨rested, sound⟩ := ih takes nextIsOf
      constructor
      · dsimp only
        rcases pushed : push sink rest next held with ⟨fault | _, others, left⟩ <;>
          rw [pushed] at rested
        · exact rested
        · exact .cons step.2 rested
      · refine List.forall_mem_cons.mpr ⟨?_, sound⟩
        rw [first.schema_eq]
        exact nextIsOf.isSound later.last

/-- Ready stages close, or a sum leaves 64 bits. -/
theorem finish_of_ready (order : DrainOrder) (ready : StagesReady input stages output)
    (supported : input.IsSupported) (takes : sink.Takes output) (held : σ) :
    GivesOrOverflows (fun _ => True) (finish order sink stages held).1 ∧
      ∀ handover ∈ finishHandovers order sink stages held, handover.IsSound output := by
  -- what is pushed into the later stages changes them before they close, but not their number
  generalize count : stages.length = length
  induction length generalizing input stages held with
  | zero =>
    rw [List.length_eq_zero_iff.mp count, finish, finishHandovers]
    exact ⟨trivial, List.forall_mem_nil _⟩
  | succ length ih =>
    cases ready with
    | nil => cases count
    | @cons _ middle _ stage rest first later =>
      have restLength : rest.length = length := Nat.succ.inj count
      have middleSupported : middle.IsSupported := by
        obtain ⟨node, typed, -⟩ := first
        exact typed.isSupported supported
      obtain ⟨answer, after, closed, answered⟩ :=
        Stage.close_of_ready first supported order rest.length
      rw [finish, finishHandovers, closed]
      cases answer with
      | none =>
        obtain ⟨rested, sound⟩ := ih later middleSupported held restLength
        exact ⟨rested, sound⟩
      | some next =>
        have nextIsOf := answered next rfl
        have handed : Handover.IsSound output ⟨stage.schema, rest.isEmpty, next⟩ := by
          rw [first.schema_eq]
          exact nextIsOf.isSound later.last
        obtain ⟨pushed, followed⟩ := push_of_ready later takes nextIsOf held
        have sameLength := (length_push sink rest next held).trans restLength
        dsimp only
        split
        · rename_i fault others left pushing
          rw [pushing] at pushed
          rw [pushing]
          exact ⟨pushed, by simpa using ⟨handed, followed⟩⟩
        · rename_i others left pushing
          rw [pushing] at pushed sameLength
          rw [pushing]
          obtain ⟨rested, sound⟩ := ih pushed middleSupported left sameLength
          refine ⟨rested, List.forall_mem_append.mpr ⟨?_, sound⟩⟩
          exact List.forall_mem_cons.mpr ⟨handed, followed⟩

/-- Batches that are fed to a ready chain leave it ready, or a sum leaves 64 bits. -/
theorem feed_of_ready {scan : Scan} {batches : List Batch}
    (ready : StagesReady scan.schema stages output) (takes : sink.Takes output)
    (each : ∀ batch ∈ batches, batch.IsOf scan.schema) (held : σ) {handed : List Handover}
    (before : ∀ handover ∈ handed, handover.IsSound output) :
    let result := ((Consumers.ofChains sink 1).recording scan.scanHandovers).feed batches
      (([⟨stages, output⟩], held), handed)
    GivesOrOverflows (fun _ => ∃ left kept, result.2.1 = ([⟨left, output⟩], kept) ∧
        StagesReady scan.schema left output) result.1 ∧
      ∀ handover ∈ result.2.2, handover.IsSound output := by
  induction batches generalizing stages held handed with
  | nil => exact ⟨⟨stages, held, rfl, ready⟩, before⟩
  | cons batch rest ih =>
    have isOf := each batch List.mem_cons_self
    obtain ⟨pushed, followed⟩ := push_of_ready ready takes isOf held
    have first : Handover.IsSound output ⟨scan.schema, stages.isEmpty, batch⟩ :=
      isOf.isSound ready.last
    have sound : ∀ handover ∈ handed ++ ⟨scan.schema, stages.isEmpty, batch⟩ ::
        pushHandovers stages batch, handover.IsSound output :=
      List.forall_mem_append.mpr ⟨before, List.forall_mem_cons.mpr ⟨first, followed⟩⟩
    rw [Consumers.feed, handOver_recorded]
    rcases pushing : push sink stages batch held with ⟨fault | _, left, kept⟩ <;>
      rw [pushing] at pushed
    · exact ⟨pushed, sound⟩
    · have later : ∀ other ∈ rest, other.IsOf scan.schema :=
        fun other isMember => each other (List.mem_cons_of_mem _ isMember)
      exact ih pushed later kept sound

/-- A scan of one ready chain over a source of batches of its schema succeeds, or a sum leaves 64
bits, and all handovers are sound. -/
theorem Scan.execute_of_ready {scan : Scan} (one : scan.children = [⟨stages, output⟩])
    (orders : Nat → DrainOrder) (ready : StagesReady scan.schema stages output)
    (supported : scan.schema.IsSupported) (takes : sink.Takes output) {source : Source}
    {batchSize : Nat} {batches : List Batch}
    (read : source.batches batchSize scan.projection = .ok batches)
    (each : ∀ batch ∈ batches, batch.IsOf scan.schema) (held : σ) :
    GivesOrOverflows (fun _ => True)
        (scan.execute orders sink source batchSize false held).outcome ∧
      ∀ handover ∈ scan.handovers orders sink source batchSize false held,
        handover.IsSound output := by
  have noneHanded : ∀ handover ∈ ([] : List Handover), handover.IsSound output :=
    List.forall_mem_nil _
  obtain ⟨fed, sound⟩ := feed_of_ready ready takes each held noneHanded
  have ran := execute_of_recorded one orders takes.unstopped read held
  rcases feeding : ((Consumers.ofChains sink 1).recording scan.scanHandovers).feed batches
    (([⟨stages, output⟩], held), []) with ⟨fault | _, ⟨children, kept⟩, handed⟩ <;>
    rw [feeding] at fed sound ran <;>
    obtain ⟨outcome, ended⟩ := Prod.mk.inj ran <;>
    obtain ⟨-, listed⟩ := Prod.mk.inj ended <;>
    rw [outcome, listed]
  · exact ⟨fed, sound⟩
  · obtain ⟨left, last, same, leftReady⟩ := fed
    obtain ⟨rfl, rfl⟩ := Prod.mk.inj same
    obtain ⟨closed, followed⟩ := finish_of_ready (orders 0) leftReady supported takes kept
    rw [(finishAll_one ..).1, finishAllHandovers_one]
    exact ⟨closed, List.forall_mem_append.mpr ⟨sound, followed⟩⟩

end Runs

end ColumnQuery
