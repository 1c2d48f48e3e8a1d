import ColumnQuery.Pipeline.Execution
import ColumnQuery.Proofs.Delivery.Ending

/-! # Scans under any schedule

A scan opens its source, delivers the batches to its children, and closes the children one after the
other when the delivery has ended well. The steps of the delivery may come in any order. Every
schedule comes to an end, and `Scan.execute` follows one of them.
-/

namespace ColumnQuery

section Opening

variable {World : Type}

/-- What a scan finds when it opens a source. -/
structure Opening where
  Partition : Type
  partitions : List Partition
  load : Partition → Except Error (List Batch)
  /-- Why the source cannot be scanned. -/
  refusal : Option Error

/-- A source that cannot be scanned. -/
def Opening.refused (error : Error) : Opening := ⟨Empty, [], nofun, some error⟩

/-- Deliver the partitions that were found. -/
def Opening.push (opening : Opening) (consumers : Consumers World) (cancelled : Bool)
    (world : World) : Delivery.Report World :=
  match opening.refusal with
  | some error => .refused error world
  | none =>
    let delivery : Delivery opening.Partition World := { consumers with load := opening.load }
    (delivery.run opening.partitions world cancelled).report

/-- Open a source as it is at its present snapshot. -/
def Source.opening (source : Source) (batchSize : Nat) (projection : Option (List String)) :
    Opening :=
  match source with
  | memory table =>
    match table.loader projection with
    | .error error => .refused error
    | .ok load => ⟨List Batch, table.visible table.version, load, none⟩
  | file table content =>
    match table.prepare content batchSize projection with
    | .error error => .refused error
    | .ok (groups, load) => ⟨RowGroup, groups, load, none⟩

/-- To push a source is to open it and to deliver what is found. -/
theorem Source.push_eq_opening (source : Source) (consumers : Consumers World) (batchSize : Nat)
    (projection : Option (List String)) (cancelled : Bool) (world : World) :
    source.push consumers batchSize projection cancelled world =
      (source.opening batchSize projection).push consumers cancelled world := by
  cases source with
  | memory table =>
    rw [push, opening, MemoryTable.push]
    cases table.loader projection <;> rfl
  | file table content =>
    rw [push, opening, FileTable.push]
    cases table.prepare content batchSize projection <;> rfl

end Opening

variable {σ : Type}

/-- A batch that a stage hands on. -/
structure Emission where
  stage : Stage
  batch : Batch

/-- What the stages hand on when a batch is pushed into them. -/
def pushEmissions : List Stage → Batch → List Emission
  | [], _ => []
  | stage :: rest, batch =>
    match (stage.receive batch).1 with
    | .ok (some next) => ⟨stage, next⟩ :: pushEmissions rest next
    | .ok none | .error _ => []

/-- What the stages hand on when they are closed. -/
def finishEmissions (order : DrainOrder) (sink : Sink σ) (stages : List Stage) (held : σ) :
    List Emission :=
  match stages with
  | [] => []
  | stage :: rest =>
    match (stage.close order rest.length).1 with
    | .error _ => []
    | .ok none => finishEmissions order sink rest held
    | .ok (some batch) =>
      ⟨stage, batch⟩ :: pushEmissions rest batch ++
        match push sink rest batch held with
        | (.error _, _, _) => []
        | (.ok (), _, _) =>
          finishEmissions order sink (push sink rest batch held).2.1
            (push sink rest batch held).2.2
  termination_by stages.length
  decreasing_by all_goals simp

/-- A call that a scan makes of one of its children. -/
structure ChildCall where
  child : Nat
  /-- The batch that the child is handed, none where it is told to finish. -/
  batch? : Option Batch
  outcome : Except Fault Unit
  emissions : List Emission

def ChildCall.isFinish (call : ChildCall) : Bool := call.batch?.isNone

/-- The batch of a call and the child that is handed it. -/
def ChildCall.handed? (call : ChildCall) : Option (Nat × Batch) :=
  call.batch?.map (call.child, ·)

/-- A scan that has opened its source. -/
structure OpenScan (σ : Type) where
  opening : Opening
  sink : Sink σ
  children : List Chain

/-- Open the source of a scan. -/
def Scan.opened (scan : Scan) (sink : Sink σ) (source : Source) (batchSize : Nat) : OpenScan σ :=
  ⟨source.opening batchSize scan.projection, sink, scan.children⟩

namespace OpenScan

def delivery (scan : OpenScan σ) : Delivery scan.opening.Partition (List Chain × σ) :=
  { Consumers.ofChains scan.sink scan.children.length with load := scan.opening.load }

/-- How far a scan has come. -/
inductive Phase (σ : Type) where
  | delivering
  /-- The delivery has ended well; some children have finished and others wait for it. -/
  | finishing (finished waiting : List Chain) (held : σ)
  | ended (outcome : Except Fault Unit) (children : List Chain) (held : σ)

def Phase.outcome? : Phase σ → Option (Except Fault Unit)
  | ended outcome _ _ => some outcome
  | delivering | finishing _ _ _ => none

/-- An instant of a scan. -/
structure State (scan : OpenScan σ) where
  delivery : Delivery.State scan.opening.Partition (List Chain × σ)
  phase : Phase σ
  /-- The calls of the children, in order. -/
  calls : List ChildCall

/-- The batches that the children were handed, in order. -/
def State.given {scan : OpenScan σ} (state : State scan) : List (Nat × Batch) :=
  state.calls.filterMap ChildCall.handed?

/-- A step of the delivery, its conclusion, or what follows for the next child, whose hash tables
drain in a given order. -/
inductive Action where
  | deliver (action : Delivery.Action)
  | conclude
  | finish (order : DrainOrder)

variable (scan : OpenScan σ)

/-- The instant before the first step. Without children nothing is delivered. -/
def start (cancelled : Bool) (held : σ) : State scan where
  delivery := scan.delivery.start scan.opening.partitions (scan.children, held) cancelled
  phase :=
    match scan.opening.refusal with
    | some error => .ended (.error (.error error)) scan.children held
    | none => if scan.children.isEmpty then .finishing [] [] held else .delivering
  calls := []

/-- The call that a step of the delivery makes. -/
def callbacks (state : Delivery.State scan.opening.Partition (List Chain × σ)) :
    Delivery.Action → List ChildCall
  | .hand worker =>
    match state.workers[worker]? with
    | some (.holding (batch :: _)) =>
      [{ child := worker
         batch? := some batch
         outcome := (scan.delivery.handOver worker batch state.world).1
         emissions :=
           state.world.1[worker]?.elim [] fun chain => pushEmissions chain.stages batch }]
    | _ => []
  | _ => []

/-- What follows when the delivery has come to an end. -/
def afterDelivery (state : Delivery.State scan.opening.Partition (List Chain × σ)) : Phase σ :=
  match state.outcome with
  | .error fault => .ended (.error fault) state.world.1 state.world.2
  | .ok () => .finishing [] state.world.1 state.world.2

def finishCall (order : DrainOrder) (child : Nat) (chain : Chain) (held : σ) : ChildCall where
  child := child
  batch? := none
  outcome := (chain.finish order scan.sink held).1
  emissions := finishEmissions order scan.sink chain.stages held

/-- What follows when the next child is told to finish, if there is one. -/
def afterFinish (order : DrainOrder) (finished : List Chain) (held : σ) : List Chain → Phase σ
  | [] => .ended (.ok ()) finished held
  | chain :: rest =>
    match chain.finish order scan.sink held with
    | (.ok (), closed, kept) => .finishing (finished ++ [closed]) rest kept
    | (.error fault, closed, kept) => .ended (.error fault) (finished ++ closed :: rest) kept

/-- The call of the next child, if there is one. -/
def finishCalls (order : DrainOrder) (finished : List Chain) (held : σ) :
    List Chain → List ChildCall
  | [] => []
  | chain :: _ => [scan.finishCall order finished.length chain held]

/-- Take a step, if it is possible. -/
def step? (state : State scan) (action : Action) : Option (State scan) :=
  match state.phase, action with
  | .delivering, .deliver action =>
    (scan.delivery.step? state.delivery action).map fun delivery =>
      { state with delivery, calls := state.calls ++ scan.callbacks state.delivery action }
  | .delivering, .conclude =>
    if state.delivery.isDone then
      some { state with phase := scan.afterDelivery state.delivery }
    else none
  | .finishing finished waiting held, .finish order =>
    some { state with
      phase := scan.afterFinish order finished held waiting
      calls := state.calls ++ scan.finishCalls order finished held waiting }
  | _, _ => none

/-- The instants that some schedule leads to. -/
inductive Reachable (initial : State scan) : State scan → Prop where
  | start : Reachable initial initial
  | step {state next : State scan} {action : Action} (reachable : Reachable initial state)
      (taken : scan.step? state action = some next) : Reachable initial next

/-- What a step requires and the instant that it leads to. -/
inductive Step (state : State scan) : Action → State scan → Prop where
  | deliver {action : Delivery.Action}
      {delivery : Delivery.State scan.opening.Partition (List Chain × σ)}
      (delivering : state.phase = .delivering)
      (taken : scan.delivery.step? state.delivery action = some delivery) :
      Step state (.deliver action)
        { state with delivery, calls := state.calls ++ scan.callbacks state.delivery action }
  | conclude (delivering : state.phase = .delivering) (done : state.delivery.isDone = true) :
      Step state .conclude { state with phase := scan.afterDelivery state.delivery }
  | finish (order : DrainOrder) {finished waiting : List Chain} {held : σ}
      (finishing : state.phase = .finishing finished waiting held) :
      Step state (.finish order) { state with
        phase := scan.afterFinish order finished held waiting
        calls := state.calls ++ scan.finishCalls order finished held waiting }

variable {scan} {state next : State scan}

theorem step?_eq_some_iff {action : Action} :
    scan.step? state action = some next ↔ scan.Step state action next := by
  constructor
  · intro taken
    rw [step?.eq_def] at taken
    split at taken
    · rename_i delivering
      obtain ⟨delivery, delivered, rfl⟩ := Option.map_eq_some_iff.mp taken
      exact .deliver delivering delivered
    · rename_i delivering
      split at taken <;> cases taken
      rename_i done
      exact .conclude delivering done
    · rename_i finishing
      cases taken
      exact .finish _ finishing
    · cases taken
  · intro step
    cases step with
    | deliver delivering taken => simp only [step?, delivering, taken, Option.map_some]
    | conclude delivering done => simp only [step?, delivering, done, if_true]
    | finish _ finishing => simp only [step?, finishing]

/-- A scan that has ended takes no step. -/
theorem step?_of_outcome? {outcome : Except Fault Unit}
    (ended : state.phase.outcome? = some outcome) (action : Action) :
    scan.step? state action = none := by
  cases phase : state.phase with
  | delivering | finishing =>
    rw [phase] at ended
    cases ended
  | ended => simp only [step?, phase]

theorem Reachable.trans {initial middle : State scan} (early : scan.Reachable initial middle)
    (late : scan.Reachable middle state) : scan.Reachable initial state := by
  induction late with
  | start => exact early
  | step _ taken before => exact .step before taken

theorem Reachable.snoc {initial : State scan} {action : Action}
    (before : scan.Reachable initial state) (step : scan.Step state action next) :
    scan.Reachable initial next :=
  .step before (step?_eq_some_iff.mpr step)

/-- The delivery of a scan takes the steps of a delivery. -/
theorem delivery_of_reachable {initial : State scan} (reachable : scan.Reachable initial state) :
    scan.delivery.Reachable initial.delivery state.delivery := by
  induction reachable with
  | start => exact .start
  | step _ taken before =>
    cases step?_eq_some_iff.mp taken with
    | deliver _ delivered => exact .step before delivered
    | conclude | finish => exact before

section Termination

/-- How many phases and how many children an instant has before it. -/
def Phase.remaining : Phase σ → Nat × Nat
  | delivering => (2, 0)
  | finishing _ waiting _ => (1, waiting.length)
  | ended _ _ _ => (0, 0)

/-- One instant has less before it than another. -/
def Later (next state : State scan) : Prop :=
  WellFoundedRelation.rel (next.phase.remaining, next.delivery.remaining)
    (state.phase.remaining, state.delivery.remaining)

theorem wellFounded_later : WellFounded (@Later σ scan) :=
  InvImage.wf (fun state : State scan => (state.phase.remaining, state.delivery.remaining))
    WellFoundedRelation.wf

theorem later_iff :
    Later next state ↔
      (next.phase.remaining.1 < state.phase.remaining.1 ∨
        next.phase.remaining.1 = state.phase.remaining.1 ∧
          next.phase.remaining.2 < state.phase.remaining.2) ∨
      next.phase.remaining = state.phase.remaining ∧
        Delivery.Later next.delivery state.delivery := by
  rw [← Prod.lex_def]
  exact Prod.lex_def

theorem later_of_step? {action : Action} (taken : scan.step? state action = some next) :
    Later next state := by
  rw [later_iff]
  cases step?_eq_some_iff.mp taken with
  | deliver _ delivered => exact .inr ⟨rfl, Delivery.later_of_step? delivered⟩
  | conclude delivering =>
    left; left
    rw [delivering, afterDelivery]
    split
    · exact Nat.two_pos
    · exact Nat.one_lt_two
  | @finish order finished waiting held finishing =>
    left
    rw [finishing]
    cases waiting with
    | nil => exact .inl Nat.one_pos
    | cons chain rest =>
      dsimp only
      rw [afterFinish]
      rcases chain.finish order scan.sink held with ⟨fault | _, closed, kept⟩
      · exact .inl Nat.one_pos
      · exact .inr ⟨rfl, Nat.lt_succ_self _⟩

/-- No schedule goes on for ever. -/
theorem wellFounded_step? :
    WellFounded fun next state : State scan => ∃ action, scan.step? state action = some next :=
  Subrelation.wf (fun ⟨_, taken⟩ => later_of_step? taken) wellFounded_later

/-- Until the end there is a step to take. -/
theorem exists_step {cancelled : Bool} {held : σ} (child : scan.children ≠ [])
    (reachable : scan.Reachable (scan.start cancelled held) state)
    (going : state.phase.outcome? = none) :
    ∃ action next, scan.step? state action = some next := by
  cases phase : state.phase with
  | delivering =>
    cases done : state.delivery.isDone with
    | true => exact ⟨.conclude, _, step?_eq_some_iff.mpr (.conclude phase done)⟩
    | false =>
      have positive : 0 < scan.delivery.width := List.length_pos_iff.mpr child
      obtain ⟨action, -, possible⟩ :=
        Delivery.exists_step (delivery_of_reachable reachable) positive done
      obtain ⟨delivery, taken⟩ := Option.isSome_iff_exists.mp possible
      exact ⟨.deliver action, _, step?_eq_some_iff.mpr (.deliver phase taken)⟩
  | finishing finished waiting kept =>
    exact ⟨.finish .opening, _, step?_eq_some_iff.mpr (.finish _ phase)⟩
  | ended outcome children kept =>
    rw [phase] at going
    cases going

end Termination

section Execution

variable {initial : State scan}

/-- The steps of a delivery are steps of its scan. -/
theorem reachable_of_delivery
    {delivery : Delivery.State scan.opening.Partition (List Chain × σ)}
    (delivering : initial.phase = .delivering)
    (reachable : scan.delivery.Reachable initial.delivery delivery) :
    ∃ calls, scan.Reachable initial ⟨delivery, .delivering, calls⟩ := by
  induction reachable with
  | start =>
    refine ⟨initial.calls, ?_⟩
    rw [← delivering]
    exact .start
  | step _ taken before =>
    obtain ⟨calls, reachable⟩ := before
    exact ⟨_, reachable.snoc (.deliver rfl taken)⟩

/-- The children finish as `finishAll` has it. -/
theorem reachable_of_finishing (orders : Nat → DrainOrder) (finished waiting : List Chain)
    (held : σ) (reachable : scan.Reachable initial state)
    (finishing : state.phase = .finishing finished waiting held) :
    ∃ calls, scan.Reachable initial ⟨state.delivery,
      .ended (finishAll orders scan.sink waiting held).1
        (finished ++ (finishAll orders scan.sink waiting held).2.1)
        (finishAll orders scan.sink waiting held).2.2, calls⟩ := by
  induction waiting generalizing finished held state with
  | nil =>
    rw [finishAll, List.append_nil]
    exact ⟨_, reachable.snoc (.finish .opening finishing)⟩
  | cons chain rest ih =>
    have later := reachable.snoc (.finish (orders rest.length) finishing)
    rw [afterFinish] at later
    rw [finishAll]
    rcases closing : chain.finish (orders rest.length) scan.sink held with
      ⟨fault | _, closed, kept⟩ <;> rw [closing] at later
    · exact ⟨_, later⟩
    · obtain ⟨calls, ended⟩ := ih (finished ++ [closed]) kept later rfl
      refine ⟨calls, ?_⟩
      simpa only [List.append_assoc, List.singleton_append] using ended

/-- How a scan ends whose delivery leaves a report. -/
def endOf (scan : OpenScan σ) (orders : Nat → DrainOrder)
    (delivered : Delivery.Report (List Chain × σ)) : Phase σ :=
  match delivered.outcome with
  | .error fault => .ended (.error fault) delivered.world.1 delivered.world.2
  | .ok () =>
    let (outcome, children, held) :=
      finishAll orders scan.sink delivered.world.1 delivered.world.2
    .ended outcome children held

/-- A scan comes to the end that a report of its delivery leads to. -/
def EndsAs (scan : OpenScan σ) (orders : Nat → DrainOrder) (cancelled : Bool) (held : σ)
    (delivered : Delivery.Report (List Chain × σ)) : Prop :=
  ∃ state, scan.Reachable (scan.start cancelled held) state ∧
    state.phase = scan.endOf orders delivered ∧
    state.delivery.taken.length = delivered.partitions ∧
    state.delivery.handed.map (fun (_, batch) => batch.rowCount) = delivered.batchRows

private theorem endsAs_of_nobody (orders : Nat → DrainOrder) (cancelled : Bool) (held : σ)
    (opened : scan.opening.refusal = none) (nobody : scan.children = []) :
    scan.EndsAs orders cancelled held
      (scan.delivery.run scan.opening.partitions (scan.children, held) cancelled).report := by
  have unmoved : scan.delivery.run scan.opening.partitions (scan.children, held) cancelled =
      scan.delivery.start scan.opening.partitions (scan.children, held) cancelled := by
    simp only [Delivery.run]
    exact if_pos (by rw [delivery, Consumers.ofChains, nobody, List.length_nil])
  have finishing : (scan.start cancelled held).phase = .finishing [] [] held := by
    simp [start, opened, nobody]
  obtain ⟨calls, ended⟩ := reachable_of_finishing orders [] [] held .start finishing
  rw [unmoved]
  refine ⟨_, ended, ?_, rfl, rfl⟩
  rw [nobody]
  rfl

private theorem endsAs_of_children (orders : Nat → DrainOrder) (cancelled : Bool) (held : σ)
    (opened : scan.opening.refusal = none) (child : scan.children ≠ []) :
    scan.EndsAs orders cancelled held
      (scan.delivery.run scan.opening.partitions (scan.children, held) cancelled).report := by
  have delivering : (scan.start cancelled held).phase = .delivering := by
    simp [start, opened, child]
  have positive : 0 < scan.delivery.width := List.length_pos_iff.mpr child
  let final := scan.delivery.run scan.opening.partitions (scan.children, held) cancelled
  obtain ⟨calls, delivered⟩ := reachable_of_delivery delivering
    (Delivery.reachable_run scan.opening.partitions (scan.children, held) cancelled)
  have done := Delivery.isDone_run positive scan.opening.partitions (scan.children, held) cancelled
  have concluded := delivered.snoc (.conclude rfl done)
  cases outcome : final.outcome with
  | error fault =>
    refine ⟨_, concluded, ?_, rfl, rfl⟩
    simp only [afterDelivery, endOf, Delivery.State.report, outcome, final]
  | ok =>
    have finishing : scan.afterDelivery final = .finishing [] final.world.1 final.world.2 := by
      rw [afterDelivery, outcome]
    obtain ⟨calls, ended⟩ := reachable_of_finishing orders [] _ _ concluded finishing
    refine ⟨_, ended, ?_, rfl, rfl⟩
    simp only [endOf, Delivery.State.report, outcome, final, List.nil_append]

/-- A run of the delivery leads the scan to its end. -/
theorem endsAs_push (scan : OpenScan σ) (orders : Nat → DrainOrder) (cancelled : Bool) (held : σ) :
    scan.EndsAs orders cancelled held (scan.opening.push
      (.ofChains scan.sink scan.children.length) cancelled (scan.children, held)) := by
  rw [Opening.push]
  cases refusal : scan.opening.refusal with
  | some error =>
    refine ⟨_, .start, ?_, rfl, rfl⟩
    simp only [start, refusal]
    rfl
  | none =>
    by_cases nobody : scan.children = []
    · exact endsAs_of_nobody orders cancelled held refusal nobody
    · exact endsAs_of_children orders cancelled held refusal nobody

end Execution

end OpenScan

/-- A scan that is executed follows one of its schedules to the end. -/
theorem Scan.exists_schedule (scan : Scan) (orders : Nat → DrainOrder) (sink : Sink σ)
    (source : Source) (batchSize : Nat) (cancelled : Bool) (held : σ) :
    let opened := scan.opened sink source batchSize
    let report := scan.execute orders sink source batchSize cancelled held
    ∃ state, opened.Reachable (opened.start cancelled held) state ∧
      state.phase = .ended report.outcome report.world.1.children report.world.2 ∧
      state.delivery.taken.length = report.partitions ∧
      state.delivery.handed.map (fun (_, batch) => batch.rowCount) = report.batchRows := by
  intro opened report
  obtain ⟨delivered, pushed⟩ : ∃ delivered, source.push (.ofChains sink scan.children.length)
    batchSize scan.projection cancelled (scan.children, held) = delivered := ⟨_, rfl⟩
  have opens : opened.opening.push (.ofChains opened.sink opened.children.length) cancelled
      (opened.children, held) = delivered := (Source.push_eq_opening ..).symm.trans pushed
  have ends := opened.endsAs_push orders cancelled held
  rw [opens] at ends
  obtain ⟨state, reachable, ended⟩ := ends
  refine ⟨state, reachable, ?_⟩
  simp only [report, execute, pushed]
  rcases delivered with ⟨fault | _, world, partitions, batchRows⟩
  · exact ended
  · exact ended

/-- Running a scan changes nothing of it but its children. -/
theorem Scan.execute_world (scan : Scan) (orders : Nat → DrainOrder) (sink : Sink σ)
    (source : Source) (batchSize : Nat) (cancelled : Bool) (held : σ) :
    let report := scan.execute orders sink source batchSize cancelled held
    report.world.1 = { scan with children := report.world.1.children } := by
  dsimp only
  rw [execute]
  rcases source.push _ _ _ _ _ with ⟨fault | _, world, partitions, batchRows⟩ <;> rfl

end ColumnQuery
