import ColumnQuery.Proofs.Pipeline.Phases
import ColumnQuery.Session.Basic

/-! # The workload of a session

A session makes queries, runs them and cancels them, in any order and any number at a time; the runs
advance in steps, whatever the schedules. What the runs do is recorded when it happens. A query that
is executed at once follows one of these schedules and leaves the same recordings but for their
order.
-/

namespace ColumnQuery

variable {σ : Type}

namespace OpenScan

variable {scan : OpenScan σ}

/-- What the sink of a scan keeps. -/
def State.held (state : State scan) : σ :=
  match state.phase with
  | .delivering => state.delivery.world.2
  | .finishing _ _ held | .ended _ _ held => held

/-- Change what the sink of a scan keeps while the scan goes on. -/
def State.withHeld (state : State scan) (held : σ) : State scan :=
  match state.phase with
  | .delivering =>
    { state with delivery := { state.delivery with world := (state.delivery.world.1, held) } }
  | .finishing finished waiting _ => { state with phase := .finishing finished waiting held }
  | .ended _ _ _ => state

private theorem State.withHeld_held (state : State scan) : state.withHeld state.held = state := by
  obtain ⟨delivery, phase, calls⟩ := state
  cases phase <;> rfl

theorem outcome?_withHeld (state : State scan) (held : σ) :
    (state.withHeld held).phase.outcome? = state.phase.outcome? := by
  obtain ⟨delivery, phase, calls⟩ := state
  cases phase <;> rfl

private theorem held_start (cancelled : Bool) (held : σ) :
    (scan.start cancelled held).held = held := by
  rw [State.held, start]
  cases scan.opening.refusal with
  | some error => rfl
  | none => cases scan.children <;> rfl

/-- What is recorded when a scan of a source takes a step: a partition that a worker receives, and a
batch that is about to be handed to a child. -/
def recordings (source : String) (state : State scan) : Action → List Recording
  | .deliver (.receive _) => [.partition source]
  | .deliver (.hand worker) =>
    match state.delivery.workers[worker]? with
    | some (.holding (batch :: _)) => [.batch source batch.rowCount]
    | _ => []
  | _ => []

@[simp] theorem taken_withHeld (state : State scan) (held : σ) :
    (state.withHeld held).delivery.taken = state.delivery.taken := by
  obtain ⟨delivery, phase, calls⟩ := state
  cases phase <;> rfl

@[simp] theorem given_withHeld (state : State scan) (held : σ) :
    (state.withHeld held).given = state.given := by
  obtain ⟨delivery, phase, calls⟩ := state
  cases phase <;> rfl

/-- What a step does to the partitions that were taken and the batches that were given, and what is
recorded of it. -/
inductive Records (source : String) (state next : State scan) : List Recording → Prop where
  | nothing (taken : next.delivery.taken.length = state.delivery.taken.length)
      (given : next.given = state.given) : Records source state next []
  | partition (taken : next.delivery.taken.length = state.delivery.taken.length + 1)
      (given : next.given = state.given) : Records source state next [.partition source]
  | batch {worker : Nat} {batch : Batch}
      (taken : next.delivery.taken.length = state.delivery.taken.length)
      (given : next.given = state.given ++ [(worker, batch)]) :
      Records source state next [.batch source batch.rowCount]

/-- What is recorded of a step is what the step does. -/
theorem records_of_step? {state next : State scan} {action : Action} (source : String)
    (taken : scan.step? state action = some next) :
    Records source state next (recordings source state action) := by
  cases step?_eq_some_iff.mp taken with
  | deliver _ delivered =>
    have given (calls : List ChildCall) : State.given
        ({ state with calls := state.calls ++ calls } : State scan) =
          state.given ++ calls.filterMap ChildCall.handed? := List.filterMap_append
    cases Delivery.step_of_step? delivered with
    | send | stopProducer | close | request | stopWorker | drain | cancel =>
      exact .nothing rfl ((given []).trans (List.append_nil _))
    | receive | unload => exact .partition List.length_append ((given []).trans (List.append_nil _))
    | hand held | refuse held | «break» held =>
      simp only [recordings, callbacks, held]
      exact .batch rfl (given _)
  | conclude => exact .nothing rfl rfl
  | @finish _ finished waiting kept =>
    refine .nothing rfl (List.filterMap_append.trans ?_)
    cases waiting <;> exact List.append_nil _

end OpenScan

/-- A run of a query: the name of the source in metrics, the scan that was opened, and how far it
has come. -/
structure QueryScan (σ : Type) where
  source : String
  scan : OpenScan σ
  state : scan.State

namespace QueryScan

/-- What is recorded of a run: the partitions that were taken, and the batches that were handed to
the children. -/
def recordings (run : QueryScan σ) : List Recording :=
  List.replicate run.state.delivery.taken.length (.partition run.source) ++
    run.state.given.map fun (_, batch) => .batch run.source batch.rowCount

theorem recordings_of_records {run : QueryScan σ} {next : run.scan.State}
    {recorded : List Recording} (records : OpenScan.Records run.source run.state next recorded) :
    (recordings { run with state := next }).Perm (run.recordings ++ recorded) := by
  cases records with
  | nothing taken given => simp [recordings, taken, given]
  | partition taken given =>
    simp only [recordings, taken, given, List.replicate_succ, List.cons_append]
    exact (List.perm_append_singleton _ _).symm
  | batch taken given => simp [recordings, taken, given]

theorem recordings_withHeld (run : QueryScan σ) (held : σ) :
    recordings { run with state := run.state.withHeld held } = run.recordings := by
  simp [recordings]

end QueryScan

/-- What a run of a query has returned, and the seconds that it took. -/
structure Return where
  outcome : Except Fault Unit
  seconds : Binary64

structure SessionQuery (σ : Type) where
  query : Query
  /-- The run of the query, once it has started. -/
  run : Option (QueryScan σ)
  /-- What its runs have returned, in order. -/
  returned : List Return

namespace SessionQuery

/-- Ask for a query to be cancelled, also while it runs. -/
def cancel (found : SessionQuery σ) : SessionQuery σ :=
  { found with
    query := found.query.cancel
    run := found.run.map fun run => { run with
      state := (run.scan.step? run.state (.deliver .cancel)).getD run.state } }

def begin (found : SessionQuery σ) (sink : Sink σ) (source : Source) (batchSize : Nat) (held : σ) :
    SessionQuery σ :=
  let scan := found.query.scan.opened sink source batchSize
  { found with
    query := { found.query with state := .executing }
    run := some ⟨source.label, scan, scan.start found.query.cancelled held⟩ }

def settle (found : SessionQuery σ) (sink : Sink σ) (children : List Chain) (held : σ)
    (last : Return) : SessionQuery σ :=
  { found with
    query := { found.query with
      scan := { found.query.scan with children }
      state := .after last.outcome
      cancelled := found.query.cancelled || sink.stops held }
    returned := found.returned ++ [last] }

/-- What may become of a query, with what is recorded of it and what its sink keeps then. -/
inductive Turn (batchSize : Nat) (held : σ) (found : SessionQuery σ) :
    SessionQuery σ → List Recording → σ → Prop where
  | cancel : Turn batchSize held found found.cancel [] held
  /-- A planned query is executed. -/
  | begin (planned : found.query.state = .planned) (sink : Sink σ) (source : Source) :
      Turn batchSize held found (found.begin sink source batchSize held) [] held
  | advance {run : QueryScan σ} {action : OpenScan.Action} {next : run.scan.State}
      (isRun : found.run = some run)
      (taken : run.scan.step? (run.state.withHeld held) action = some next) :
      Turn batchSize held found { found with run := some { run with state := next } }
        (OpenScan.recordings run.source (run.state.withHeld held) action) next.held
  | settle {run : QueryScan σ} {outcome : Except Fault Unit} {children : List Chain} {kept : σ}
      (isRun : found.run = some run) (unreturned : found.returned = [])
      (ended : run.state.phase = .ended outcome children kept) (seconds : Binary64) :
      Turn batchSize held found (found.settle run.scan.sink children held ⟨outcome, seconds⟩)
        ((QueryState.after outcome).recordings seconds) held

end SessionQuery

/-- A session with the queries that it has made, and what their sinks keep. -/
structure Workload (σ : Type) where
  session : Session
  queries : List (SessionQuery σ)
  held : σ

namespace Workload

/-- A session that has not made a query yet. -/
def start (session : Session) (held : σ) : Workload σ :=
  ⟨{ session with metrics := .empty }, [], held⟩

/-- Make a query of a plan, if it is accepted. -/
def create (workload : Workload σ) (plan : Plan) : Workload σ :=
  let (made, session) := workload.session.createQuery plan
  { workload with
    session
    queries := workload.queries ++ made.toOption.toList.map (⟨·, none, []⟩) }

/-- Change a query and record something. -/
def update (workload : Workload σ) (index : Nat) (later : SessionQuery σ)
    (recordings : List Recording) (held : σ) : Workload σ where
  session := { workload.session with metrics := workload.session.metrics.record recordings }
  queries := workload.queries.set index later
  held := held

private theorem update_update (workload : Workload σ) (index : Nat) (later latest : SessionQuery σ)
    (recordings more : List Recording) (held kept : σ) :
    (workload.update index later recordings held).update index latest more kept =
      workload.update index latest (recordings ++ more) kept := by
  simp only [update, List.set_set, Metrics.record, List.append_assoc]

/-- The session after a query was executed. -/
def afterExecute (workload : Workload σ) (index : Nat) (later : SessionQuery σ)
    (ran : QueryRun σ) : Workload σ where
  session := ran.session
  queries := workload.queries.set index later
  held := ran.held

/-- What may happen in a session. -/
inductive Step (workload : Workload σ) : Workload σ → Prop where
  | create (plan : Plan) : Step workload (workload.create plan)
  | turn {index : Nat} {found later : SessionQuery σ} {recordings : List Recording} {held : σ}
      (isQuery : workload.queries[index]? = some found)
      (turn : found.Turn workload.session.config.batchSize workload.held later recordings held) :
      Step workload (workload.update index later recordings held)
  /-- A query that is not planned any more is executed. -/
  | refuse {index : Nat} {found : SessionQuery σ} (isQuery : workload.queries[index]? = some found)
      (started : found.query.state ≠ .planned) {orders : Nat → DrainOrder} {sink : Sink σ}
      {source : Source} {seconds : Binary64} {ran : QueryRun σ}
      (executed :
        found.query.execute workload.session orders sink source seconds workload.held = ran) :
      Step workload (workload.afterExecute index { found with query := ran.query } ran)
  /-- What happens at the same time is recorded in no particular order. -/
  | reorder {metrics : Metrics}
      (same : metrics.recordings.Perm workload.session.metrics.recordings) :
      Step workload { workload with session := { workload.session with metrics } }

/-- What some order of such steps makes of a session. -/
inductive Reachable (session : Session) (held : σ) : Workload σ → Prop where
  | start : Reachable session held (.start session held)
  | step {workload next : Workload σ} (before : Reachable session held workload)
      (step : Step workload next) : Reachable session held next

section AtOnce

variable {session : Session} {held : σ} {workload : Workload σ} {index : Nat}
  {found : SessionQuery σ}

/-- A scan that nobody disturbs takes its steps within a session. -/
theorem reachable_of_schedule (found : SessionQuery σ) {source : String} {scan : OpenScan σ}
    {initial state : scan.State} {kept : σ}
    (begun : Reachable session held (workload.update index
      { found with run := some ⟨source, scan, initial⟩ } [] kept)) (same : initial.held = kept)
    (bound : index < workload.queries.length)
    (fresh : QueryScan.recordings ⟨source, scan, initial⟩ = [])
    (reachable : scan.Reachable initial state) :
    ∃ recordings, recordings.Perm (QueryScan.recordings ⟨source, scan, state⟩) ∧
      Reachable session held (workload.update index
        { found with run := some ⟨source, scan, state⟩ } recordings state.held) := by
  induction reachable with
  | start => exact ⟨[], fresh ▸ .nil, same ▸ begun⟩
  | @step state next action _ taken before =>
    obtain ⟨recordings, recorded, reached⟩ := before
    let run : QueryScan σ := ⟨source, scan, state⟩
    have grown := run.recordings_of_records (OpenScan.records_of_step? source taken)
    have advanced := reached.step (.turn (List.getElem?_set_self bound) (.advance rfl
      (by rw [update, OpenScan.State.withHeld_held]; exact taken)))
    rw [update_update] at advanced
    refine ⟨recordings ++ OpenScan.recordings source state action, ?_, ?_⟩
    · exact (recorded.append_right _).trans grown.symm
    · simpa only [update, OpenScan.State.withHeld_held] using advanced

/-- A scan that is executed at once follows a schedule of which the same is recorded. -/
theorem exists_recorded_schedule (scan : Scan) (orders : Nat → DrainOrder) (sink : Sink σ)
    (source : Source) (batchSize : Nat) (cancelled : Bool) (held : σ) :
    let opened := scan.opened sink source batchSize
    let report := scan.execute orders sink source batchSize cancelled held
    ∃ state, opened.Reachable (opened.start cancelled held) state ∧
      state.phase = .ended report.outcome report.world.1.children report.world.2 ∧
      QueryScan.recordings ⟨source.label, opened, state⟩ =
        List.replicate report.partitions (.partition source.label) ++
          report.batchRows.map (.batch source.label) := by
  intro opened report
  obtain ⟨state, schedule, ended, partitions, batchRows⟩ :=
    scan.exists_schedule orders sink source batchSize cancelled held
  refine ⟨state, schedule, ended, ?_⟩
  rw [QueryScan.recordings, partitions, ← batchRows, OpenScan.given_of_reachable schedule,
    List.map_map]
  rfl

/-- What becomes of a planned query that is executed. -/
theorem execute_planned {query : Query} (planned : query.state = .planned) (session : Session)
    (orders : Nat → DrainOrder) (sink : Sink σ) (source : Source) (seconds : Binary64) (held : σ) :
    query.execute session orders sink source seconds held =
      let report :=
        query.scan.execute orders sink source session.config.batchSize query.cancelled held
      { outcome := report.outcome
        query := { query with
          scan := { query.scan with children := report.world.1.children }
          state := .after report.outcome
          cancelled := query.cancelled || sink.stops report.world.2 }
        session := { session with
          metrics := (session.metrics.recordScan source.label report.partitions
            report.batchRows).record ((QueryState.after report.outcome).recordings seconds) }
        held := report.world.2 } := by
  have world :=
    query.scan.execute_world orders sink source session.config.batchSize query.cancelled held
  rw [Query.execute, if_pos planned]
  simp only
  rw [← world]

/-- A query that is executed at once follows a schedule of its own within the session. -/
theorem reachable_execute (reachable : Reachable session held workload)
    (isQuery : workload.queries[index]? = some found) (planned : found.query.state = .planned)
    (fresh : found.returned = []) (orders : Nat → DrainOrder) (sink : Sink σ) (source : Source)
    (seconds : Binary64) :
    let ran := found.query.execute workload.session orders sink source seconds workload.held
    ∃ run, Reachable session held
      (workload.afterExecute index ⟨ran.query, some run, [⟨ran.outcome, seconds⟩]⟩ ran) := by
  rw [execute_planned planned]
  have bound := (List.getElem?_eq_some_iff.mp isQuery).1
  let report := found.query.scan.execute orders sink source workload.session.config.batchSize
    found.query.cancelled workload.held
  let begun := found.begin sink source workload.session.config.batchSize workload.held
  obtain ⟨state, schedule, ended, recordedAs⟩ := exists_recorded_schedule found.query.scan orders
    sink source workload.session.config.batchSize found.query.cancelled workload.held
  obtain ⟨recordings, recorded, reached⟩ := reachable_of_schedule begun
    (reachable.step (.turn isQuery (.begin planned sink source))) (OpenScan.held_start _ _) bound
    rfl schedule
  intro ran
  let run : QueryScan σ := ⟨source.label, _, state⟩
  let running : SessionQuery σ := { begun with run := some run }
  have unreturned : running.returned = [] := fresh
  have kept : state.held = ran.held := by rw [OpenScan.State.held, ended]
  have settles : running.settle run.scan.sink report.world.1.children ran.held
      ⟨report.outcome, seconds⟩ = ⟨ran.query, some run, [⟨ran.outcome, seconds⟩]⟩ := by
    rw [SessionQuery.settle, unreturned]
    rfl
  rw [kept] at reached
  have returned := reached.step (.turn (List.getElem?_set_self bound)
    (.settle rfl unreturned ended seconds) : Step _
      ((workload.update index running recordings ran.held).update index
        (running.settle run.scan.sink report.world.1.children ran.held ⟨report.outcome, seconds⟩)
        ((QueryState.after report.outcome).recordings seconds) ran.held))
  rw [settles, update_update] at returned
  -- a schedule records partitions and batches as they come, `recordScan` the partitions first
  have scanned : (workload.session.metrics.recordScan source.label report.partitions
      report.batchRows).recordings.Perm (workload.session.metrics.record recordings).recordings :=
    (recorded.trans (.of_eq recordedAs)).symm.append_left _
  have same : ran.session.metrics.recordings.Perm (workload.session.metrics.record
      (recordings ++ (QueryState.after report.outcome).recordings seconds)).recordings := by
    rw [Metrics.record, ← List.append_assoc]
    exact scanned.append_right _
  exact ⟨run, returned.step (.reorder same)⟩

end AtOnce

end Workload

end ColumnQuery
