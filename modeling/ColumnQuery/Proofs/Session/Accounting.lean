import ColumnQuery.Proofs.Plan.Execution
import ColumnQuery.Proofs.Session.Workload
import Mathlib.Algebra.BigOperators.Group.List.Basic
import Mathlib.Algebra.GroupWithZero.Nat

/-! # The accounts of a session

A query of a session runs once. Whatever the session does with its queries, in whatever order, at
every instant its counters agree with what the queries have done: how many finished and failed, and
for each source the partitions that were taken and the batches that were handed to children.
-/

namespace ColumnQuery

variable {σ : Type}

namespace SessionQuery

variable {batchSize : Nat} {held kept : σ} {found later : SessionQuery σ}
  {added : List Recording}

/-- How a query stands with its run. -/
inductive Stands (found : SessionQuery σ) : Prop where
  | planned (state : found.query.state = .planned) (unstarted : found.run = none)
      (unreturned : found.returned = [])
  | running {run : QueryScan σ} (state : found.query.state = .executing)
      (isRun : found.run = some run) (unreturned : found.returned = [])
  | returned {run : QueryScan σ} {last : Return} (state : found.query.state = .after last.outcome)
      (isRun : found.run = some run) (ended : run.state.phase.outcome? = some last.outcome)
      (returned : found.returned = [last])

/-- What a query is followed by: the number stays, the state goes at most one step on, a run that
has started goes on, and what was returned stays so. -/
structure FollowedBy (found later : SessionQuery σ) : Prop where
  id : later.query.id = found.query.id
  state : later.query.state = found.query.state ∨
    QueryState.Step found.query.state later.query.state
  run : ∀ run, found.run = some run → ∃ state, later.run = some { run with state }
  returned : found.returned <+: later.returned

/-- A query has returned at most once, what its run has come to, and its state says what. -/
structure RunsOnce (found : SessionQuery σ) : Prop where
  once : found.returned.length ≤ 1
  finished : found.query.state = .finished ↔ found.returned.map (·.outcome) = [.ok ()]
  failed : found.query.state = .failed ↔
    ∃ error, found.returned.map (·.outcome) = [.error (.error error)]
  ended : ∀ last ∈ found.returned, ∃ run, found.run = some run ∧
    run.state.phase.outcome? = some last.outcome

private theorem Stands.runsOnce (stands : found.Stands) : found.RunsOnce := by
  cases stands with
  | planned state _ unreturned | running state _ unreturned =>
    constructor <;> simp [state, unreturned]
  | @returned run last state isRun ended returned =>
    have once : found.returned.map (·.outcome) = [last.outcome] := congrArg (List.map _) returned
    refine ⟨Nat.le_of_eq (congrArg List.length returned), ?_, ?_, ?_⟩
    · rw [state, once]
      rcases last.outcome with (_ | _) | _ <;> simp [QueryState.after]
    · rw [state, once]
      rcases last.outcome with (_ | _) | _ <;> simp [QueryState.after]
    · rw [returned]
      exact List.forall_mem_singleton.mpr ⟨run, isRun, ended⟩

private theorem after_ne_planned (outcome : Except Fault Unit) :
    QueryState.after outcome ≠ .planned := by
  rcases outcome with (_ | _) | _ <;> nofun

/-- A planned query has not started to run. -/
theorem Stands.of_planned (stands : found.Stands) (planned : found.query.state = .planned) :
    found.run = none ∧ found.returned = [] := by
  cases stands with
  | planned _ unstarted unreturned => exact ⟨unstarted, unreturned⟩
  | running state => cases state.symm.trans planned
  | returned state => exact absurd (state.symm.trans planned) (after_ne_planned _)

/-- A query whose run has not returned is executing. -/
theorem Stands.of_running {run : QueryScan σ} (stands : found.Stands) (isRun : found.run = some run)
    (unreturned : found.returned = []) : found.query.state = .executing := by
  cases stands with
  | planned _ unstarted => cases unstarted.symm.trans isRun
  | running state => exact state
  | returned _ _ _ returned => cases unreturned.symm.trans returned

/-- A run that can take a step has not returned. -/
theorem Stands.of_step? {run : QueryScan σ} {action : OpenScan.Action} {next : run.scan.State}
    (stands : found.Stands) (isRun : found.run = some run)
    (taken : run.scan.step? (run.state.withHeld held) action = some next) :
    found.returned = [] := by
  cases stands with
  | planned _ _ unreturned | running _ _ unreturned => exact unreturned
  | returned _ isRun' ended =>
    obtain rfl := Option.some.inj (isRun.symm.trans isRun')
    have stuck := (OpenScan.outcome?_withHeld run.state held).trans ended
    cases (OpenScan.step?_of_outcome? stuck action).symm.trans taken

/-- Every turn leaves a query standing with its run. -/
theorem Turn.stands (turn : found.Turn batchSize held later added kept)
    (stands : found.Stands) : later.Stands := by
  cases turn with
  | cancel =>
    cases stands with
    | planned state unstarted unreturned =>
      exact .planned state (congrArg (Option.map _) unstarted) unreturned
    | running state isRun unreturned =>
      exact .running state (congrArg (Option.map _) isRun) unreturned
    | returned state isRun ended returned =>
      refine .returned state (congrArg (Option.map _) isRun) ?_ returned
      simp only [OpenScan.step?_of_outcome? ended, Option.getD_none, ended]
  | begin planned => exact .running rfl rfl (stands.of_planned planned).2
  | advance isRun taken =>
    have unreturned := stands.of_step? isRun taken
    exact .running (stands.of_running isRun unreturned) rfl unreturned
  | @settle run outcome children kept isRun unreturned ended seconds =>
    let last : Return := ⟨outcome, seconds⟩
    refine .returned rfl isRun ?_ (congrArg (· ++ [last]) unreturned)
    rw [ended]
    rfl

theorem FollowedBy.refl (found : SessionQuery σ) : found.FollowedBy found :=
  ⟨rfl, .inl rfl, fun run isRun => ⟨run.state, isRun⟩, List.prefix_refl _⟩

private theorem step_after (outcome : Except Fault Unit) :
    QueryState.after outcome = .executing ∨
      QueryState.Step .executing (QueryState.after outcome) := by
  rcases outcome with (_ | _) | _
  · exact .inr .fail
  · exact .inl rfl
  · exact .inr .finish

private theorem Turn.followedBy (turn : found.Turn batchSize held later added kept)
    (stands : found.Stands) : found.FollowedBy later := by
  cases turn with
  | cancel =>
    exact ⟨rfl, .inl rfl, fun run isRun => ⟨_, congrArg (Option.map _) isRun⟩, List.prefix_refl _⟩
  | begin planned =>
    have unstarted := (stands.of_planned planned).1
    refine ⟨rfl, .inr ?_, fun run isRun => ?_, List.prefix_refl _⟩
    · rw [planned]
      exact .start
    · cases unstarted.symm.trans isRun
  | @advance run _ next isRun =>
    refine ⟨rfl, .inl rfl, fun run' isRun' => ?_, List.prefix_refl _⟩
    obtain rfl := Option.some.inj (isRun.symm.trans isRun')
    exact ⟨next, rfl⟩
  | @settle run outcome children kept isRun unreturned =>
    refine ⟨rfl, ?_, fun run isRun => ⟨run.state, isRun⟩, List.prefix_append _ _⟩
    rw [stands.of_running isRun unreturned]
    exact step_after outcome

/-- What is recorded of a query in all. -/
def recordings (found : SessionQuery σ) : List Recording :=
  found.run.elim [] QueryScan.recordings ++
    found.returned.flatMap fun last => (QueryState.after last.outcome).recordings last.seconds

private theorem recordings_cancel (found : SessionQuery σ) :
    found.cancel.recordings.Perm found.recordings := by
  cases isRun : found.run with
  | none =>
    simp only [recordings, cancel, isRun, Option.map_none]
    exact .refl _
  | some run =>
    simp only [recordings, cancel, isRun, Option.map_some, Option.elim_some]
    refine .append_right _ ?_
    cases cancelled : run.scan.step? run.state (.deliver .cancel) with
    | none => exact .refl _
    | some next =>
      -- the step of a cancellation records nothing
      have same := QueryScan.recordings_of_records (OpenScan.records_of_step? run.source cancelled)
      simp only [OpenScan.recordings, List.append_nil] at same
      exact same

/-- What is recorded of a turn is what the turn adds. -/
theorem Turn.recorded (turn : found.Turn batchSize held later added kept)
    (stands : found.Stands) : later.recordings.Perm (found.recordings ++ added) := by
  cases turn with
  | cancel =>
    rw [List.append_nil]
    exact recordings_cancel found
  | begin planned =>
    obtain ⟨unstarted, -⟩ := stands.of_planned planned
    simp only [recordings, unstarted, List.append_nil]
    exact .refl _
  | @advance run action next isRun taken =>
    -- other queries may have changed what the sink keeps, which no recording shows
    let moved : QueryScan σ := { run with state := run.state.withHeld held }
    have grown := moved.recordings_of_records (OpenScan.records_of_step? run.source taken)
    rw [run.recordings_withHeld] at grown
    simp only [recordings, isRun, Option.elim_some, stands.of_step? isRun taken, List.flatMap_nil,
      List.append_nil]
    exact grown
  | settle => exact .of_eq (by simp [recordings, SessionQuery.settle])

end SessionQuery

namespace Workload

variable {session : Session} {held : σ} {workload next : Workload σ}

/-- Each query stands with its run, and the metrics hold what is recorded of the queries. -/
structure Accounts (workload : Workload σ) : Prop where
  stands : ∀ found ∈ workload.queries, found.Stands
  recorded : workload.session.metrics.recordings.Perm
    (workload.queries.flatMap SessionQuery.recordings)

/-- What is gathered from a list grows as the item does that is replaced. -/
theorem flatMap_set {α β : Type*} {items : List α} {gather : α → List β} {index : Nat}
    {old new : α} {added : List β} (isItem : items[index]? = some old)
    (grows : (gather new).Perm (gather old ++ added)) :
    ((items.set index new).flatMap gather).Perm (items.flatMap gather ++ added) := by
  induction items generalizing index with
  | nil => cases isItem
  | cons item rest ih =>
    cases index with
    | zero =>
      obtain rfl := Option.some.inj isItem
      rw [List.set_cons_zero, List.flatMap_cons, List.flatMap_cons, List.append_assoc]
      refine (grows.append_right _).trans ?_
      rw [List.append_assoc]
      exact List.perm_append_comm.append_left _
    | succ index =>
      rw [List.set_cons_succ, List.flatMap_cons, List.flatMap_cons, List.append_assoc]
      exact (ih isItem).append_left _

/-- A plan that is refused leaves a session as it is. -/
theorem create_of_error {plan : Plan} {error : Error} {after : Session}
    (refused : workload.session.createQuery plan = (.error error, after)) :
    workload.create plan = workload := by
  rw [Session.createQuery] at refused
  rw [create, Session.createQuery]
  cases compiled : workload.session.compile plan with
  | error => exact congrArg (Workload.mk _ · _) (List.append_nil _)
  | ok =>
    rw [compiled] at refused
    cases refused

/-- A query that is made is planned, and nothing is recorded. -/
theorem create_cases (workload : Workload σ) (plan : Plan) :
    workload.create plan = workload ∨ ∃ query numbering, query.state = .planned ∧
      workload.create plan = { workload with
        session := { workload.session with numbering }
        queries := workload.queries ++ [⟨query, none, []⟩] } := by
  cases made : workload.session.compile plan with
  | error error =>
    left
    exact create_of_error (by rw [Session.createQuery, made])
  | ok scan =>
    right
    let issued := workload.session.numbering.issue
    refine ⟨⟨issued.1, scan, .planned, false⟩, issued.2, rfl, ?_⟩
    rw [create, Session.createQuery, made]
    rfl

/-- A query that is executed again is refused, and nothing changes. -/
theorem afterExecute_of_started {index : Nat} {found : SessionQuery σ}
    (isQuery : workload.queries[index]? = some found) (started : found.query.state ≠ .planned)
    (orders : Nat → DrainOrder) (sink : Sink σ) (source : Source) (seconds : Binary64) :
    let ran := found.query.execute workload.session orders sink source seconds workload.held
    workload.afterExecute index { found with query := ran.query } ran = workload := by
  intro ran
  have refused : ran = ⟨.error (.error (.alreadyStarted found.query.id.number.toNat
      found.query.state)), found.query, workload.session, workload.held⟩ := if_neg started
  have same : workload.queries.set index found = workload.queries := by
    obtain ⟨bound, rfl⟩ := List.getElem?_eq_some_iff.mp isQuery
    exact List.set_getElem_self bound
  rw [refused, afterExecute, same]

private theorem accounts_of_step (step : Step workload next) (accounts : Accounts workload) :
    Accounts next := by
  cases step with
  | create plan =>
    rcases workload.create_cases plan with same | ⟨query, numbering, planned, made⟩
    · rwa [same]
    · rw [made]
      constructor
      · refine List.forall_mem_append.mpr ⟨accounts.stands, List.forall_mem_singleton.mpr ?_⟩
        exact .planned planned rfl rfl
      · have silent : SessionQuery.recordings (⟨query, none, []⟩ : SessionQuery σ) = [] := rfl
        rw [List.flatMap_append, List.flatMap_singleton, silent, List.append_nil]
        exact accounts.recorded
  | @turn index found later added kept isQuery turn =>
    have stands := accounts.stands _ (List.mem_of_getElem? isQuery)
    constructor
    · intro other isMember
      rcases List.mem_or_eq_of_mem_set isMember with before | rfl
      · exact accounts.stands _ before
      · exact turn.stands stands
    · exact (accounts.recorded.append_right _).trans
        (flatMap_set isQuery (turn.recorded stands)).symm
  | refuse isQuery started executed => rwa [← executed, afterExecute_of_started isQuery started]
  | reorder same => exact ⟨accounts.stands, same.trans accounts.recorded⟩

/-- What a session is followed by: its queries go on in their order, and new ones are planned. -/
structure FollowedBy (workload next : Workload σ) : Prop where
  goOn : ∀ {index : Nat} {found : SessionQuery σ}, workload.queries[index]? = some found →
    ∃ later, next.queries[index]? = some later ∧ found.FollowedBy later
  new : ∀ {index : Nat} {later : SessionQuery σ}, workload.queries.length ≤ index →
    next.queries[index]? = some later →
      later.query.state = .planned ∧ later.run = none ∧ later.returned = []

private theorem FollowedBy.of_queries (same : next.queries = workload.queries) :
    workload.FollowedBy next where
  goOn {index found} isQuery := ⟨found, same ▸ isQuery, .refl found⟩
  new {index later} late isQuery := by
    rw [same, List.getElem?_eq_none late] at isQuery
    cases isQuery

private theorem followedBy_of_step (step : Step workload next) (accounts : Accounts workload) :
    workload.FollowedBy next := by
  cases step with
  | create plan =>
    rcases workload.create_cases plan with same | ⟨query, numbering, planned, made⟩
    · exact .of_queries (congrArg Workload.queries same)
    · rw [made]
      constructor
      · intro index found isQuery
        have bound := (List.getElem?_eq_some_iff.mp isQuery).1
        exact ⟨found, (List.getElem?_append_left bound).trans isQuery, .refl found⟩
      · intro index later late isQuery
        rw [List.getElem?_append_right late] at isQuery
        obtain rfl := List.mem_singleton.mp (List.mem_of_getElem? isQuery)
        exact ⟨planned, rfl, rfl⟩
  | @turn changed found later added kept isQuery turn =>
    have follows := turn.followedBy (accounts.stands _ (List.mem_of_getElem? isQuery))
    constructor
    · intro index other isOther
      by_cases same : changed = index
      · subst same
        obtain rfl := Option.some.inj (isQuery.symm.trans isOther)
        exact ⟨later, List.getElem?_set_self (List.getElem?_eq_some_iff.mp isQuery).1, follows⟩
      · exact ⟨other, (List.getElem?_set_ne same).trans isOther, .refl other⟩
    · intro index other late isOther
      have bound := (List.getElem?_eq_some_iff.mp isOther).1
      rw [update, List.length_set] at bound
      exact absurd bound (Nat.not_lt.mpr late)
  | refuse isQuery started executed =>
    rw [← executed, afterExecute_of_started isQuery started]
    exact .of_queries rfl
  | reorder same => exact .of_queries rfl

theorem accounts_of_reachable (reachable : Reachable session held workload) :
    Accounts workload := by
  induction reachable with
  | start => exact ⟨List.forall_mem_nil _, .nil⟩
  | step _ step accounts => exact accounts_of_step step accounts

end Workload

namespace Counter

variable {counter : Counter} {value : String}

/-- What a recording adds to the total under a value of the label. -/
def share (counter : Counter) (value : String) (recording : Recording) : Nat :=
  match counter.contribution? recording with
  | some (label, amount) => if label = value then amount else 0
  | none => 0

/-- A total is the sum of what the recordings add to it. -/
theorem total_eq_sum (counter : Counter) (metrics : Metrics) (value : String) :
    counter.total metrics value = (metrics.recordings.map (counter.share value)).sum := by
  rw [total, amounts, ← List.sum_eq_foldl]
  induction metrics.recordings with
  | nil => rfl
  | cons recording rest ih =>
    rw [List.map_cons, List.sum_cons, ← ih, share, List.filterMap_cons]
    cases counter.contribution? recording with
    | none => exact (Nat.zero_add _).symm
    | some contribution => by_cases own : contribution.1 = value <;> simp [own]

private theorem sum_map_flatMap {α β : Type*} (items : List α) (gather : α → List β)
    (weight : β → Nat) : ((items.flatMap gather).map weight).sum =
      (items.map fun item => ((gather item).map weight).sum).sum := by
  rw [List.map_flatMap, List.flatMap_def, List.sum_flatten, List.map_map]
  rfl

/-- The total of what is recorded of a run. -/
theorem sum_share_run (counter : Counter) (value : String) (run : QueryScan σ) :
    (run.recordings.map (counter.share value)).sum =
      run.state.delivery.taken.length * counter.share value (.partition run.source) +
        (run.state.given.map fun (_, batch) =>
          counter.share value (.batch run.source batch.rowCount)).sum := by
  rw [QueryScan.recordings, List.map_append, List.sum_append, List.map_replicate,
    List.sum_replicate_nat, List.map_map]
  rfl

/-- A counter of what runs do, and what it counts of each. -/
structure CountsRuns (counter : Counter) (weight : QueryScan σ → Nat) : Prop where
  run : ∀ value (run : QueryScan σ), (run.recordings.map (counter.share value)).sum =
    if run.source = value then weight run else 0
  query : ∀ value outcome seconds, counter.share value (.query outcome seconds) = 0

theorem CountsRuns.ofPartitions :
    partitions.CountsRuns fun run : QueryScan σ => run.state.delivery.taken.length where
  run value run := by
    rw [sum_share_run]
    by_cases own : run.source = value <;> simp [share, partitions, own]
  query _ _ _ := rfl

private theorem CountsRuns.ofBatches :
    batches.CountsRuns fun run : QueryScan σ => run.state.given.length where
  run value run := by
    rw [sum_share_run]
    by_cases own : run.source = value <;> simp [share, batches, own]
  query _ _ _ := rfl

private theorem CountsRuns.ofRows :
    rows.CountsRuns fun run : QueryScan σ => (run.state.given.map (·.2.rowCount)).sum where
  run value run := by
    rw [sum_share_run]
    by_cases own : run.source = value <;> simp [share, rows, own]
  query _ _ _ := rfl

/-- What a counter of runs counts of a query. -/
theorem CountsRuns.sum_share {weight : QueryScan σ → Nat} (counts : counter.CountsRuns weight)
    (value : String) (found : SessionQuery σ) :
    (found.recordings.map (counter.share value)).sum =
      found.run.elim 0 fun run => if run.source = value then weight run else 0 := by
  have silent (state : QueryState) (seconds : Binary64) :
      ((state.recordings seconds).map (counter.share value)).sum = 0 := by
    cases state <;> simp [QueryState.recordings, QueryState.ending?, counts.query]
  have returned : ((found.returned.flatMap fun last => (QueryState.after last.outcome).recordings
      last.seconds).map (counter.share value)).sum = 0 := by
    rw [sum_map_flatMap]
    simp [silent]
  rw [SessionQuery.recordings, List.map_append, List.sum_append, returned, Nat.add_zero]
  cases found.run with
  | none => rfl
  | some run => exact counts.run value run

end Counter

namespace Workload

variable {session : Session} {held : σ} {workload : Workload σ}

/-- The runs over a source. -/
def runsOf (workload : Workload σ) (source : String) : List (QueryScan σ) :=
  (workload.queries.filterMap (·.run)).filter (·.source = source)

private theorem sum_map_elim {α β : Type*} (items : List α) (pick : α → Option β)
    (weight : β → Nat) :
    (items.map fun item => (pick item).elim 0 weight).sum =
      ((items.filterMap pick).map weight).sum := by
  induction items with
  | nil => rfl
  | cons item rest ih =>
    rw [List.map_cons, List.sum_cons, ih, List.filterMap_cons]
    cases pick item with
    | none => exact Nat.zero_add _
    | some picked => rfl

/-- A total is the sum of what the queries add to it. -/
theorem Accounts.total (accounts : Accounts workload) (counter : Counter) (value : String) :
    counter.total workload.session.metrics value = (workload.queries.map fun found =>
      (found.recordings.map (counter.share value)).sum).sum := by
  rw [counter.total_eq_sum, (accounts.recorded.map _).sum_nat, Counter.sum_map_flatMap]

/-- A counter of runs holds what it counts of the runs over a source. -/
theorem Accounts.total_runs {counter : Counter} {weight : QueryScan σ → Nat}
    (accounts : Accounts workload) (counts : counter.CountsRuns weight) (source : String) :
    counter.total workload.session.metrics source = ((workload.runsOf source).map weight).sum := by
  rw [accounts.total, List.map_congr_left fun found _ => counts.sum_share source found,
    sum_map_elim, List.sum_map_ite]
  simp [runsOf]

/-- A query that has come to an end counts once, under the word for its state. -/
theorem sum_share_queries {state : QueryState} (ends : state.ending? = some state.name)
    {found : SessionQuery σ} (stands : found.Stands) :
    (found.recordings.map (Counter.queries.share state.name)).sum =
      if found.query.state = state then 1 else 0 := by
  have own (query : QueryState) (seconds : Binary64) :
      ((query.recordings seconds).map (Counter.queries.share state.name)).sum =
        if query = state then 1 else 0 := by
    cases state <;> cases ends <;> cases query <;> rfl
  have scanned : ((found.run.elim [] QueryScan.recordings).map
      (Counter.queries.share state.name)).sum = 0 := by
    cases found.run with
    | none => rfl
    | some run =>
      refine (Counter.queries.sum_share_run state.name run).trans ?_
      simp [Counter.share, Counter.queries]
  rw [SessionQuery.recordings, List.map_append, List.sum_append, scanned, Nat.zero_add]
  cases stands with
  | planned planned _ unreturned =>
    rw [planned, unreturned]
    exact own .planned .zero
  | running executing _ unreturned =>
    rw [executing, unreturned]
    exact own .executing .zero
  | returned after _ _ returned =>
    rw [after, returned, List.flatMap_singleton]
    exact own _ _

/-- The counter of queries holds how many have come to an end. -/
theorem Accounts.total_queries {state : QueryState} (accounts : Accounts workload)
    (ends : state.ending? = some state.name) :
    Counter.queries.total workload.session.metrics state.name =
      workload.queries.countP (·.query.state = state) := by
  rw [accounts.total, List.map_congr_left fun found isMember =>
    sum_share_queries ends (accounts.stands found isMember), List.sum_map_ite]
  simp [List.countP_eq_length_filter]

/-- Whatever happens in a session, each query runs once, and its state goes along with that run. A
query that is executed again is refused, and nothing changes; neither does it where no query is made
of a plan. The counters hold how many queries finished and failed, and for each source how many
partitions workers took, how many batches were handed to children and how many rows those had. -/
theorem accounts_for_queries (reachable : Reachable session held workload) :
    (∀ next, Step workload next → workload.FollowedBy next) ∧
    (∀ found ∈ workload.queries, found.RunsOnce) ∧
    (∀ index found, workload.queries[index]? = some found → ∀ orders sink source seconds,
      let ran := found.query.execute workload.session orders sink source seconds workload.held
      (found.query.state = .planned → ∃ run, Reachable session held
        (workload.afterExecute index ⟨ran.query, some run, [⟨ran.outcome, seconds⟩]⟩ ran)) ∧
      (found.query.state ≠ .planned → ∃ error, error.kind = .execution ∧
        ran = ⟨.error (.error error), found.query, workload.session, workload.held⟩)) ∧
    (∀ plan error after, workload.session.createQuery plan = (.error error, after) →
      workload.create plan = workload) ∧
    Counter.queries.total workload.session.metrics "finished" =
      workload.queries.countP (·.query.state = .finished) ∧
    Counter.queries.total workload.session.metrics "failed" =
      workload.queries.countP (·.query.state = .failed) ∧
    ∀ source,
      Counter.partitions.total workload.session.metrics source =
        ((workload.runsOf source).map fun run => run.state.delivery.taken.length).sum ∧
      Counter.batches.total workload.session.metrics source =
        ((workload.runsOf source).map fun run => run.state.given.length).sum ∧
      Counter.rows.total workload.session.metrics source =
        ((workload.runsOf source).map fun run => (run.state.given.map (·.2.rowCount)).sum).sum := by
  have accounts := accounts_of_reachable reachable
  refine ⟨?_, ?_, ?_, ?_, ?_, ?_, ?_⟩
  · exact fun next step => followedBy_of_step step accounts
  · exact fun found isMember => (accounts.stands found isMember).runsOnce
  · intro index found isQuery orders sink source seconds ran
    refine ⟨fun planned => ?_, fun started => ⟨_, ?_, if_neg started⟩⟩
    · have stands := accounts.stands found (List.mem_of_getElem? isQuery)
      exact reachable_execute reachable isQuery planned (stands.of_planned planned).2 orders sink
        source seconds
    · rfl
  · exact fun plan error after refused => create_of_error refused
  · exact accounts.total_queries (rfl : QueryState.finished.ending? = _)
  · exact accounts.total_queries (rfl : QueryState.failed.ending? = _)
  · intro source
    exact ⟨accounts.total_runs .ofPartitions source, accounts.total_runs .ofBatches source,
      accounts.total_runs .ofRows source⟩

section Orders

def allOrders : Query where
  id := ⟨1⟩
  scan := ⟨"orders", none, ordersSchema, [⟨[], ordersSchema⟩]⟩
  state := .planned
  cancelled := false

/-- The sink refuses the first batch of the orders. The batch counts, and so does its partition. -/
theorem accounts_for_queries_refused :
    ∃ workload : Workload Unit,
      Reachable (.start .standard) () workload ∧
      Counter.queries.total workload.session.metrics "finished" = 0 ∧
      Counter.queries.total workload.session.metrics "failed" = 1 ∧
      Counter.partitions.total workload.session.metrics "orders" = 1 ∧
      Counter.batches.total workload.session.metrics "orders" = 1 ∧
      Counter.rows.total workload.session.metrics "orders" = 2 := by
  let made := (start (.start .standard) ()).create
    (.output (.input ⟨"orders", ordersSchema, none⟩))
  have created : Reachable (.start .standard) () made :=
    .step .start (.create _)
  have isQuery : made.queries[0]? = some ⟨allOrders, none, []⟩ := rfl
  have bound : 0 < made.queries.length := Nat.one_pos
  let scan := allOrders.scan.opened fullSink (.memory ordersTable)
    made.session.config.batchSize
  have sent := OpenScan.Reachable.start.step
    (rfl : scan.step? (scan.start false made.held) (.deliver .send) = some _)
  have requested := sent.step (rfl : scan.step? _ (.deliver (.request 0)) = some _)
  have taken := requested.step (rfl : scan.step? _ (.deliver (.receive 0)) = some _)
  have refused := taken.step (rfl : scan.step? _ (.deliver (.hand 0)) = some _)
  have ended := refused.step (rfl : scan.step? _ .conclude = some _)
  let executed : SessionQuery Unit := SessionQuery.begin ⟨allOrders, none, []⟩
    fullSink (.memory ordersTable) made.session.config.batchSize made.held
  have begun : Reachable (.start .standard) ()
      (made.update 0 executed [] made.held) := created.step (.turn isQuery (.begin rfl _ _))
  obtain ⟨recordings, -, reached⟩ := reachable_of_schedule executed begun rfl bound rfl ended
  have settled := reached.step (.turn (List.getElem?_set_self bound) (.settle rfl rfl rfl .zero))
  obtain ⟨-, -, -, -, finished, failed, runs⟩ := accounts_for_queries settled
  obtain ⟨partitions, batches, rows⟩ := runs "orders"
  exact ⟨_, settled, finished, failed, partitions, batches, rows⟩

end Orders

end Workload

end ColumnQuery
