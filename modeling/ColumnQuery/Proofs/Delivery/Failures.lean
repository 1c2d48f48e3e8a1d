import ColumnQuery.Proofs.Delivery.Conservation

/-! # Which failure is final

A step raises a fault where a partition cannot be loaded, a consumer fails, or a cancellation is
noticed. In a small group the first fault that is raised ends the delivery. In a large group only
the producer and a misuse end it at once; a worker that fails ends it as soon as all workers before
it have drained, whatever others have raised by then.
-/

namespace ColumnQuery.Delivery

variable {Partition World : Type}

def Action.worker? : Action → Option Nat
  | send | stopProducer | close | cancel => none
  | request worker | receive worker | stopWorker worker | drain worker | hand worker => some worker

/-- Whether a step is the notice of a cancellation. -/
def Action.isStop : Action → Bool
  | stopProducer | stopWorker _ => true
  | send | close | request _ | receive _ | drain _ | hand _ | cancel => false

/-- The fault that a step raises. -/
def raised? (delivery : Delivery Partition World) (state : State Partition World) :
    Action → Option Fault
  | .stopProducer => some (.error .producerStopped)
  | .stopWorker worker => some (.error (.workerStopped worker))
  | .receive _ =>
    match state.queue with
    | [] => none
    | partition :: _ =>
      match delivery.load partition with
      | .ok _ => none
      | .error error => some (.error error)
  | .hand worker =>
    match state.workers[worker]? with
    | some (.holding (batch :: _)) =>
      match (delivery.handOver worker batch state.world).1 with
      | .ok _ => none
      | .error fault => some fault
    | _ => none
  | .send | .close | .request _ | .drain _ | .cancel => none

/-- The instants that some order of steps leads to, with the faults that were raised on the way and
the steps that raised them. -/
inductive History (delivery : Delivery Partition World) (initial : State Partition World) :
    List (Action × Fault) → State Partition World → Prop where
  | start : History delivery initial [] initial
  | step {raises : List (Action × Fault)} {state next : State Partition World} {action : Action}
      (before : History delivery initial raises state)
      (taken : delivery.step? state action = some next) :
      History delivery initial
        (raises ++ ((delivery.raised? state action).map (action, ·)).toList) next

def WorkerPhase.isOver : WorkerPhase → Bool
  | holding _ | waiting => false
  | drained | failed _ => true

/-- What a step means for the end of a delivery. -/
inductive Bearing (delivery : Delivery Partition World) (state : State Partition World)
    (action : Action) (next : State Partition World) : Prop where
  /-- Nobody comes to an end. -/
  | quiet (silent : delivery.raised? state action = none) (goesOn : next.failure = none)
      (known : ∀ (worker : Nat) (phase : WorkerPhase), phase.isOver = true →
        next.workers[worker]? = some phase → state.workers[worker]? = some phase)
  /-- A worker comes to its end. -/
  | retired {worker : Nat} {phase : WorkerPhase} (ended : phase.isOver = true)
      (bound : worker < state.workers.length)
      (workers : next.workers = state.workers.set worker phase)
      (failure : next.failure = (delivery.workerError? next.workers).map .error)
      (raised : delivery.raised? state action = phase.error?.map .error)
      (own : action.worker? = some worker)
  /-- The producer or a misuse ends the delivery. -/
  | final {fault : Fault} (raised : delivery.raised? state action = some fault)
      (failure : next.failure = some fault) (workers : next.workers = state.workers)
      (atOnce : action = .stopProducer ∨ ∃ misuse, fault = .misuse misuse)

variable {delivery : Delivery Partition World}

section Step

variable {state next : State Partition World} {action : Action}

/-- A worker that comes to its end while another goes on had done so before. -/
theorem over_of_set {workers : List WorkerPhase} {worker other : Nat} {phase going : WorkerPhase}
    (goes : going.isOver = false) (ended : phase.isOver = true)
    (found : (workers.set worker going)[other]? = some phase) : workers[other]? = some phase := by
  by_cases same : worker = other
  · subst same
    obtain ⟨bound, -⟩ := List.getElem?_eq_some_iff.mp found
    rw [List.length_set] at bound
    rw [List.getElem?_set_self bound] at found
    obtain rfl := Option.some.inj found
    simp [ended] at goes
  · rwa [List.getElem?_set_ne same] at found

private theorem bearing_of_step (running : state.failure = none)
    (lined : Lined state.line state.workers) (step : Step delivery state action next) :
    Bearing delivery state action next := by
  have firstBound {worker : Nat} (first : state.isFirst worker = true) :
      worker < state.workers.length :=
    (List.getElem?_eq_some_iff.mp
      ((lined.waits worker).mp (line_of_first first ▸ List.mem_cons_self))).1
  have heldBound {worker : Nat} {phase : WorkerPhase}
      (held : state.workers[worker]? = some phase) : worker < state.workers.length :=
    (List.getElem?_eq_some_iff.mp held).1
  cases step with
  | send | close | cancel => exact .quiet rfl running fun _ _ _ found => found
  | stopProducer => exact .final rfl rfl rfl (.inl rfl)
  | request => exact .quiet rfl running fun _ _ ended found => over_of_set rfl ended found
  | receive queued first calm loaded =>
    exact .quiet (by simp only [raised?, queued, loaded]) running
      fun _ _ ended found => over_of_set rfl ended found
  | unload queued first calm unloaded =>
    exact .retired rfl (firstBound first) rfl rfl
      (by simp only [raised?, queued, unloaded]; rfl) rfl
  | stopWorker first => exact .retired rfl (firstBound first) rfl rfl rfl rfl
  | drain first => exact .retired rfl (firstBound first) rfl rfl rfl rfl
  | hand held accepted =>
    exact .quiet (by simp only [raised?, held, accepted]) running
      fun _ _ ended found => over_of_set rfl ended found
  | refuse held refused =>
    exact .retired rfl (heldBound held) rfl rfl (by simp only [raised?, held, refused]; rfl) rfl
  | «break» held broken =>
    exact .final (by simp only [raised?, held, broken]) rfl rfl (.inr ⟨_, rfl⟩)

end Step

section Watching

variable {workers : List WorkerPhase}

/-- In a small group every failure counts. -/
theorem workerError?_eq_none_of_isSmall (small : delivery.isSmall = true) :
    delivery.workerError? workers = none ↔
      ∀ (worker : Nat) (error : Error), workers[worker]? ≠ some (.failed error) := by
  rw [workerError?, if_pos small, List.findSome?_eq_none_iff]
  constructor
  · intro calm worker error found
    exact absurd (calm _ (List.mem_of_getElem? found)) nofun
  · intro calm phase isMember
    obtain ⟨worker, found⟩ := List.mem_iff_getElem?.mp isMember
    cases phase with
    | failed error => exact absurd found (calm worker error)
    | holding | waiting | drained => rfl

/-- The first failure in a small group counts. -/
theorem workerError?_set_of_isSmall (small : delivery.isSmall = true)
    (calm : delivery.workerError? workers = none) {worker : Nat} (bound : worker < workers.length)
    (phase : WorkerPhase) :
    delivery.workerError? (workers.set worker phase) = phase.error? := by
  rw [workerError?, if_pos small] at calm ⊢
  rw [List.findSome?_eq_none_iff] at calm
  have before : (workers.take worker).findSome? WorkerPhase.error? = none :=
    List.findSome?_eq_none_iff.mpr fun other isMember => calm other (List.mem_of_mem_take isMember)
  have after : (workers.drop (worker + 1)).findSome? WorkerPhase.error? = none :=
    List.findSome?_eq_none_iff.mpr fun other isMember => calm other (List.mem_of_mem_drop isMember)
  rw [List.set_eq_take_append_cons_drop, if_pos bound, List.findSome?_append, before,
    List.findSome?_cons, after]
  cases phase.error? <;> rfl

/-- In a large group the failure of a worker counts when all workers before it have drained. -/
theorem workerError?_eq_some_of_isLarge (large : delivery.isSmall = false) {error : Error} :
    delivery.workerError? workers = some error ↔
      ∃ worker : Nat, workers[worker]? = some (.failed error) ∧
        ∀ earlier < worker, workers[earlier]? = some .drained := by
  rw [workerError?, if_neg (by simp [large]), Option.bind_eq_some_iff]
  constructor
  · rintro ⟨phase, found, failed⟩
    obtain ⟨-, worker, bound, rfl, before⟩ := List.find?_eq_some_iff_getElem.mp found
    refine ⟨worker, ?_, fun earlier less => ?_⟩
    · cases phase : workers[worker] with
      | failed own =>
        rw [phase] at failed
        obtain rfl : own = error := Option.some.inj failed
        rw [List.getElem?_eq_getElem bound, phase]
      | holding | waiting | drained => simp [phase, WorkerPhase.error?] at failed
    · rw [List.getElem?_eq_getElem (Nat.lt_trans less bound)]
      simpa using before earlier less
  · rintro ⟨worker, found, before⟩
    obtain ⟨bound, same⟩ := List.getElem?_eq_some_iff.mp found
    refine ⟨.failed error, List.find?_eq_some_iff_getElem.mpr ⟨by simp, worker, bound, same, ?_⟩,
      rfl⟩
    intro earlier less
    have drained := before earlier less
    rw [List.getElem?_eq_getElem (Nat.lt_trans less bound)] at drained
    simp [Option.some.inj drained]

/-- Workers that come to no new end end nothing. -/
theorem workerError?_eq_none_of_over {others : List WorkerPhase}
    (known : ∀ (worker : Nat) (phase : WorkerPhase), phase.isOver = true →
      others[worker]? = some phase → workers[worker]? = some phase)
    (calm : delivery.workerError? workers = none) : delivery.workerError? others = none := by
  cases size : delivery.isSmall with
  | true =>
    rw [workerError?_eq_none_of_isSmall size] at calm ⊢
    exact fun worker error found => calm worker error (known worker _ rfl found)
  | false =>
    rw [Option.eq_none_iff_forall_ne_some] at calm ⊢
    intro error failed
    obtain ⟨worker, found, before⟩ := (workerError?_eq_some_of_isLarge size).mp failed
    exact calm error ((workerError?_eq_some_of_isLarge size).mpr ⟨worker, known worker _ rfl found,
      fun earlier less => known earlier _ rfl (before earlier less)⟩)

/-- Where all workers have come to their ends and no failure counts, all have drained. -/
theorem all_drained_of_over (ended : ∀ phase ∈ workers, phase.isOver = true)
    (calm : delivery.workerError? workers = none) : ∀ phase ∈ workers, phase = .drained := by
  intro phase isMember
  by_contra undrained
  -- in a large group the first worker that has not drained would count
  have counts : ∃ other ∈ workers, other ≠ .drained ∧
      (delivery.workerError? workers = none → other.error? = none) := by
    cases size : delivery.isSmall with
    | true =>
      rw [workerError?, if_pos size, List.findSome?_eq_none_iff]
      exact ⟨phase, isMember, undrained, fun all => all phase isMember⟩
    | false =>
      rw [workerError?, if_neg (by simp [size])]
      cases found : workers.find? (· != .drained) with
      | none => exact absurd (List.find?_eq_none.mp found phase isMember) (by simpa using undrained)
      | some other =>
        exact ⟨other, List.mem_of_find?_eq_some found, by simpa using List.find?_some found, id⟩
  obtain ⟨other, isOther, undrained, silent⟩ := counts
  have isEnded := ended other isOther
  cases other with
  | drained => exact undrained rfl
  | failed error => cases silent calm
  | holding | waiting => cases isEnded

end Watching

section History

variable {initial state : State Partition World} {raises : List (Action × Fault)}

theorem reachable_of_history (history : History delivery initial raises state) :
    Reachable delivery initial state := by
  induction history with
  | start => exact .start
  | step _ taken reachable => exact .step reachable taken

variable {partitions : List Partition} {world : World} {cancelled : Bool}

private theorem bearing_of_step? {next : State Partition World} {action : Action}
    (reachable : Reachable delivery (delivery.start partitions world cancelled) state)
    (taken : delivery.step? state action = some next) : Bearing delivery state action next :=
  bearing_of_step (running_of_step? taken) (conserves_of_reachable reachable).lined
    (step_of_step? taken)

/-- While a delivery goes on, no failure of a worker counts. -/
theorem workerError?_of_running
    (reachable : Reachable delivery (delivery.start partitions world cancelled) state)
    (running : state.failure = none) : delivery.workerError? state.workers = none := by
  induction reachable with
  | start =>
    have nobody : delivery.workerError? [] = none := by
      rw [workerError?]
      split <;> rfl
    refine workerError?_eq_none_of_over (fun worker phase ended found => ?_) nobody
    simp only [start, List.getElem?_replicate] at found
    split at found <;> cases found
    cases ended
  | step before taken calm =>
    cases bearing_of_step? before taken with
    | quiet _ _ known => exact workerError?_eq_none_of_over known (calm (running_of_step? taken))
    | retired _ _ _ failure => exact Option.map_eq_none_iff.mp (failure.symm.trans running)
    | final _ failure => cases failure.symm.trans running

/-- The first fault that is raised ends a small group, and nothing else does. -/
theorem failure_of_isSmall (small : delivery.isSmall = true)
    (history : History delivery (delivery.start partitions world cancelled) raises state) :
    state.failure = raises.head?.map (·.2) := by
  induction history with
  | start => rfl
  | @step raises state next action before taken ih =>
    have running := running_of_step? taken
    have reachable := reachable_of_history before
    have noRaises : raises = [] := by
      rw [running] at ih
      exact List.head?_eq_none_iff.mp (Option.map_eq_none_iff.mp ih.symm)
    have raised : next.failure = delivery.raised? state action := by
      cases bearing_of_step? reachable taken with
      | quiet silent goesOn => rw [silent, goesOn]
      | @retired worker phase _ bound workers failure raised =>
        have calm := workerError?_of_running reachable running
        rw [failure, raised, workers, workerError?_set_of_isSmall small calm bound]
      | final raised failure => rw [raised, failure]
    rw [noRaises, raised, List.nil_append]
    cases delivery.raised? state action <;> rfl

/-- A worker that has failed has raised its error. -/
theorem raised_of_failed
    (history : History delivery (delivery.start partitions world cancelled) raises state)
    {worker : Nat} {error : Error} (failed : state.workers[worker]? = some (.failed error)) :
    ∃ action, (action, .error error) ∈ raises ∧ action.worker? = some worker := by
  induction history with
  | start =>
    simp only [start, List.getElem?_replicate] at failed
    split at failed <;> cases failed
  | @step raises state next action before taken ih =>
    have earlier (failed : state.workers[worker]? = some (.failed error)) :
        ∃ own, (own, .error error) ∈
          raises ++ ((delivery.raised? state action).map (action, ·)).toList ∧
          own.worker? = some worker := by
      obtain ⟨own, raised, isOwn⟩ := ih failed
      exact ⟨own, List.mem_append_left _ raised, isOwn⟩
    cases bearing_of_step? (reachable_of_history before) taken with
    | quiet _ _ known => exact earlier (known worker _ rfl failed)
    | @retired ending phase _ bound workers _ raised own =>
      rw [workers] at failed
      by_cases same : ending = worker
      · subst same
        rw [List.getElem?_set_self bound] at failed
        obtain rfl := Option.some.inj failed
        exact ⟨action, List.mem_append_right _ (by simp [raised, WorkerPhase.error?]), own⟩
      · rw [List.getElem?_set_ne same] at failed
        exact earlier failed
    | final _ _ workers => exact earlier (workers ▸ failed)

/-- How a fault ends a delivery to a large group. -/
inductive Decided (raises : List (Action × Fault)) (state : State Partition World) :
    Fault → Prop where
  /-- The fault was raised last, by the producer or as a misuse. -/
  | atOnce {action : Action} {fault : Fault} (last : raises.getLast? = some (action, fault))
      (final : action = .stopProducer ∨ ∃ misuse, fault = .misuse misuse) :
      Decided raises state fault
  /-- The fault was raised by a worker, and all workers before it have drained. -/
  | inTurn {action : Action} {worker : Nat} {error : Error}
      (raised : (action, .error error) ∈ raises) (own : action.worker? = some worker)
      (failed : state.workers[worker]? = some (.failed error))
      (before : ∀ earlier < worker, state.workers[earlier]? = some .drained) :
      Decided raises state (.error error)

theorem decided_of_failure (large : delivery.isSmall = false)
    (history : History delivery (delivery.start partitions world cancelled) raises state)
    {fault : Fault} (failure : state.failure = some fault) : Decided raises state fault := by
  cases history with
  | start => cases failure
  | @step raises state next action before taken =>
    cases bearing_of_step? (reachable_of_history before) taken with
    | quiet _ goesOn => cases goesOn.symm.trans failure
    | retired _ _ _ ended =>
      obtain ⟨error, counted, rfl⟩ := Option.map_eq_some_iff.mp (ended.symm.trans failure)
      obtain ⟨worker, failed, drained⟩ := (workerError?_eq_some_of_isLarge large).mp counted
      obtain ⟨own, raised, isOwn⟩ := raised_of_failed (.step before taken) failed
      exact .inTurn raised isOwn failed drained
    | final raised ended _ atOnce =>
      obtain rfl := Option.some.inj (ended.symm.trans failure)
      exact .atOnce (by simp [raised]) atOnce

/-- A delivery fails with a fault that was raised. -/
theorem mem_of_failure
    (history : History delivery (delivery.start partitions world cancelled) raises state)
    {fault : Fault} (failure : state.failure = some fault) :
    ∃ action, (action, fault) ∈ raises := by
  cases size : delivery.isSmall with
  | true =>
    rw [failure_of_isSmall size history] at failure
    obtain ⟨⟨action, own⟩, first, rfl⟩ := Option.map_eq_some_iff.mp failure
    exact ⟨action, List.mem_of_head? first⟩
  | false =>
    cases decided_of_failure size history failure with
    | atOnce last => exact ⟨_, List.mem_of_getLast? last⟩
    | inTurn raised => exact ⟨_, raised⟩

end History

section Cancelled

variable {initial state : State Partition World} {late : List (Action × Fault)}

/-- Nobody drains once the delivery is cancelled. -/
theorem undrained_of_step {next : State Partition World} {action : Action} {worker : Nat}
    (step : Step delivery state action next) (stopped : state.cancelled = true)
    (undrained : state.workers[worker]? ≠ some .drained) :
    next.cancelled = true ∧ next.workers[worker]? ≠ some .drained := by
  have elsewhere {other : Nat} {phase : WorkerPhase} (going : phase ≠ .drained) :
      (state.workers.set other phase)[worker]? ≠ some .drained := by
    rw [List.getElem?_set]
    split
    · split <;> simp [going]
    · exact undrained
  have still {stops : Bool} : (state.cancelled || stops) = true := by rw [stopped, Bool.true_or]
  cases step with
  | send _ calm | receive _ _ calm | unload _ _ calm | drain _ calm | cancel calm =>
    simp [stopped] at calm
  | stopProducer | close => exact ⟨stopped, undrained⟩
  | request | stopWorker => exact ⟨stopped, elsewhere nofun⟩
  | hand | refuse => exact ⟨still, elsewhere nofun⟩
  | «break» => exact ⟨still, undrained⟩

theorem undrained_of_history (history : History delivery initial late state)
    (stopped : initial.cancelled = true) (worker : Nat)
    (undrained : initial.workers[worker]? ≠ some .drained) :
    state.cancelled = true ∧ state.workers[worker]? ≠ some .drained := by
  induction history with
  | start => exact ⟨stopped, undrained⟩
  | step _ taken before => exact undrained_of_step (step_of_step? taken) before.1 before.2

theorem History.append {raises : List (Action × Fault)} {middle : State Partition World}
    (early : History delivery initial raises middle) (later : History delivery middle late state) :
    History delivery initial (raises ++ late) state := by
  induction later with
  | start => rwa [List.append_nil]
  | step _ taken before =>
    rw [← List.append_assoc]
    exact .step before taken

/-- A fault that is the notice of a cancellation is of this kind. -/
theorem kind_of_isStop (history : History delivery initial late state) {action : Action}
    {fault : Fault} (raised : (action, fault) ∈ late) (isStop : action.isStop = true) :
    ∃ error, fault = .error error ∧ error.kind = .cancelled := by
  induction history with
  | start => cases raised
  | @step _ state _ own _ _ before =>
    rcases List.mem_append.mp raised with earlier | last
    · exact before earlier
    · simp only [Option.mem_toList, Option.map_eq_some_iff, Prod.mk.injEq] at last
      obtain ⟨_, notice, rfl, rfl⟩ := last
      cases own with
      | stopProducer | stopWorker =>
        cases notice
        exact ⟨_, rfl, rfl⟩
      | send | close | request | receive | drain | hand | cancel => cases isStop

end Cancelled

end ColumnQuery.Delivery
