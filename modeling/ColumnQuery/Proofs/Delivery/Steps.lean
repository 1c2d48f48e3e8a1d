import ColumnQuery.Delivery.Schedule

/-! # What the steps of a delivery change

Every step that can be taken changes the instant in one of a few ways. A run takes only steps of the
producer and of the workers: what holds at its start and is kept by each of these holds at its end.
-/

namespace ColumnQuery.Delivery

variable {Partition World : Type}

/-- What a step requires and the instant that it leads to. -/
inductive Step (delivery : Delivery Partition World) (state : State Partition World) :
    Action → State Partition World → Prop where
  | send {partition : Partition} {unsent : List Partition}
      (sent : state.unsent = partition :: unsent) (calm : state.cancelled = false)
      (room : state.queue.length < delivery.width) :
      Step delivery state .send { state with unsent, queue := state.queue ++ [partition] }
  | stopProducer (cancelled : state.cancelled = true) (unsent : state.unsent ≠ []) :
      Step delivery state .stopProducer (state.fail (.error .producerStopped))
  | close (allSent : state.unsent = []) : Step delivery state .close { state with closed := true }
  | request {worker : Nat} (idle : state.workers[worker]? = some (.holding [])) :
      Step delivery state (.request worker)
        { state.setWorker worker .waiting with line := state.line ++ [worker] }
  | receive {worker : Nat} {partition : Partition} {queue : List Partition} {batches : List Batch}
      (queued : state.queue = partition :: queue) (first : state.isFirst worker = true)
      (calm : state.cancelled = false) (loaded : delivery.load partition = .ok batches) :
      Step delivery state (.receive worker)
        ({ state with
            queue
            line := state.line.tail
            taken := state.taken ++ [(worker, partition)] }.setWorker worker (.holding batches))
  | unload {worker : Nat} {partition : Partition} {queue : List Partition} {error : Error}
      (queued : state.queue = partition :: queue) (first : state.isFirst worker = true)
      (calm : state.cancelled = false) (unloaded : delivery.load partition = .error error) :
      Step delivery state (.receive worker) (delivery.retire
        { state with
            queue
            line := state.line.tail
            taken := state.taken ++ [(worker, partition)] } worker (.failed error))
  | stopWorker {worker : Nat} (first : state.isFirst worker = true)
      (cancelled : state.cancelled = true) :
      Step delivery state (.stopWorker worker) (delivery.retire
        { state with line := state.line.tail } worker (.failed (.workerStopped worker)))
  | drain {worker : Nat} (first : state.isFirst worker = true) (calm : state.cancelled = false)
      (empty : state.queue = []) (closed : state.closed = true) :
      Step delivery state (.drain worker)
        (delivery.retire { state with line := state.line.tail } worker .drained)
  | hand {worker : Nat} {batch : Batch} {rest : List Batch} {world : World}
      (held : state.workers[worker]? = some (.holding (batch :: rest)))
      (accepted : delivery.handOver worker batch state.world = (.ok (), world)) :
      Step delivery state (.hand worker)
        ({ state with
            handed := state.handed ++ [(worker, batch)]
            world
            cancelled := state.cancelled || delivery.stops world }.setWorker worker
          (.holding rest))
  | refuse {worker : Nat} {batch : Batch} {rest : List Batch} {world : World} {error : Error}
      (held : state.workers[worker]? = some (.holding (batch :: rest)))
      (refused : delivery.handOver worker batch state.world = (.error (.error error), world)) :
      Step delivery state (.hand worker) (delivery.retire
        { state with
            handed := state.handed ++ [(worker, batch)]
            world
            cancelled := state.cancelled || delivery.stops world } worker (.failed error))
  | break {worker : Nat} {batch : Batch} {rest : List Batch} {world : World} {misuse : Misuse}
      (held : state.workers[worker]? = some (.holding (batch :: rest)))
      (broken : delivery.handOver worker batch state.world = (.error (.misuse misuse), world)) :
      Step delivery state (.hand worker)
        ({ state with
            handed := state.handed ++ [(worker, batch)]
            world
            cancelled := state.cancelled || delivery.stops world }.fail (.misuse misuse))
  | cancel (calm : state.cancelled = false) :
      Step delivery state .cancel { state with cancelled := true }

section Step

variable {delivery : Delivery Partition World} {state next : State Partition World}

theorem running_of_step? {action : Action} (taken : delivery.step? state action = some next) :
    state.failure = none := by
  unfold step? at taken
  split at taken
  · cases taken
  · rename_i running
    simpa using running

theorem step_of_step? {action : Action} (taken : delivery.step? state action = some next) :
    Step delivery state action next := by
  have running : ¬state.failure.isSome = true := by simp [running_of_step? taken]
  rw [step?.eq_def, if_neg running] at taken
  cases action with
  | cancel =>
    simp only at taken
    split at taken <;> cases taken
    rename_i calm
    exact .cancel (Bool.eq_false_iff.mpr calm)
  | send =>
    simp only [send?] at taken
    split at taken
    · cases taken
    · rename_i partition unsent sent
      split at taken <;> cases taken
      rename_i open_
      simp only [Bool.or_eq_true, decide_eq_true_eq, not_or, Bool.not_eq_true, Nat.not_le] at open_
      exact .send sent open_.1 open_.2
  | stopProducer =>
    simp only at taken
    split at taken <;> cases taken
    rename_i stopped
    simp only [Bool.and_eq_true, Bool.not_eq_true', List.isEmpty_eq_false_iff] at stopped
    exact .stopProducer stopped.1 stopped.2
  | close =>
    simp only at taken
    split at taken <;> cases taken
    rename_i closing
    exact .close (by simp_all)
  | request worker =>
    simp only at taken
    split at taken <;> cases taken
    rename_i idle
    exact .request idle
  | receive worker =>
    simp only [receive?] at taken
    split at taken
    · cases taken
    · rename_i partition queue queued
      split at taken
      · rename_i ready
        simp only [Bool.and_eq_true, Bool.not_eq_true'] at ready
        obtain ⟨first, calm⟩ := ready
        split at taken <;> cases taken
        · exact .receive queued first calm ‹_›
        · exact .unload queued first calm ‹_›
      · cases taken
  | stopWorker worker =>
    simp only at taken
    split at taken <;> cases taken
    rename_i stopped
    obtain ⟨first, cancelled⟩ := Bool.and_eq_true_iff.mp stopped
    exact .stopWorker first cancelled
  | drain worker =>
    simp only at taken
    split at taken <;> cases taken
    rename_i drained
    simp only [Bool.and_eq_true, Bool.not_eq_true', List.isEmpty_iff] at drained
    exact .drain drained.1.1.1 drained.1.1.2 drained.1.2 drained.2
  | hand worker =>
    simp only [hand?] at taken
    split at taken
    · rename_i batch rest held
      split at taken <;> cases taken
      · rename_i accepted
        exact .hand held (Prod.ext accepted rfl)
      · rename_i refused
        exact .refuse held (Prod.ext refused rfl)
      · rename_i broken
        exact .break held (Prod.ext broken rfl)
    · cases taken

end Step

section Run

variable {delivery : Delivery Partition World}

theorem step?_of_advance? {state next : State Partition World} {party : Party}
    (advanced : delivery.advance? state party = some next) :
    ∃ action, action ≠ .cancel ∧ delivery.step? state action = some next := by
  obtain ⟨action, isMember, taken⟩ := List.exists_of_findSome?_eq_some advanced
  refine ⟨action, ?_, taken⟩
  rintro rfl
  cases party <;> simp [Party.actions] at isMember

theorem isSome_advance? {state : State Partition World} {party : Party} (action : Action)
    (isMember : action ∈ party.actions) (possible : (delivery.step? state action).isSome) :
    (delivery.advance? state party).isSome :=
  List.findSome?_isSome_iff.mpr ⟨action, isMember, possible⟩

/-- What every step but a cancellation keeps holds at the end of a run. -/
theorem runFrom_keeps {holds : State Partition World → Prop}
    (kept : ∀ {state next : State Partition World} {action : Action}, action ≠ .cancel →
      delivery.step? state action = some next → holds state → holds next)
    {state : State Partition World} (turns : List Party) (isIdle : Bool)
    (initially : holds state) : holds (delivery.runFrom state turns isIdle) := by
  fun_induction runFrom delivery state turns isIdle with
  | case1 state turns isIdle done => exact initially
  | case2 state running => exact initially
  | case3 state isIdle running busy ih => exact ih initially
  | case4 state isIdle running party rest next advanced nearer ih =>
    obtain ⟨action, inner, taken⟩ := step?_of_advance? advanced
    exact ih (kept inner taken initially)
  | case5 state isIdle running party rest stuck ih => exact ih initially

/-- A run is one of the orders of steps that a delivery may take. -/
theorem reachable_run (partitions : List Partition) (world : World) (cancelled : Bool) :
    Reachable delivery (delivery.start partitions world cancelled)
      (delivery.run partitions world cancelled) := by
  simp only [run]
  split
  · exact .start
  · exact runFrom_keeps (fun _ taken before => .step before taken) [] false .start

end Run

end ColumnQuery.Delivery
