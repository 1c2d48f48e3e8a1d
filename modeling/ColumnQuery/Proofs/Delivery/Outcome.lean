import ColumnQuery.Proofs.Delivery.Failures
import ColumnQuery.Proofs.Delivery.Handing

/-! # How a delivery goes and how it ends

Whatever the order of steps, every partition is delivered once. A delivery that ends well has
delivered all partitions in full, and one that is cancelled in time does not end well. Until the end
somebody can take a step. A small group ends with the first fault that is raised; a large group need
not.
-/

namespace ColumnQuery.Delivery

variable {Partition World : Type} {delivery : Delivery Partition World}
  {partitions : List Partition} {world : World} {cancelled : Bool} {state : State Partition World}

/-- Every partition is in one place or was taken by one worker of the group, and each worker has
handed over what it took, in order and each batch once. -/
structure Accounts (delivery : Delivery Partition World) (partitions : List Partition)
    (state : State Partition World) : Prop where
  inOrder : state.taken.map (·.2) ++ state.queue ++ state.unsent = partitions
  owned : ∀ entry ∈ state.taken, entry.1 < delivery.width
  bounded : state.queue.length ≤ delivery.width
  handed : ∀ worker, HandsOver delivery (itemsOf worker state.taken) (itemsOf worker state.handed)
  once : state.handed.Subperm (delivery.contentsOf state.taken)

/-- Every partition was taken, and each worker has handed over all batches of what it took. -/
structure Completes (delivery : Delivery Partition World) (partitions : List Partition)
    (state : State Partition World) : Prop where
  inOrder : state.taken.map (·.2) = partitions
  handed : ∀ worker, Yields delivery (itemsOf worker state.taken) (itemsOf worker state.handed)

theorem running_of_outcome (success : state.outcome = .ok ()) : state.failure = none := by
  rw [State.outcome] at success
  split at success
  · cases success
  · assumption

theorem drained_of_isDone (running : state.failure = none) (done : state.isDone = true) :
    state.closed = true ∧ ∀ phase ∈ state.workers, phase = .drained := by
  simpa [State.isDone, running] using done

theorem Conserves.completes (conserves : Conserves delivery partitions state)
    (handsInOrder : HandsInOrder delivery state) (positive : 0 < delivery.width)
    (running : state.failure = none) (done : state.isDone = true) :
    Completes delivery partitions state := by
  obtain ⟨closed, drained⟩ := drained_of_isDone running done
  have somebody : .drained ∈ state.workers := by
    have bound : 0 < state.workers.length := conserves.complete ▸ positive
    exact drained _ (List.getElem_mem bound) ▸ List.getElem_mem bound
  refine ⟨?_, fun worker => ?_⟩
  · have inOrder := conserves.inOrder
    rwa [conserves.allSent closed, (conserves.nothingLeft somebody).2, List.append_nil,
      List.append_nil] at inOrder
  · have served := handsInOrder.served running worker
    rw [List.getD_eq_getElem?_getD] at served
    cases found : state.workers[worker]? with
    | none => rwa [found] at served
    | some phase =>
      obtain rfl := drained phase (List.mem_of_getElem? found)
      rwa [found] at served

section Ends

variable (reachable : Reachable delivery (delivery.start partitions world cancelled) state)
include reachable

theorem accounts_of_reachable : Accounts delivery partitions state := by
  have conserves := conserves_of_reachable reachable
  have handsInOrder := handsInOrder_of_reachable reachable
  exact ⟨conserves.inOrder, conserves.owned, conserves.bounded, handsInOrder.handed,
    handsInOrder.once⟩

/-- A delivery to somebody that ends well is complete. -/
theorem completes_of_isDone (positive : 0 < delivery.width) (running : state.failure = none)
    (done : state.isDone = true) : Completes delivery partitions state :=
  (conserves_of_reachable reachable).completes (handsInOrder_of_reachable reachable) positive
    running done

/-- A worker of the group that stands in line has a turn in the next round. -/
theorem mem_round_of_line {worker : Nat} (waits : worker ∈ state.line) :
    .worker worker ∈ delivery.round state := by
  have conserves := conserves_of_reachable reachable
  have found := (conserves.lined.waits worker).mp waits
  have bound := (List.getElem?_eq_some_iff.mp found).1
  rw [conserves.complete] at bound
  refine List.mem_cons_of_mem _ (List.mem_map_of_mem ?_)
  split
  · exact List.mem_range.mpr bound
  · exact waits

/-- When nobody stands in line, every worker of the group has a turn in the next round. -/
theorem mem_round_of_nobody (nobody : state.line = []) {worker : Nat} {phase : WorkerPhase}
    (found : state.workers[worker]? = some phase) : .worker worker ∈ delivery.round state := by
  have bound := (List.getElem?_eq_some_iff.mp found).1
  rw [(conserves_of_reachable reachable).complete] at bound
  refine List.mem_cons_of_mem _ (List.mem_map_of_mem ?_)
  rw [if_pos (by simp [nobody])]
  exact List.mem_range.mpr bound

/-- The worker that is first in line can take a step, or else the producer can. -/
theorem exists_turn_of_line (positive : 0 < delivery.width) (running : state.failure = none)
    {worker : Nat} {behind : List Nat} (line : state.line = worker :: behind) :
    ∃ party ∈ delivery.round state, (delivery.advance? state party).isSome = true := by
  have isProducer : .producer ∈ delivery.round state := List.mem_cons_self
  have isWorker : .worker worker ∈ delivery.round state :=
    mem_round_of_line reachable (line ▸ List.mem_cons_self)
  have first : state.isFirst worker = true := by simp [State.isFirst, line]
  cases stopped : state.cancelled with
  | true =>
    refine ⟨_, isWorker, isSome_advance? (.stopWorker worker) (by simp [Party.actions]) ?_⟩
    simp [step?, running, first, stopped]
  | false =>
    cases queue : state.queue with
    | cons partition queue =>
      refine ⟨_, isWorker, isSome_advance? (.receive worker) (by simp [Party.actions]) ?_⟩
      simp only [step?, running, receive?, queue, first, stopped, Option.isSome_none,
        Bool.false_eq_true, if_false, Bool.not_false, Bool.and_self, if_true]
      split <;> rfl
    | nil =>
      cases closed : state.closed with
      | true =>
        refine ⟨_, isWorker, isSome_advance? (.drain worker) (by simp [Party.actions]) ?_⟩
        simp [step?, running, first, stopped, queue, closed]
      | false =>
        cases unsent : state.unsent with
        | nil =>
          refine ⟨_, isProducer, isSome_advance? .close (by simp [Party.actions]) ?_⟩
          simp [step?, running, unsent, closed]
        | cons partition unsent =>
          have room : ¬delivery.width ≤ 0 := Nat.not_le.mpr positive
          refine ⟨_, isProducer, isSome_advance? .send (by simp [Party.actions]) ?_⟩
          simp [step?, running, send?, unsent, stopped, queue, room]

/-- When nobody stands in line, a worker that holds batches can take a step. -/
theorem exists_turn_of_holding (running : state.failure = none) (nobody : state.line = [])
    {worker : Nat} {batches : List Batch}
    (held : state.workers[worker]? = some (.holding batches)) :
    ∃ party ∈ delivery.round state, (delivery.advance? state party).isSome = true := by
  have isWorker := mem_round_of_nobody reachable nobody held
  cases batches with
  | nil =>
    refine ⟨_, isWorker, isSome_advance? (.request worker) (by simp [Party.actions]) ?_⟩
    simp [step?, running, held]
  | cons batch rest =>
    refine ⟨_, isWorker, isSome_advance? (.hand worker) (by simp [Party.actions]) ?_⟩
    simp only [step?, running, hand?, held, Option.isSome_none, Bool.false_eq_true, if_false]
    split <;> rfl

/-- A delivery to somebody is at its end when nobody holds a batch or waits. -/
theorem isDone_of_idle (positive : 0 < delivery.width) (running : state.failure = none)
    (nobody : state.line = [])
    (idle : ∀ (worker : Nat) batches, state.workers[worker]? ≠ some (.holding batches)) :
    state.isDone = true := by
  have conserves := conserves_of_reachable reachable
  have ended : ∀ phase ∈ state.workers, phase.isOver = true := by
    intro phase isMember
    obtain ⟨worker, found⟩ := List.mem_iff_getElem?.mp isMember
    cases phase with
    | holding batches => exact absurd found (idle worker batches)
    | waiting =>
      have waits := (conserves.lined.waits worker).mpr found
      simp [nobody] at waits
    | drained | failed => rfl
  have drained := all_drained_of_over ended (workerError?_of_running reachable running)
  have bound : 0 < state.workers.length := conserves.complete ▸ positive
  have somebody : .drained ∈ state.workers :=
    drained _ (List.getElem_mem bound) ▸ List.getElem_mem bound
  simpa [State.isDone, (conserves.nothingLeft somebody).1] using .inr drained

/-- Until the end the producer or a worker that has a turn in the next round can take a step. -/
theorem exists_turn (positive : 0 < delivery.width) (going : state.isDone = false) :
    ∃ party ∈ delivery.round state, (delivery.advance? state party).isSome = true := by
  have running : state.failure = none := by
    rw [State.isDone, Bool.or_eq_false_iff] at going
    simpa using going.1
  cases line : state.line with
  | cons worker behind => exact exists_turn_of_line reachable positive running line
  | nil =>
    by_cases held : ∃ (worker : Nat) (batches : List Batch),
        state.workers[worker]? = some (.holding batches)
    · obtain ⟨worker, batches, held⟩ := held
      exact exists_turn_of_holding reachable running line held
    · have idle (worker : Nat) (batches : List Batch) :
          state.workers[worker]? ≠ some (.holding batches) :=
        fun found => held ⟨worker, batches, found⟩
      simp [isDone_of_idle reachable positive running line idle] at going

/-- Until the end the producer or a worker can take a step. -/
theorem exists_step (positive : 0 < delivery.width) (going : state.isDone = false) :
    ∃ action, action ≠ .cancel ∧ (delivery.step? state action).isSome = true := by
  obtain ⟨party, -, possible⟩ := exists_turn reachable positive going
  obtain ⟨next, advanced⟩ := Option.isSome_iff_exists.mp possible
  obtain ⟨action, inner, taken⟩ := step?_of_advance? advanced
  exact ⟨action, inner, Option.isSome_iff_exists.mpr ⟨next, taken⟩⟩

end Ends

/-- A delivery that is cancelled before every worker has drained ends as cancelled, if neither a
load nor a consumer fails. -/
theorem cancelled_of_isDone {early late : List (Action × Fault)}
    {earlier : State Partition World}
    (before : History delivery (delivery.start partitions world cancelled) early earlier)
    (after : History delivery earlier late state) (stopped : earlier.cancelled = true)
    (undrained : ∃ phase ∈ earlier.workers, phase ≠ .drained)
    (notices : ∀ raise ∈ early ++ late, raise.1.isStop = true) (done : state.isDone = true) :
    ∃ error, state.outcome = .error (.error error) ∧ error.kind = .cancelled := by
  have whole := before.append after
  obtain ⟨phase, isMember, undrained⟩ := undrained
  obtain ⟨worker, found⟩ := List.mem_iff_getElem?.mp isMember
  cases failure : state.failure with
  | none =>
    have never := (undrained_of_history after stopped worker (by simpa [found] using undrained)).2
    have sameGroup : earlier.workers.length = state.workers.length :=
      (conserves_of_reachable (reachable_of_history before)).complete.trans
        (conserves_of_reachable (reachable_of_history whole)).complete.symm
    have bound : worker < state.workers.length :=
      sameGroup ▸ (List.getElem?_eq_some_iff.mp found).1
    have drained := (drained_of_isDone failure done).2 _ (List.getElem_mem bound)
    exact absurd (List.getElem?_eq_getElem bound |>.trans (congrArg some drained)) never
  | some fault =>
    obtain ⟨action, raised⟩ := mem_of_failure whole failure
    obtain ⟨error, rfl, kind⟩ := kind_of_isStop whole raised (notices _ raised)
    exact ⟨error, by rw [State.outcome, failure], kind⟩

/-- Whatever the order of steps, a delivery to somebody accounts for every partition, ends well only
when it is complete, ends as cancelled when it is cancelled in time and nothing else fails, and is
never stuck. What it fails with is the first fault that was raised if the group is small, and else
the fault of the first worker that has not drained, or of the producer, or a misuse. -/
theorem accounts_and_ends (positive : 0 < delivery.width) {raises : List (Action × Fault)}
    (history : History delivery (delivery.start partitions world cancelled) raises state) :
    Accounts delivery partitions state ∧
      (state.isDone = true → state.outcome = .ok () → Completes delivery partitions state) ∧
      (delivery.isSmall = true → state.failure = raises.head?.map (·.2)) ∧
      (delivery.isSmall = false → ∀ fault, state.failure = some fault →
        Decided raises state fault) ∧
      (∀ early late earlier,
        History delivery (delivery.start partitions world cancelled) early earlier →
        History delivery earlier late state → earlier.cancelled = true →
        (∃ phase ∈ earlier.workers, phase ≠ .drained) →
        (∀ raise ∈ early ++ late, raise.1.isStop = true) → state.isDone = true →
        ∃ error, state.outcome = .error (.error error) ∧ error.kind = .cancelled) ∧
      (state.isDone = false →
        ∃ action, action ≠ .cancel ∧ (delivery.step? state action).isSome = true) := by
  have reachable := reachable_of_history history
  exact ⟨accounts_of_reachable reachable,
    fun done success =>
      completes_of_isDone reachable positive (running_of_outcome success) done,
    fun small => failure_of_isSmall small history,
    fun large _ failure => decided_of_failure large history failure,
    fun _ _ _ before after => cancelled_of_isDone before after, exists_step reachable positive⟩

section Crowd

/-- A group of thirty-one workers, who cannot load the partitions that are marked. -/
def crowd : Delivery Bool Unit where
  width := 31
  handOver _ _ _ := (.ok (), ())
  stops _ := false
  load isBroken := if isBroken then .error (.loadFailed "broken partition") else .ok []

/-- The second worker fails to load its partition. Then the delivery is cancelled, and the first
worker notices. -/
theorem crowd_history : ∃ state, History crowd (crowd.start [false, true, false] () false)
      [(.receive 1, .error (.loadFailed "broken partition")),
        (.stopWorker 0, .error (.workerStopped 0))] state ∧
    state.isDone = true ∧ state.outcome = .error (.error (.workerStopped 0)) := by
  have sent := History.step .start
    (rfl : crowd.step? (crowd.start [false, true, false] () false) .send = some _)
  have sentMore := sent.step (rfl : crowd.step? _ .send = some _)
  have first := sentMore.step (rfl : crowd.step? _ (.request 0) = some _)
  have taken := first.step (rfl : crowd.step? _ (.receive 0) = some _)
  have second := taken.step (rfl : crowd.step? _ (.request 1) = some _)
  have failed := second.step (rfl : crowd.step? _ (.receive 1) = some _)
  have stopped := failed.step (rfl : crowd.step? _ .cancel = some _)
  have again := stopped.step (rfl : crowd.step? _ (.request 0) = some _)
  have noticed := again.step (rfl : crowd.step? _ (.stopWorker 0) = some _)
  exact ⟨_, noticed, rfl, rfl⟩

/-- The crowd does not end with the first fault that was raised. -/
theorem crowd_ends_with_later_fault :
    ∃ raises state, History crowd (crowd.start [false, true, false] () false) raises state ∧
      state.isDone = true ∧
      raises.head? = some (.receive 1, .error (.loadFailed "broken partition")) ∧
      state.outcome = .error (.error (.workerStopped 0)) := by
  obtain ⟨state, history, done, outcome⟩ := crowd_history
  exact ⟨_, state, history, done, rfl, outcome⟩

/-- The end of the crowd is that of its first worker. -/
theorem accounts_and_ends_crowd :
    0 < crowd.width ∧ ∃ raises state,
      History crowd (crowd.start [false, true, false] () false) raises state ∧
      Accounts crowd [false, true, false] state ∧
      Decided raises state (.error (.workerStopped 0)) := by
  have positive : 0 < crowd.width := by decide
  obtain ⟨state, history, -, outcome⟩ := crowd_history
  obtain ⟨accounts, -, -, decided, -⟩ := accounts_and_ends positive history
  have failure : state.failure = some (.error (.workerStopped 0)) := by
    rw [State.outcome] at outcome
    split at outcome
    · rename_i failure
      cases outcome
      exact failure
    · cases outcome
  exact ⟨positive, _, state, history, accounts, decided rfl _ failure⟩

end Crowd

end ColumnQuery.Delivery
