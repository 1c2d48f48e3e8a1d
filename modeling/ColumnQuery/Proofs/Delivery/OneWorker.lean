import ColumnQuery.Proofs.Delivery.Ending

/-! # Deliveries to one worker

With one worker and without cancellation the order of steps does not matter: the batches of the
partitions are handed over one after the other, up to the first failure. At every instant what is
still to be handed over leads from the present to the same end.
-/

namespace ColumnQuery

variable {World : Type}

/-- Hand some batches to the first worker, up to the first failure. -/
def Consumers.feed (consumers : Consumers World) : List Batch → World → Except Fault Unit × World
  | [], world => (.ok (), world)
  | batch :: rest, world =>
    match consumers.handOver 0 batch world with
    | (.ok (), world) => consumers.feed rest world
    | (.error fault, world) => (.error fault, world)

private theorem Consumers.feed_append (consumers : Consumers World) (front back : List Batch)
    (world : World) :
    consumers.feed (front ++ back) world =
      match consumers.feed front world with
      | (.ok (), world) => consumers.feed back world
      | (.error fault, world) => (.error fault, world) := by
  induction front generalizing world with
  | nil => rfl
  | cons batch rest ih =>
    simp only [List.cons_append, feed]
    split
    · exact ih _
    · rfl

namespace Delivery

variable {Partition : Type}

/-- Hand over some batches and then those of some partitions, up to the first failure. -/
def feedOn (delivery : Delivery Partition World) (batches : List Batch) :
    List Partition → World → Except Fault Unit × World
  | [], world => delivery.feed batches world
  | partition :: rest, world =>
    match delivery.feed batches world with
    | (.ok (), world) =>
      match delivery.load partition with
      | .ok batches => delivery.feedOn batches rest world
      | .error error => (.error (.error error), world)
    | (.error fault, world) => (.error fault, world)

private theorem feedOn_cons (delivery : Delivery Partition World) (batch : Batch)
    (rest : List Batch) (partitions : List Partition) (world : World) :
    delivery.feedOn (batch :: rest) partitions world =
      match delivery.handOver 0 batch world with
      | (.ok (), world) => delivery.feedOn rest partitions world
      | (.error fault, world) => (.error fault, world) := by
  rcases handed : delivery.handOver 0 batch world with ⟨fault | _, world⟩ <;>
    cases partitions <;> simp only [feedOn, Consumers.feed, handed]

/-- When all partitions can be loaded, their batches are handed over in order. -/
theorem feedOn_eq_feed {delivery : Delivery Partition World} {partitions : List Partition}
    {loaded : List (List Batch)} (loads : partitions.map delivery.load = loaded.map .ok)
    (batches : List Batch) (world : World) :
    delivery.feedOn batches partitions world = delivery.feed (batches ++ loaded.flatten) world := by
  induction partitions generalizing loaded batches world with
  | nil =>
    cases loaded with
    | nil => simp only [feedOn, List.flatten_nil, List.append_nil]
    | cons => cases loads
  | cons partition rest ih =>
    cases loaded with
    | nil => cases loads
    | cons first others =>
      obtain ⟨head, tail⟩ := List.cons.inj loads
      rw [List.flatten_cons, Consumers.feed_append]
      simp only [feedOn, head, ih tail]

/-- What is still to be handed over, given what the worker is doing, leads to a goal: how the
delivery ends and what it leaves. -/
def Leads (delivery : Delivery Partition World) (goal : Except Fault Unit × World)
    (state : State Partition World) : WorkerPhase → Prop
  | .holding batches =>
    state.line = [] ∧ delivery.feedOn batches (state.queue ++ state.unsent) state.world = goal
  | .waiting =>
    state.line = [0] ∧ delivery.feedOn [] (state.queue ++ state.unsent) state.world = goal
  | .drained => state.line = [] ∧ state.closed = true ∧ goal = (.ok (), state.world)
  | .failed _ => False

/-- A delivery to one worker that nobody has cancelled is on its way to a goal, or has failed and
is there. -/
inductive LeadsTo (delivery : Delivery Partition World) (goal : Except Fault Unit × World)
    (state : State Partition World) : Prop where
  | failed {fault : Fault} (failure : state.failure = some fault)
      (reached : goal = (.error fault, state.world)) : LeadsTo delivery goal state
  | going (phase : WorkerPhase) (running : state.failure = none)
      (workers : state.workers = [phase]) (calm : state.cancelled = false)
      (sent : state.closed = true → state.unsent = []) (leads : delivery.Leads goal state phase) :
      LeadsTo delivery goal state

variable {delivery : Delivery Partition World} {goal : Except Fault Unit × World}

private theorem leadsTo_start (one : delivery.width = 1) (partitions : List Partition)
    (world : World) :
    delivery.LeadsTo (delivery.feedOn [] partitions world)
      (delivery.start partitions world false) := by
  refine .going (.holding []) rfl ?_ rfl nofun ⟨rfl, rfl⟩
  rw [start, one]
  rfl

section Step

variable {state : State Partition World}

private theorem phase_of_worker {phase other : WorkerPhase} {worker : Nat}
    (workers : state.workers = [phase]) (found : state.workers[worker]? = some other) :
    worker = 0 ∧ phase = other := by
  rw [workers] at found
  cases worker with
  | zero => exact ⟨rfl, by simpa using found⟩
  | succ worker => simp at found

private theorem waiting_of_first {phase : WorkerPhase} {worker : Nat}
    (leads : delivery.Leads goal state phase) (first : state.isFirst worker = true) :
    worker = 0 ∧ phase = .waiting ∧ state.line = [0] := by
  simp only [State.isFirst, beq_iff_eq] at first
  cases phase with
  | waiting =>
    obtain ⟨line, -⟩ := leads
    rw [line] at first
    exact ⟨(Option.some.inj first).symm, rfl, line⟩
  | holding batches | drained => simp [leads.1] at first
  | failed error => exact leads.elim

/-- A worker that fails takes the whole delivery with it. -/
theorem leadsTo_failed (one : delivery.width = 1) {phase : WorkerPhase} {error : Error}
    (workers : state.workers = [phase]) (reached : (.error (.error error), state.world) = goal) :
    delivery.LeadsTo goal (delivery.retire state 0 (.failed error)) := by
  have failure : (delivery.retire state 0 (.failed error)).failure = some (.error error) := by
    simp only [retire, State.setWorker, workers, List.set_cons_zero, workerError?, isSmall, one,
      smallGroup]
    rfl
  exact .failed failure reached.symm

end Step

private theorem leadsTo_of_step? (one : delivery.width = 1)
    (unstopped : ∀ world, delivery.stops world = false) {state next : State Partition World}
    {action : Action} (inner : action ≠ .cancel)
    (taken : delivery.step? state action = some next)
    (leadsTo : delivery.LeadsTo goal state) : delivery.LeadsTo goal next := by
  have running := running_of_step? taken
  cases leadsTo with
  | failed failure => simp [running] at failure
  | going phase _ workers calm sent leads =>
  cases step_of_step? taken with
  | @send partition unsent sentNext =>
    have same : state.queue ++ [partition] ++ unsent = state.queue ++ state.unsent := by
      rw [sentNext, List.append_assoc]
      rfl
    refine .going phase running workers calm (fun closed => ?_) ?_
    · simp [sent closed] at sentNext
    · cases phase with
      | holding batches | waiting => exact ⟨leads.1, by rw [same]; exact leads.2⟩
      | drained => exact leads
      | failed error => exact leads
  | cancel => exact absurd rfl inner
  | stopProducer cancelled => simp [calm] at cancelled
  | close allSent =>
    refine .going phase running workers calm (fun _ => allSent) ?_
    cases phase with
    | holding batches | waiting => exact leads
    | drained => exact ⟨leads.1, rfl, leads.2.2⟩
    | failed error => exact leads
  | @request worker idle =>
    obtain ⟨rfl, rfl⟩ := phase_of_worker workers idle
    refine .going .waiting running ?_ calm sent ⟨?_, leads.2⟩
    · simp only [State.setWorker, workers, List.set_cons_zero]
    · simp only [leads.1, List.nil_append]
  | @receive worker partition queue batches queued first _ loaded =>
    obtain ⟨rfl, rfl, line⟩ := waiting_of_first leads first
    refine .going (.holding batches) running ?_ calm sent ⟨?_, ?_⟩
    · simp only [State.setWorker, workers, List.set_cons_zero]
    · simp only [State.setWorker, line, List.tail_cons]
    · have leadsOn := leads.2
      simp only [queued, List.cons_append, feedOn, Consumers.feed, loaded] at leadsOn
      exact leadsOn
  | @unload worker partition queue error queued first _ unloaded =>
    obtain ⟨rfl, rfl, line⟩ := waiting_of_first leads first
    have reached := leads.2
    simp only [queued, List.cons_append, feedOn, Consumers.feed, unloaded] at reached
    exact leadsTo_failed one workers reached
  | stopWorker first cancelled => simp [calm] at cancelled
  | @drain worker first _ empty closed =>
    obtain ⟨rfl, rfl, line⟩ := waiting_of_first leads first
    have reached := leads.2
    simp only [empty, sent closed, List.append_nil, feedOn, Consumers.feed] at reached
    refine .going .drained ?_ ?_ calm sent ⟨?_, closed, reached.symm⟩
    · simp only [retire, State.setWorker, workers, List.set_cons_zero, workerError?, isSmall, one,
        smallGroup]
      rfl
    · simp only [retire, State.setWorker, workers, List.set_cons_zero]
    · simp only [retire, State.setWorker, line, List.tail_cons]
  | @hand worker batch rest world held accepted =>
    obtain ⟨rfl, rfl⟩ := phase_of_worker workers held
    obtain ⟨line, leads⟩ := leads
    rw [feedOn_cons, accepted] at leads
    refine .going (.holding rest) running ?_ ?_ sent ⟨line, leads⟩
    · simp only [State.setWorker, workers, List.set_cons_zero]
    · simp only [State.setWorker, calm, unstopped, Bool.or_self]
  | @refuse worker batch rest world error held refused =>
    obtain ⟨rfl, rfl⟩ := phase_of_worker workers held
    obtain ⟨line, leads⟩ := leads
    rw [feedOn_cons, refused] at leads
    exact leadsTo_failed one workers leads
  | @«break» worker batch rest world misuse held broken =>
    obtain ⟨rfl, rfl⟩ := phase_of_worker workers held
    obtain ⟨line, leads⟩ := leads
    rw [feedOn_cons, broken] at leads
    exact .failed rfl leads.symm

/-- A run with one worker that nobody cancels hands over the batches of the partitions in order, up
to the first failure. -/
theorem run_of_one (one : delivery.width = 1) (unstopped : ∀ world, delivery.stops world = false)
    (partitions : List Partition) (world : World) :
    ((delivery.run partitions world false).outcome, (delivery.run partitions world false).world) =
      delivery.feedOn [] partitions world := by
  have ended : delivery.run partitions world false =
      delivery.runFrom (delivery.start partitions world false) [] false := by
    simp only [run, one, Nat.one_ne_zero, if_false]
  have started := leadsTo_start one partitions world
  have leadsTo := runFrom_keeps (leadsTo_of_step? one unstopped) [] false started
  have positive : 0 < delivery.width := one ▸ Nat.one_pos
  have done := isDone_run positive partitions world false
  rw [ended] at done ⊢
  cases leadsTo with
  | failed failure reached => simp only [State.outcome, failure, reached]
  | going phase running workers calm sent leads =>
    cases phase with
    | drained => simp only [State.outcome, running, leads.2.2]
    | holding batches | waiting => simp [State.isDone, running, workers] at done
    | failed error => exact leads.elim

end Delivery

end ColumnQuery
