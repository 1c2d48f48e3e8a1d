import ColumnQuery.Proofs.Pipeline.Phases
import ColumnQuery.Proofs.Plan.Execution
import ColumnQuery.Session.Basic

/-! # Children finish only after the delivery

Whatever the schedule, a scan tells its children to finish only when all batches were delivered and
taken, each child once and in order. A delivery that goes wrong leaves every child as it is: no
aggregation hands on what it has gathered, and the query fails.
-/

namespace ColumnQuery

namespace OpenScan

variable {σ : Type} {scan : OpenScan σ} {cancelled : Bool} {held : σ} {state next : State scan}

/-- Something has gone wrong while the batches were delivered. -/
inductive GoesWrong (scan : OpenScan σ) (state : State scan) : Prop where
  /-- The source cannot be scanned. -/
  | refused {error : Error} (refusal : scan.opening.refusal = some error)
  /-- A worker could not load a partition. -/
  | unloaded {worker : Nat} {partition : scan.opening.Partition} {error : Error}
      (taken : (worker, partition) ∈ state.delivery.taken)
      (unloaded : scan.opening.load partition = .error error)
  /-- A child, or the sink, did not take a batch. -/
  | rejected {call : ChildCall} {fault : Fault} (isCallback : call ∈ state.callbacks)
      (rejected : call.outcome = .error fault)
  /-- The delivery was cancelled before a worker asked for a partition for the last time. -/
  | stopped {worker : Nat} (cancelled : state.delivery.cancelled = true)
      (bound : worker < scan.children.length)
      (undrained : state.delivery.workers[worker]? ≠ some .drained)
  | failed {fault : Fault} (failure : state.delivery.failure = some fault)

section Wrong

private theorem load_of_yields {World Partition : Type} {delivery : Delivery Partition World}
    {taken : List Partition} {handed : List Batch} (yields : delivery.Yields taken handed)
    {partition : Partition} (isMember : partition ∈ taken) :
    ∃ batches, delivery.load partition = .ok batches := by
  induction yields with
  | nil => cases isMember
  | cons loaded _ ih =>
    rcases List.mem_cons.mp isMember with rfl | later
    · exact ⟨_, loaded⟩
    · exact ih later

/-- A delivery that goes wrong does not end well. -/
theorem GoesWrong.undelivered (wrong : GoesWrong scan state) (child : scan.children ≠ [])
    (reachable : scan.Reachable (scan.start cancelled held) state)
    (delivered : Delivered scan state) : False := by
  have reached := delivery_of_reachable reachable
  have conserves := Delivery.conserves_of_reachable reached
  have undoomed (doomed : scan.delivery.Doomed state.delivery) : False := by
    obtain ⟨fault, failure⟩ := doomed.fails conserves.complete delivered.done
    cases delivered.running.symm.trans failure
  cases wrong with
  | refused refusal => cases delivered.opened.symm.trans refusal
  | @unloaded worker partition error taken unloaded =>
    have complete := Delivery.completes_of_isDone reached (List.length_pos_iff.mpr child)
      delivered.running delivered.done
    have own : partition ∈ Delivery.itemsOf worker state.delivery.taken :=
      List.mem_map.mpr ⟨_, List.mem_filter.mpr ⟨taken, beq_self_eq_true worker⟩, rfl⟩
    obtain ⟨batches, loaded⟩ := load_of_yields (complete.handed worker) own
    cases unloaded.symm.trans loaded
  | rejected isCallback rejected =>
    have orderly := orderly_of_reachable child reachable
    exact undoomed (orderly.rejected _ isCallback (by simp [rejected]))
  | stopped cancelled bound undrained => exact undoomed (.stopped cancelled bound undrained)
  | failed failure => exact undoomed (.ended failure)

private theorem mem_callbacks_append {calls : List ChildCall} {call : ChildCall}
    {delivery : Delivery.State scan.opening.Partition (List Chain × σ)} {phase : Phase σ}
    (isMember : call ∈ state.callbacks) :
    call ∈ State.callbacks (⟨delivery, phase, state.calls ++ calls⟩ : State scan) := by
  rw [State.callbacks, List.filter_append]
  exact List.mem_append_left _ isMember

/-- What has gone wrong stays wrong. -/
theorem goesWrong_of_step? {action : Action} (taken : scan.step? state action = some next)
    (wrong : GoesWrong scan state) : GoesWrong scan next := by
  cases step?_eq_some_iff.mp taken with
  | deliver delivering delivered =>
    cases wrong with
    | refused refusal => exact .refused refusal
    | unloaded taken unloaded =>
      exact .unloaded ((logs_of_step? delivered).taken.subset taken) unloaded
    | rejected isCallback rejected => exact .rejected (mem_callbacks_append isCallback) rejected
    | stopped cancelled bound undrained =>
      obtain ⟨still, never⟩ :=
        Delivery.undrained_of_step (Delivery.step_of_step? delivered) cancelled undrained
      exact .stopped still bound never
    | failed failure => cases (Delivery.running_of_step? delivered).symm.trans failure
  | conclude | finish =>
    cases wrong with
    | refused refusal => exact .refused refusal
    | unloaded taken unloaded => exact .unloaded taken unloaded
    | rejected isCallback rejected =>
      first
      | exact .rejected isCallback rejected
      | exact .rejected (mem_callbacks_append isCallback) rejected
    | stopped cancelled bound undrained => exact .stopped cancelled bound undrained
    | failed failure => exact .failed failure

/-- A scan that goes wrong has told no child to finish, and it ends with a fault. -/
structure FlushesNothing (scan : OpenScan σ) (state : State scan) : Prop where
  nobody : state.finishes = []
  /-- No aggregation has handed a batch on. -/
  pointwise : ∀ call ∈ state.calls, ∀ emission ∈ call.emissions,
    emission.stage.isAggregate = false
  stays : ∀ action next, scan.step? state action = some next → GoesWrong scan next
  /-- Where no child is misused, the query fails. -/
  fails : ∀ outcome, state.phase.outcome? = some outcome → ∃ fault, outcome = .error fault ∧
    ((∀ call ∈ state.calls, ∀ misuse, call.outcome ≠ .error (.misuse misuse)) →
      QueryState.after outcome = .failed)

private theorem GoesWrong.flushesNothing (wrong : GoesWrong scan state) (child : scan.children ≠ [])
    (reachable : scan.Reachable (scan.start cancelled held) state) :
    FlushesNothing scan state := by
  have orderly := orderly_of_reachable child reachable
  have undelivered (delivered : Delivered scan state) : False :=
    wrong.undelivered child reachable delivered
  have nobody : state.finishes = [] := by
    cases orderly.stands with
    | delivering _ _ nobody | refused _ _ nobody | failed _ _ nobody => exact nobody
    | finishing _ delivered | stopped _ delivered | finished _ delivered =>
      exact (undelivered delivered).elim
  have calls : state.calls = state.callbacks := by
    rw [orderly.inOrder, nobody, List.append_nil]
  refine ⟨nobody, calls ▸ orderly.pointwise, fun _ _ taken => goesWrong_of_step? taken wrong, ?_⟩
  intro outcome ended
  cases orderly.stands with
  | delivering phase =>
    rw [phase] at ended
    cases ended
  | refused phase =>
    rw [phase] at ended
    cases ended
    exact ⟨_, rfl, fun _ => rfl⟩
  | @failed fault _ _ phase failure =>
    rw [phase] at ended
    cases ended
    refine ⟨fault, rfl, fun unbroken => ?_⟩
    cases fault with
    | error error => rfl
    | misuse misuse =>
      obtain ⟨call, isMember, misused⟩ := orderly.misused misuse failure
      exact absurd misused (unbroken call (calls ▸ isMember) misuse)
  | finishing _ delivered | stopped _ delivered | finished _ delivered =>
    exact (undelivered delivered).elim

end Wrong

/-- All batches were delivered and taken before the first child was told to finish. -/
structure FinishesLast (scan : OpenScan σ) (state : State scan) : Prop where
  inOrder : state.calls = state.callbacks ++ state.finishes
  accepted : ∀ call ∈ state.callbacks, call.outcome = .ok ()
  complete : state.delivery.taken.map (·.2) = scan.opening.partitions
  /-- Each child was handed all batches of the partitions that its worker took. -/
  routed : ∀ child, scan.delivery.Yields (Delivery.itemsOf child state.delivery.taken)
    (Delivery.itemsOf child state.given)

private theorem Orderly.finishesLast (orderly : Orderly scan state) (child : scan.children ≠ [])
    (reachable : scan.Reachable (scan.start cancelled held) state)
    (somebody : state.finishes ≠ []) : FinishesLast scan state := by
  have delivered : Delivered scan state := by
    cases orderly.stands with
    | delivering _ _ nobody | refused _ _ nobody | failed _ _ nobody =>
      exact absurd nobody somebody
    | finishing _ delivered | stopped _ delivered | finished _ delivered => exact delivered
  have complete := Delivery.completes_of_isDone (delivery_of_reachable reachable)
    (List.length_pos_iff.mpr child) delivered.running delivered.done
  have routed := complete.handed
  rw [← given_of_reachable reachable] at routed
  refine ⟨orderly.inOrder, fun call isMember => ?_, complete.inOrder, routed⟩
  cases outcome : call.outcome with
  | ok => rfl
  | error fault =>
    have wrong : GoesWrong scan state := .rejected isMember outcome
    exact (wrong.undelivered child reachable delivered).elim

/-- After a cancellation no partition is taken any more, and each child is handed only batches of
partitions that its worker had taken. -/
theorem handsOver_of_cancelled {later : State scan}
    (reachable : scan.Reachable (scan.start cancelled held) state)
    (stopped : state.delivery.cancelled = true) (after : scan.Reachable state later) :
    later.delivery.taken = state.delivery.taken ∧
      ∀ child, scan.delivery.HandsOver (Delivery.itemsOf child state.delivery.taken)
        (Delivery.itemsOf child later.delivery.handed) := by
  obtain ⟨-, taken, -⟩ := Delivery.taken_of_cancelled stopped (delivery_of_reachable after)
  have accounts := Delivery.accounts_of_reachable (delivery_of_reachable (reachable.trans after))
  exact ⟨taken, taken ▸ accounts.handed⟩

end OpenScan

open OpenScan in
/-- Under every schedule a query with children comes to an end. Where its delivery goes wrong, no
child is told to finish, no aggregation hands on a batch, and the query fails. A cancellation lets
no worker take another partition. The children are told to finish after all batches were delivered
and taken, each at most once, and all of them where the query succeeds. -/
theorem Query.finishes_after_delivery {σ : Type} {query : Query} (planned : query.state = .planned)
    (child : query.scan.children ≠ []) (session : Session) (orders : Nat → DrainOrder)
    (sink : Sink σ) (source : Source) (seconds : Binary64) (held : σ) :
    let scan := query.scan.opened sink source session.config.batchSize
    let run := query.execute session orders sink source seconds held
    (∃ state, scan.Reachable (scan.start query.cancelled held) state ∧
      state.phase = .ended run.outcome run.query.scan.children run.held) ∧
    run.query.state = .after run.outcome ∧
    (WellFounded fun next state : State scan => ∃ action, scan.step? state action = some next) ∧
    ∀ state, scan.Reachable (scan.start query.cancelled held) state →
      (state.phase.outcome? = none → ∃ action next, scan.step? state action = some next) ∧
      (GoesWrong scan state → FlushesNothing scan state) ∧
      (state.delivery.cancelled = true → ∀ later, scan.Reachable state later →
        later.delivery.taken = state.delivery.taken ∧
        ∀ child, scan.delivery.HandsOver (Delivery.itemsOf child state.delivery.taken)
          (Delivery.itemsOf child later.delivery.handed)) ∧
      (state.finishes ≠ [] → FinishesLast scan state) ∧
      (state.finishes.map (·.child)).Nodup ∧
      (state.phase.outcome? = some (.ok ()) →
        state.finishes.map (·.child) = List.range query.scan.children.length) := by
  intro scan run
  obtain ⟨state, reachable, ended, -⟩ := query.scan.exists_schedule orders sink source
    session.config.batchSize query.cancelled held
  refine ⟨⟨state, reachable, ?_⟩, ?_, wellFounded_step?, ?_⟩
  · simp only [run, execute, planned, if_true]
    exact ended
  · simp only [run, execute, planned, if_true]
  intro state reachable
  have orderly := orderly_of_reachable child reachable
  refine ⟨?_, ?_, ?_, ?_, ?_, ?_⟩
  · exact exists_step child reachable
  · exact fun wrong => wrong.flushesNothing child reachable
  · exact fun stopped _ later => handsOver_of_cancelled reachable stopped later
  · exact orderly.finishesLast child reachable
  · rw [orderly.numbered]
    exact List.nodup_range
  · intro success
    rw [orderly.numbered]
    cases orderly.stands with
    | finished _ _ all => exact congrArg List.range all
    | delivering phase | refused phase | failed phase | finishing phase | stopped phase =>
      rw [phase] at success
      cases success

section Orders

def orderCount : Aggregation where
  groups := []
  aggregates := [⟨.count, .column 1 .int64, .int64⟩]
  schema := ⟨[⟨"count", .int64, true⟩]⟩

/-- The orders, counted by one child and shown by the other. -/
def countAndShow : Query where
  id := ⟨1⟩
  scan :=
    { path := "orders"
      projection := none
      schema := ordersSchema
      children :=
        [⟨[.aggregate orderCount (.empty .hash)], orderCount.schema⟩, ⟨[], ordersSchema⟩] }
  state := .planned
  cancelled := false

/-- The sink refuses the first batch that is shown. The orders that were counted by then stay where
they are. -/
theorem finishes_after_delivery_refused :
    countAndShow.state = .planned ∧ countAndShow.scan.children ≠ [] ∧
      let scan := countAndShow.scan.opened fullSink (.memory ordersTable) 8
      ∃ state, scan.Reachable (scan.start false ()) state ∧
        state.delivery.handed = [(0, firstOrders), (1, laterOrders)] ∧
        (∃ reason, state.phase.outcome? = some (.error (.error (.refused reason)))) ∧
        scan.FlushesNothing state := by
  have planned : countAndShow.state = .planned := rfl
  have child : countAndShow.scan.children ≠ [] := by decide
  refine ⟨planned, child, ?_⟩
  intro scan
  have sent := OpenScan.Reachable.start.step
    (rfl : scan.step? (scan.start false ()) (.deliver .send) = some _)
  have sentMore := sent.step (rfl : scan.step? _ (.deliver .send) = some _)
  have first := sentMore.step (rfl : scan.step? _ (.deliver (.request 0)) = some _)
  have taken := first.step (rfl : scan.step? _ (.deliver (.receive 0)) = some _)
  have counted := taken.step (rfl : scan.step? _ (.deliver (.hand 0)) = some _)
  have second := counted.step (rfl : scan.step? _ (.deliver (.request 1)) = some _)
  have takenMore := second.step (rfl : scan.step? _ (.deliver (.receive 1)) = some _)
  have refused := takenMore.step (rfl : scan.step? _ (.deliver (.hand 1)) = some _)
  have ended := refused.step (rfl : scan.step? _ .conclude = some _)
  obtain ⟨-, -, -, runs⟩ := Query.finishes_after_delivery planned child (.start .standard)
    (fun _ => .opening) fullSink (.memory ordersTable) .zero ()
  obtain ⟨-, flushes, -⟩ := runs _ ended
  exact ⟨_, ended, rfl, ⟨_, rfl⟩, flushes (.failed rfl)⟩

end Orders

end ColumnQuery
