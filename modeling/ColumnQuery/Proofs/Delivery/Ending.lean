import ColumnQuery.Proofs.Delivery.Outcome

/-! # Deliveries come to an end

Every order of steps of a delivery comes to an end, also when somebody cancels it, and a run stops
nowhere else. Once a worker has failed, or the delivery is cancelled before every worker has
drained, it cannot end well any more. After a cancellation nobody takes another partition.
-/

namespace ColumnQuery.Delivery

variable {Partition World : Type} {delivery : Delivery Partition World}
  {partitions : List Partition} {world : World} {cancelled : Bool}
  {state next : State Partition World}

section Run

/-- A run stops only at the end: when nobody could take a step for a whole round, somebody who had a
turn in it could. -/
theorem isDone_runFrom (positive : 0 < delivery.width)
    (reachable : Reachable delivery (delivery.start partitions world cancelled) state)
    (turns : List Party) (isIdle : Bool)
    (idle : isIdle = true → ∀ party ∈ delivery.round state,
      party ∈ turns ∨ delivery.advance? state party = none) :
    (delivery.runFrom state turns isIdle).isDone = true := by
  fun_induction runFrom delivery state turns isIdle with
  | case1 state turns isIdle done => exact done
  | case2 state running =>
    obtain ⟨party, isMember, possible⟩ :=
      exists_turn reachable positive (Bool.eq_false_iff.mpr running)
    rcases idle rfl party isMember with turn | stuck
    · cases turn
    · simp [stuck] at possible
  | case3 state isIdle running busy ih => exact ih reachable fun _ party isMember => .inl isMember
  | case4 state isIdle running party rest next advanced nearer ih =>
    obtain ⟨action, -, taken⟩ := step?_of_advance? advanced
    exact ih (.step reachable taken) fun isIdle => absurd isIdle Bool.false_ne_true
  | case5 state isIdle running party rest stuck ih =>
    apply ih reachable
    intro isIdle other isMember
    rcases idle isIdle other isMember with turn | otherStuck
    · rcases List.mem_cons.mp turn with rfl | later
      · exact .inr stuck
      · exact .inl later
    · exact .inr otherStuck

/-- A run with workers comes to an end. -/
theorem isDone_run (positive : 0 < delivery.width) (partitions : List Partition) (world : World)
    (cancelled : Bool) : (delivery.run partitions world cancelled).isDone = true := by
  rw [run, if_neg (Nat.ne_of_gt positive)]
  exact isDone_runFrom positive .start [] false fun isIdle => absurd isIdle Bool.false_ne_true

end Run

section Termination

private theorem cancelled_of_step {action : Action} (step : Step delivery state action next)
    (stopped : state.cancelled = true) : next.cancelled = true := by
  cases step with
  | send _ calm | receive _ _ calm | unload _ _ calm | drain _ calm | cancel calm =>
    simp [stopped] at calm
  | stopProducer | close | request | stopWorker => exact stopped
  | hand | refuse | «break» => exact Bool.or_eq_true_iff.mpr (.inl stopped)

/-- How far an instant is from the end, where a cancellation counts for more than all else. -/
def State.remaining (state : State Partition World) : Nat × Nat × Nat × Nat × Nat × Nat × Nat :=
  ((!state.cancelled).toNat, state.distance)

/-- One instant has less before it than another. -/
def Later (next state : State Partition World) : Prop :=
  WellFoundedRelation.rel next.remaining state.remaining

theorem wellFounded_later : WellFounded (@Later Partition World) :=
  InvImage.wf State.remaining WellFoundedRelation.wf

theorem later_iff :
    Later next state ↔ (!next.cancelled).toNat < (!state.cancelled).toNat ∨
      (!next.cancelled).toNat = (!state.cancelled).toNat ∧
        Nearer next.distance state.distance :=
  Prod.lex_def

theorem later_of_step? {action : Action} (taken : delivery.step? state action = some next) :
    Later next state := by
  have step := step_of_step? taken
  rw [later_iff]
  by_cases inner : action = .cancel
  · subst inner
    cases step with
    | cancel calm => exact .inl (by simp [calm])
  · have nearer := nearer_of_step? inner taken
    cases stopped : state.cancelled with
    | true => exact .inr ⟨by simp [cancelled_of_step step stopped], nearer⟩
    | false =>
      cases next.cancelled with
      | true => exact .inl Nat.one_pos
      | false => exact .inr ⟨rfl, nearer⟩

end Termination

section Doom

/-- Why a delivery cannot end well any more. -/
inductive Doomed (delivery : Delivery Partition World) (state : State Partition World) : Prop where
  | ended {fault : Fault} (failure : state.failure = some fault)
  | failed {worker : Nat} {error : Error} (failed : state.workers[worker]? = some (.failed error))
  /-- The delivery is cancelled, and a worker of the group has yet to ask for a partition. -/
  | stopped {worker : Nat} (cancelled : state.cancelled = true) (bound : worker < delivery.width)
      (undrained : state.workers[worker]? ≠ some .drained)

/-- A worker that has failed keeps its error while others go on. -/
theorem failed_of_step {action : Action} (lined : Lined state.line state.workers)
    (step : Step delivery state action next) {worker : Nat} {error : Error}
    (failed : state.workers[worker]? = some (.failed error)) :
    next.workers[worker]? = some (.failed error) := by
  have elsewhere {other : Nat} {former phase : WorkerPhase}
      (found : state.workers[other]? = some former) (going : former ≠ .failed error) :
      (state.workers.set other phase)[worker]? = some (.failed error) := by
    have differ : other ≠ worker := by
      rintro rfl
      exact going (Option.some.inj (found.symm.trans failed))
    rw [List.getElem?_set_ne differ]
    exact failed
  have waits {other : Nat} (first : state.isFirst other = true) :
      state.workers[other]? = some .waiting :=
    (lined.waits other).mp (line_of_first first ▸ List.mem_cons_self)
  cases step with
  | send | stopProducer | close | cancel | «break» => exact failed
  | request idle => exact elsewhere idle nofun
  | receive _ first | unload _ first | stopWorker first | drain first =>
    exact elsewhere (waits first) nofun
  | hand held | refuse held => exact elsewhere held nofun

theorem doomed_of_step? {action : Action} (lined : Lined state.line state.workers)
    (taken : delivery.step? state action = some next) (doomed : Doomed delivery state) :
    Doomed delivery next := by
  have step := step_of_step? taken
  cases doomed with
  | ended failure => cases (running_of_step? taken).symm.trans failure
  | failed failed => exact .failed (failed_of_step lined step failed)
  | stopped cancelled bound undrained =>
    obtain ⟨still, never⟩ := undrained_of_step step cancelled undrained
    exact .stopped still bound never

/-- A delivery that cannot end well ends with a fault. -/
theorem Doomed.fails (doomed : Doomed delivery state)
    (complete : state.workers.length = delivery.width) (done : state.isDone = true) :
    ∃ fault, state.failure = some fault := by
  cases failure : state.failure with
  | some fault => exact ⟨fault, rfl⟩
  | none =>
    have drained := (drained_of_isDone failure done).2
    cases doomed with
    | ended ended => cases failure.symm.trans ended
    | failed failed => cases drained _ (List.mem_of_getElem? failed)
    | stopped _ bound undrained =>
      rw [← complete] at bound
      have found := List.getElem?_eq_getElem bound
      exact absurd (found.trans (congrArg some (drained _ (List.getElem_mem bound)))) undrained

end Doom

section Cancellation

variable {initial : State Partition World}

/-- After a cancellation no partition moves any more. -/
theorem taken_of_cancelled (stopped : initial.cancelled = true)
    (reachable : Reachable delivery initial state) :
    state.cancelled = true ∧ state.taken = initial.taken ∧ state.queue = initial.queue ∧
      state.unsent = initial.unsent := by
  induction reachable with
  | start => exact ⟨stopped, rfl, rfl, rfl⟩
  | step _ taken before =>
    obtain ⟨still, same⟩ := before
    have step := step_of_step? taken
    refine ⟨cancelled_of_step step still, ?_⟩
    cases step with
    | send _ calm | receive _ _ calm | unload _ _ calm | drain _ calm => simp [still] at calm
    | stopProducer | close | request | stopWorker | hand | refuse | «break» | cancel => exact same

end Cancellation

end ColumnQuery.Delivery
