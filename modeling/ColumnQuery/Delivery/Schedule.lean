import ColumnQuery.Delivery.Basic

/-! # Running a delivery

A delivery is run in rounds of turns. The producer comes first and then each worker; whoever has
the turn takes steps until none is possible. The workers of a small group come by number, and so do
those of a large group in their first round; later they come in the order of the line. Every step
brings the delivery nearer to its end, so it does end, when a failure has occurred or every worker
has drained the closed queue.
-/

namespace ColumnQuery.Delivery

variable {Partition World : Type}

/-- What a worker has before it in its present round. -/
def WorkerPhase.weight : WorkerPhase → Nat
  | holding batches => batches.length + 1
  | waiting | drained | failed _ => 0

/-- What all workers have before them in their present rounds. -/
def weights : List WorkerPhase → Nat
  | [] => 0
  | phase :: rest => phase.weight + weights rest

private theorem weights_set {workers : List WorkerPhase} {worker : Nat} {phase : WorkerPhase}
    (before : workers[worker]? = some phase) (after : WorkerPhase) :
    weights (workers.set worker after) + phase.weight = weights workers + after.weight := by
  induction workers generalizing worker with
  | nil => simp at before
  | cons first rest ih =>
    cases worker with
    | zero =>
      simp only [List.getElem?_cons_zero, Option.some.injEq] at before
      subst before
      simp only [List.set_cons_zero, weights]
      omega
    | succ worker =>
      have rest := ih (by simpa using before)
      simp only [weights, List.set_cons_succ] at rest ⊢
      omega

private theorem weights_set_le {phase : WorkerPhase} (light : phase.weight = 0)
    (workers : List WorkerPhase) (worker : Nat) :
    weights (workers.set worker phase) ≤ weights workers := by
  cases found : workers[worker]? with
  | none =>
    have same := List.set_eq_of_length_le (a := phase) (List.getElem?_eq_none_iff.mp found)
    exact Nat.le_of_eq (congrArg weights same)
  | some before =>
    have := weights_set found phase
    omega

/-- How far an instant is from the end. An earlier part counts for more than all later ones. -/
def State.distance (state : State Partition World) : Nat × Nat × Nat × Nat × Nat × Nat :=
  (state.failure.isNone.toNat,
    state.unsent.length,
    (!state.closed).toNat,
    state.queue.length,
    weights state.workers,
    state.line.length)

/-- One distance is shorter than another. -/
abbrev Nearer : (left right : Nat × Nat × Nat × Nat × Nat × Nat) → Prop := WellFoundedRelation.rel

private theorem nearer_iff {a b c d e f a' b' c' d' e' f' : Nat} :
    Nearer (a, b, c, d, e, f) (a', b', c', d', e', f') ↔
      a < a' ∨ a = a' ∧ (b < b' ∨ b = b' ∧ (c < c' ∨ c = c' ∧ (d < d' ∨ d = d' ∧
        (e < e' ∨ e = e' ∧ f < f')))) := by
  simp only [Nearer, WellFoundedRelation.rel, Prod.lex_def]
  exact Iff.rfl

/-- A failure ends the delivery. -/
theorem nearer_fail {state other : State Partition World} (running : state.failure.isNone = true)
    (fault : Fault) : Nearer (other.fail fault).distance state.distance := by
  simp only [State.distance, nearer_iff, State.fail, running]
  simp

/-- Whether the end of a worker ends the delivery or not, it is nearer to the end if it were
without a failure. -/
theorem nearer_retire {delivery : Delivery Partition World} {state other : State Partition World}
    {worker : Nat} {phase : WorkerPhase} (running : state.failure.isNone = true)
    (unfailing : Nearer { other.setWorker worker phase with failure := none }.distance
      state.distance) : Nearer (delivery.retire other worker phase).distance state.distance := by
  cases failed : delivery.workerError? (other.setWorker worker phase).workers with
  | none => simpa only [retire, failed, Option.map_none] using unfailing
  | some error =>
    simp only [retire, failed, Option.map_some, State.distance, nearer_iff, running]
    simp

private theorem length_tail_lt {state : State Partition World} {worker : Nat}
    (first : state.isFirst worker = true) : state.line.tail.length < state.line.length := by
  unfold State.isFirst at first
  cases line : state.line with
  | nil => simp [line] at first
  | cons => simp

/-- The first in line leaves it with nothing before it. -/
theorem nearer_leave {state : State Partition World} {worker : Nat} {phase : WorkerPhase}
    (running : state.failure.isNone = true) (first : state.isFirst worker = true)
    (light : phase.weight = 0) :
    Nearer ({ { state with line := state.line.tail }.setWorker worker phase with
      failure := none } : State Partition World).distance state.distance := by
  have shorter := length_tail_lt first
  have lighter := weights_set_le light state.workers worker
  simp only [State.distance, nearer_iff, State.setWorker, running, Option.isNone_none,
    true_and, Nat.lt_irrefl, false_or]
  omega

theorem nearer_of_step? {delivery : Delivery Partition World} {state next : State Partition World}
    {action : Action} (inner : action ≠ .cancel)
    (taken : delivery.step? state action = some next) : Nearer next.distance state.distance := by
  unfold step? at taken
  split at taken
  · cases taken
  · rename_i running
    have running : state.failure.isNone = true := by simpa using running
    cases action with
    | cancel => exact absurd rfl inner
    | send =>
      simp only [send?] at taken
      split at taken
      · cases taken
      · rename_i partition unsent sent
        split at taken
        · cases taken
        · cases taken
          simp [State.distance, nearer_iff, sent]
    | stopProducer =>
      simp only at taken
      split at taken
      · cases taken
        exact nearer_fail running _
      · cases taken
    | close =>
      simp only at taken
      split at taken
      · rename_i closing
        cases taken
        simp_all [State.distance, nearer_iff]
      · cases taken
    | request worker =>
      simp only at taken
      split at taken
      · rename_i ready
        cases taken
        have := weights_set ready .waiting
        simp only [WorkerPhase.weight, List.length_nil] at this
        simp [State.distance, nearer_iff, State.setWorker]
        omega
      · cases taken
    | receive worker =>
      simp only [receive?] at taken
      split at taken
      · cases taken
      · rename_i partition queue queued
        split at taken
        · split at taken
          · cases taken
            simp [State.distance, nearer_iff, State.setWorker, queued]
          · cases taken
            apply nearer_retire running
            simp [State.distance, nearer_iff, State.setWorker, queued, running]
        · cases taken
    | stopWorker worker =>
      simp only at taken
      split at taken
      · rename_i stopped
        cases taken
        exact nearer_retire running (nearer_leave running (by simp_all) rfl)
      · cases taken
    | drain worker =>
      simp only at taken
      split at taken
      · rename_i drained
        cases taken
        exact nearer_retire running (nearer_leave running (by simp_all) rfl)
      · cases taken
    | hand worker =>
      simp only [hand?] at taken
      split at taken
      · rename_i batch rest holding
        split at taken
        · cases taken
          have := weights_set holding (.holding rest)
          simp only [WorkerPhase.weight, List.length_cons] at this
          simp [State.distance, nearer_iff, State.setWorker]
          omega
        · rename_i error _
          cases taken
          apply nearer_retire running
          have := weights_set holding (.failed error)
          simp only [WorkerPhase.weight, List.length_cons] at this
          simp [State.distance, nearer_iff, State.setWorker, running]
          omega
        · cases taken
          exact nearer_fail running _
      · cases taken

/-- Who takes steps. -/
inductive Party where
  | producer
  | worker (number : Nat)
  deriving DecidableEq, Repr

def Party.actions : Party → List Action
  | producer => [.send, .stopProducer, .close]
  | worker number =>
    [.hand number, .request number, .stopWorker number, .receive number, .drain number]

/-- The first step that is possible for a party. -/
def advance? (delivery : Delivery Partition World) (state : State Partition World)
    (party : Party) : Option (State Partition World) :=
  party.actions.findSome? (delivery.step? state)

theorem nearer_of_advance? {delivery : Delivery Partition World}
    {state next : State Partition World} {party : Party}
    (advanced : delivery.advance? state party = some next) :
    Nearer next.distance state.distance := by
  obtain ⟨action, isMember, taken⟩ := List.exists_of_findSome?_eq_some advanced
  refine nearer_of_step? ?_ taken
  cases party <;> simp only [Party.actions, List.mem_cons, List.not_mem_nil, or_false] at isMember
  all_goals rintro rfl; simp at isMember

/-- The turns of a round. A large group takes them in the order of the line, once there is one. -/
def round (delivery : Delivery Partition World) (state : State Partition World) : List Party :=
  let workers :=
    if delivery.isSmall || state.line.isEmpty then List.range delivery.width else state.line
  .producer :: workers.map .worker

/-- The turns that are left after a step of a party that has the turn. A worker that comes to its
end gives up its turn, and in a large group it lets those that had their turns have them again. -/
def turnsAfter (delivery : Delivery Partition World) (next : State Partition World)
    (party : Party) (rest : List Party) : List Party :=
  match party with
  | .producer => party :: rest
  | .worker number =>
    match next.workers[number]? with
    | some (.drained) | some (.failed _) =>
      if delivery.isSmall then rest
      else rest ++ (next.line.map Party.worker).filter fun waiting => !rest.contains waiting
    | _ => party :: rest

/-- Run a delivery from an instant, with the turns that are left in the round. `isIdle` says that
no step was taken since the round began; when nobody could take a step for a whole round, nobody
ever will. -/
def runFrom (delivery : Delivery Partition World) (state : State Partition World)
    (turns : List Party) (isIdle : Bool) : State Partition World :=
  if state.isDone then state
  else
    match turns with
    | [] => if isIdle then state else runFrom delivery state (delivery.round state) true
    | party :: rest =>
      match advanced : delivery.advance? state party with
      | some next =>
        have := nearer_of_advance? advanced
        runFrom delivery next (delivery.turnsAfter next party rest) false
      | none => runFrom delivery state rest isIdle
  termination_by (state.distance, (!isIdle).toNat, turns.length)
  decreasing_by
    · simp_all [Prod.lex_def]
    · exact Prod.Lex.left _ _ ‹Nearer next.distance state.distance›
    · simp [Prod.lex_def]

/-- Run a delivery to its end. Without workers there is nothing to do. -/
def run (delivery : Delivery Partition World) (partitions : List Partition) (world : World)
    (cancelled : Bool) : State Partition World :=
  let initial := delivery.start partitions world cancelled
  if delivery.width = 0 then initial else delivery.runFrom initial [] false

/-- What a delivery leaves behind. -/
structure Report (World : Type) where
  outcome : Except Fault Unit
  world : World
  /-- The number of partitions that workers took. -/
  partitions : Nat
  /-- The row counts of the batches that were handed over, in order. -/
  batchRows : List Nat

/-- The report of a delivery that never started. -/
def Report.refused (error : Error) (world : World) : Report World :=
  ⟨.error (.error error), world, 0, []⟩

/-- The report of a delivery that has come to an end. -/
def State.report (state : State Partition World) : Report World :=
  ⟨state.outcome, state.world, state.taken.length,
    state.handed.map fun (_, batch) => batch.rowCount⟩

end ColumnQuery.Delivery
