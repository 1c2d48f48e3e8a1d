import ColumnQuery.Proofs.Pipeline.Schedules
import ColumnQuery.Proofs.Traversal

/-! # The two phases of a scan

At every instant of a scan the calls of its children agree with what its delivery has done. As long
as batches are delivered no child is told to finish; then the children are told so one by one, in
order.
-/

namespace ColumnQuery

/-- Whether a stage keeps what it receives until its input ends. -/
def Stage.isAggregate : Stage → Bool
  | project _ _ | filter _ _ => false
  | aggregate _ _ => true

/-- What stages hand on before they are closed does not come from an aggregation. -/
theorem isAggregate_of_mem_pushEmissions {stages : List Stage} {batch : Batch} :
    ∀ emission ∈ pushEmissions stages batch, emission.stage.isAggregate = false := by
  induction stages generalizing batch with
  | nil => exact List.forall_mem_nil _
  | cons stage rest ih =>
    rw [pushEmissions]
    split
    · rename_i next handedOn
      refine List.forall_mem_cons.mpr ⟨?_, ih⟩
      cases stage with
      | project | filter => rfl
      | aggregate aggregation table =>
        obtain ⟨_, -, kept⟩ := map_eq_ok_iff.mp handedOn
        cases kept
    · exact List.forall_mem_nil _
    · exact List.forall_mem_nil _

private theorem length_handOver {σ : Type} (sink : Sink σ) (width worker : Nat) (batch : Batch)
    (world : List Chain × σ) :
    ((Consumers.ofChains sink width).handOver worker batch world).2.1.length = world.1.length := by
  simp only [Consumers.ofChains]
  split
  · rfl
  · exact List.length_set

namespace OpenScan

variable {σ : Type} {scan : OpenScan σ}

section Delivery

open ColumnQuery.Delivery

variable {state next : Delivery.State scan.opening.Partition (List Chain × σ)}
  {action : Delivery.Action}

/-- What the calls that a step of the delivery makes say about the delivery. -/
structure Logs (scan : OpenScan σ)
    (state next : Delivery.State scan.opening.Partition (List Chain × σ))
    (calls : List ChildCall) : Prop where
  handed : next.handed = state.handed ++ calls.filterMap ChildCall.handed?
  unfinished : ∀ call ∈ calls, call.isFinish = false
  pointwise : ∀ call ∈ calls, ∀ emission ∈ call.emissions, emission.stage.isAggregate = false
  rejected : ∀ call ∈ calls, call.outcome ≠ .ok () → scan.delivery.Doomed next
  misused : ∀ misuse, next.failure = some (.misuse misuse) →
    ∃ call ∈ calls, call.outcome = .error (.misuse misuse)
  width : next.world.1.length = state.world.1.length
  taken : state.taken <+: next.taken

/-- A step that hands nothing over makes no call. -/
theorem Logs.silent (handed : next.handed = state.handed)
    (misused : ∀ misuse, next.failure ≠ some (.misuse misuse)) (world : next.world = state.world)
    (taken : state.taken <+: next.taken) : Logs scan state next [] where
  handed := by simp [handed]
  unfinished := List.forall_mem_nil _
  pointwise := List.forall_mem_nil _
  rejected := List.forall_mem_nil _
  misused misuse failure := absurd failure (misused misuse)
  width := by rw [world]
  taken := taken

/-- A worker that comes to its end misuses nothing. -/
theorem retire_ne_misuse (worker : Nat) (phase : WorkerPhase) (misuse : Misuse) :
    (scan.delivery.retire state worker phase).failure ≠ some (.misuse misuse) := by
  rw [retire]
  intro failure
  obtain ⟨_, -, differs⟩ := Option.map_eq_some_iff.mp failure
  cases differs

/-- A worker that hands a batch over calls its child. -/
theorem Logs.ofHand {worker : Nat} {batch : Batch} {rest : List Batch}
    {outcome : Except Fault Unit} {world : List Chain × σ}
    (held : state.workers[worker]? = some (.holding (batch :: rest)))
    (answered : scan.delivery.handOver worker batch state.world = (outcome, world))
    (handed : next.handed = state.handed ++ [(worker, batch)]) (kept : next.world = world)
    (taken : next.taken = state.taken) (rejected : outcome ≠ .ok () → scan.delivery.Doomed next)
    (misused : ∀ misuse, next.failure = some (.misuse misuse) →
      outcome = .error (.misuse misuse)) :
    Logs scan state next (scan.callbacks state (.hand worker)) := by
  simp only [callbacks, held, answered]
  constructor
  · exact handed
  · exact List.forall_mem_singleton.mpr rfl
  · refine List.forall_mem_singleton.mpr ?_
    cases state.world.1[worker]? with
    | none => exact List.forall_mem_nil _
    | some chain => exact isAggregate_of_mem_pushEmissions
  · exact List.forall_mem_singleton.mpr rejected
  · exact fun misuse failure => ⟨_, List.mem_singleton_self _, misused misuse failure⟩
  · rw [kept, ← length_handOver scan.sink scan.children.length worker batch state.world]
    exact congrArg (fun answer => answer.2.1.length) answered.symm
  · exact taken ▸ List.prefix_refl _

theorem logs_of_step? (taken : scan.delivery.step? state action = some next) :
    Logs scan state next (scan.callbacks state action) := by
  have running := running_of_step? taken
  have goesOn (misuse : Misuse) : state.failure ≠ some (.misuse misuse) := by simp [running]
  have silent (worker : Nat) (phase : WorkerPhase)
      (before : Delivery.State scan.opening.Partition (List Chain × σ))
      (handed : before.handed = state.handed) (world : before.world = state.world)
      (taken : state.taken <+: before.taken) :
      Logs scan state (scan.delivery.retire before worker phase) [] :=
    .silent handed (retire_ne_misuse worker phase) world taken
  cases step_of_step? taken with
  | send | close | cancel | request => exact .silent rfl goesOn rfl (List.prefix_refl _)
  | stopProducer => exact .silent rfl nofun rfl (List.prefix_refl _)
  | receive => exact .silent rfl goesOn rfl (List.prefix_append _ _)
  | unload => exact silent _ _ _ rfl rfl (List.prefix_append _ _)
  | stopWorker | drain => exact silent _ _ _ rfl rfl (List.prefix_refl _)
  | hand held accepted =>
    exact .ofHand held accepted rfl rfl rfl (fun refused => absurd rfl refused)
      fun misuse failure => absurd failure (goesOn misuse)
  | @refuse worker batch rest world error held refused =>
    have bound := (List.getElem?_eq_some_iff.mp held).1
    exact .ofHand held refused rfl rfl rfl (fun _ => .failed (List.getElem?_set_self bound))
      fun misuse failure => absurd failure (retire_ne_misuse worker _ misuse)
  | «break» held broken =>
    refine .ofHand held broken rfl rfl rfl (fun _ => .ended rfl) fun misuse failure => ?_
    obtain rfl := Fault.misuse.inj (Option.some.inj failure)
    rfl

end Delivery

/-- The children are handed what the delivery hands over. -/
theorem given_of_reachable {cancelled : Bool} {held : σ} {state : State scan}
    (reachable : scan.Reachable (scan.start cancelled held) state) :
    state.given = state.delivery.handed := by
  induction reachable with
  | start => rfl
  | step _ taken before =>
    cases step?_eq_some_iff.mp taken with
    | deliver _ delivered =>
      rw [State.given, List.filterMap_append, (logs_of_step? delivered).handed, ← before]
      rfl
    | conclude => exact before
    | @finish _ finished waiting kept =>
      rw [State.given, List.filterMap_append, ← before]
      cases waiting <;> exact List.append_nil _

/-- The calls that hand a batch to a child. -/
def State.callbacks (state : State scan) : List ChildCall := state.calls.filter (!·.isFinish)

/-- The calls that tell a child to finish. -/
def State.finishes (state : State scan) : List ChildCall := state.calls.filter (·.isFinish)

/-- The source was opened, and the delivery has ended well. -/
structure Delivered (scan : OpenScan σ) (state : State scan) : Prop where
  opened : scan.opening.refusal = none
  done : state.delivery.isDone = true
  running : state.delivery.failure = none

/-- Where a scan stands: which children were told to finish, and why no more. -/
inductive Stands (scan : OpenScan σ) (state : State scan) : Prop where
  | delivering (phase : state.phase = .delivering) (opened : scan.opening.refusal = none)
      (nobody : state.finishes = [])
  | refused {error : Error} {children : List Chain} {held : σ}
      (phase : state.phase = .ended (.error (.error error)) children held)
      (refusal : scan.opening.refusal = some error) (nobody : state.finishes = [])
  | failed {fault : Fault} {children : List Chain} {held : σ}
      (phase : state.phase = .ended (.error fault) children held)
      (failure : state.delivery.failure = some fault) (nobody : state.finishes = [])
  | finishing {finished waiting : List Chain} {held : σ}
      (phase : state.phase = .finishing finished waiting held) (delivered : Delivered scan state)
      (count : state.finishes.length = finished.length)
      (all : finished.length + waiting.length = scan.children.length)
  | stopped {fault : Fault} {children : List Chain} {held : σ}
      (phase : state.phase = .ended (.error fault) children held)
      (delivered : Delivered scan state)
  | finished {children : List Chain} {held : σ}
      (phase : state.phase = .ended (.ok ()) children held) (delivered : Delivered scan state)
      (all : state.finishes.length = scan.children.length)

/-- The calls of a scan agree with its delivery and its phase. -/
structure Orderly (scan : OpenScan σ) (state : State scan) : Prop where
  inOrder : state.calls = state.callbacks ++ state.finishes
  pointwise : ∀ call ∈ state.callbacks, ∀ emission ∈ call.emissions,
    emission.stage.isAggregate = false
  rejected : ∀ call ∈ state.callbacks, call.outcome ≠ .ok () → scan.delivery.Doomed state.delivery
  misused : ∀ misuse, state.delivery.failure = some (.misuse misuse) →
    ∃ call ∈ state.callbacks, call.outcome = .error (.misuse misuse)
  numbered : state.finishes.map (·.child) = List.range state.finishes.length
  width : state.delivery.world.1.length = scan.children.length
  stands : Stands scan state

variable {cancelled : Bool} {held : σ} {state next : State scan}

/-- A scan is orderly if the calls that it has made are. -/
theorem Orderly.ofCalls {callbacks finishes : List ChildCall}
    (isCallbacks : state.callbacks = callbacks) (isFinishes : state.finishes = finishes)
    (inOrder : state.calls = callbacks ++ finishes)
    (pointwise : ∀ call ∈ callbacks, ∀ emission ∈ call.emissions,
      emission.stage.isAggregate = false)
    (rejected : ∀ call ∈ callbacks, call.outcome ≠ .ok () → scan.delivery.Doomed state.delivery)
    (misused : ∀ misuse, state.delivery.failure = some (.misuse misuse) →
      ∃ call ∈ callbacks, call.outcome = .error (.misuse misuse))
    (numbered : finishes.map (·.child) = List.range finishes.length)
    (width : state.delivery.world.1.length = scan.children.length)
    (stands : Stands scan state) : Orderly scan state := by
  subst isCallbacks isFinishes
  exact ⟨inOrder, pointwise, rejected, misused, numbered, width, stands⟩

private theorem orderly_start (child : scan.children ≠ []) (cancelled : Bool) (held : σ) :
    Orderly scan (scan.start cancelled held) where
  inOrder := rfl
  pointwise := List.forall_mem_nil _
  rejected := List.forall_mem_nil _
  misused := nofun
  numbered := rfl
  width := rfl
  stands := by
    cases refusal : scan.opening.refusal with
    | some error => exact .refused (by rw [start, refusal]) refusal rfl
    | none => exact .delivering (by simp [start, refusal, child]) refusal rfl

section Step

variable {action : Action}

/-- Where a scan delivers, no child was told to finish. -/
theorem Stands.ofDelivering (stands : Stands scan state) (delivering : state.phase = .delivering) :
    scan.opening.refusal = none ∧ state.finishes = [] := by
  cases stands with
  | delivering _ opened nobody => exact ⟨opened, nobody⟩
  | refused phase | failed phase | finishing phase | stopped phase | finished phase =>
    cases delivering.symm.trans phase

/-- Where children finish, all batches were delivered. -/
theorem Stands.ofFinishing {finished waiting : List Chain} {kept : σ} (stands : Stands scan state)
    (finishing : state.phase = .finishing finished waiting kept) :
    Delivered scan state ∧ state.finishes.length = finished.length ∧
      finished.length + waiting.length = scan.children.length := by
  cases stands with
  | finishing phase delivered count all =>
    cases finishing.symm.trans phase
    exact ⟨delivered, count, all⟩
  | delivering phase | refused phase | failed phase | stopped phase | finished phase =>
    cases finishing.symm.trans phase

/-- The delivery goes on. -/
theorem Orderly.deliver {delivery : Delivery.State scan.opening.Partition (List Chain × σ)}
    {calls : List ChildCall} (orderly : Orderly scan state) (delivering : state.phase = .delivering)
    (logs : Logs scan state.delivery delivery calls)
    (doomed : scan.delivery.Doomed state.delivery → scan.delivery.Doomed delivery) :
    Orderly scan { state with delivery, calls := state.calls ++ calls } := by
  obtain ⟨opened, nobody⟩ := orderly.stands.ofDelivering delivering
  let next : State scan := { state with delivery, calls := state.calls ++ calls }
  have finishes : next.finishes = [] := by
    have none : calls.filter (·.isFinish) = [] := List.filter_eq_nil_iff.mpr fun call isMember => by
      simp [logs.unfinished call isMember]
    rw [State.finishes, List.filter_append, none, List.append_nil]
    exact nobody
  have callbacks : next.callbacks = state.callbacks ++ calls := by
    have all : calls.filter (!·.isFinish) = calls := List.filter_eq_self.mpr fun call isMember => by
      simp [logs.unfinished call isMember]
    rw [State.callbacks, List.filter_append, all]
    rfl
  refine .ofCalls callbacks finishes ?_ (List.forall_mem_append.mpr
    ⟨orderly.pointwise, logs.pointwise⟩) ?_ ?_ rfl (logs.width.trans orderly.width)
    (.delivering delivering opened finishes)
  · rw [List.append_nil, orderly.inOrder, nobody, List.append_nil]
  · exact List.forall_mem_append.mpr
      ⟨fun call isMember refused => doomed (orderly.rejected call isMember refused), logs.rejected⟩
  · intro misuse failure
    obtain ⟨call, isMember, misused⟩ := logs.misused misuse failure
    exact ⟨call, List.mem_append_right _ isMember, misused⟩

/-- A step that makes no call and leaves the delivery as it is. -/
theorem Orderly.turn {phase : Phase σ} (orderly : Orderly scan state)
    (stands : Stands scan { state with phase }) : Orderly scan { state with phase } :=
  ⟨orderly.inOrder, orderly.pointwise, orderly.rejected, orderly.misused, orderly.numbered,
    orderly.width, stands⟩

private theorem finishes_snoc {phase : Phase σ} {call : ChildCall}
    (isFinish : call.isFinish = true) :
    State.finishes ({ state with phase, calls := state.calls ++ [call] } : State scan) =
      state.finishes ++ [call] := by
  rw [State.finishes, List.filter_append, List.filter_singleton, isFinish]
  rfl

/-- The next child is told to finish. -/
theorem Orderly.finish {phase : Phase σ} {call : ChildCall} (orderly : Orderly scan state)
    (isFinish : call.isFinish = true) (child : call.child = state.finishes.length)
    (stands : Stands scan { state with phase, calls := state.calls ++ [call] }) :
    Orderly scan { state with phase, calls := state.calls ++ [call] } := by
  let next : State scan := { state with phase, calls := state.calls ++ [call] }
  have finishes : next.finishes = state.finishes ++ [call] := finishes_snoc isFinish
  have callbacks : next.callbacks = state.callbacks := by
    rw [State.callbacks, List.filter_append, List.filter_singleton, isFinish]
    exact List.append_nil _
  refine .ofCalls callbacks finishes ?_ orderly.pointwise orderly.rejected orderly.misused ?_
    orderly.width stands
  · rw [orderly.inOrder, List.append_assoc]
  · rw [List.map_append, orderly.numbered, List.length_append, List.map_singleton, child]
    exact List.range_succ.symm

private theorem orderly_of_step? (taken : scan.step? state action = some next)
    (reachable : scan.Reachable (scan.start cancelled held) state)
    (orderly : Orderly scan state) : Orderly scan next := by
  cases step?_eq_some_iff.mp taken with
  | deliver delivering delivered =>
    have lined := (Delivery.conserves_of_reachable (delivery_of_reachable reachable)).lined
    exact orderly.deliver delivering (logs_of_step? delivered)
      (Delivery.doomed_of_step? lined delivered)
  | conclude delivering done =>
    obtain ⟨opened, nobody⟩ := orderly.stands.ofDelivering delivering
    apply orderly.turn
    cases failure : state.delivery.failure with
    | some fault =>
      have phase : scan.afterDelivery state.delivery =
          .ended (.error fault) state.delivery.world.1 state.delivery.world.2 := by
        simp only [afterDelivery, Delivery.State.outcome, failure]
      exact .failed phase failure nobody
    | none =>
      have phase : scan.afterDelivery state.delivery =
          .finishing [] state.delivery.world.1 state.delivery.world.2 := by
        simp only [afterDelivery, Delivery.State.outcome, failure]
      exact .finishing phase ⟨opened, done, failure⟩ (congrArg List.length nobody)
        ((Nat.zero_add _).trans orderly.width)
  | @finish order finished waiting kept finishing =>
    obtain ⟨delivered, count, all⟩ := orderly.stands.ofFinishing finishing
    have still : ∀ {phase : Phase σ} {calls : List ChildCall},
        Delivered scan ({ state with phase, calls } : State scan) :=
      ⟨delivered.opened, delivered.done, delivered.running⟩
    cases waiting with
    | nil =>
      rw [finishCalls, List.append_nil]
      exact orderly.turn (.finished rfl still (count.trans all))
    | cons chain rest =>
      refine orderly.finish rfl count.symm ?_
      rw [afterFinish]
      rcases chain.finish order scan.sink kept with ⟨fault | _, closed, left⟩
      · exact .stopped rfl still
      · refine .finishing rfl still ?_ ?_
        · rw [finishes_snoc rfl, List.length_append, List.length_append, count]
          rfl
        · rw [← all, List.length_append, List.length_singleton, List.length_cons]
          omega

theorem orderly_of_reachable (child : scan.children ≠ [])
    (reachable : scan.Reachable (scan.start cancelled held) state) : Orderly scan state := by
  induction reachable with
  | start => exact orderly_start child cancelled held
  | step before taken orderly => exact orderly_of_step? taken before orderly

end Step

end OpenScan

end ColumnQuery
