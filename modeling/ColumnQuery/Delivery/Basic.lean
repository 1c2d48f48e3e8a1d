import ColumnQuery.Batch

/-! # Delivery of partitions

A delivery feeds the partitions of a table to several workers over a queue that has as many places
as there are workers. A producer sends the partitions in order and then closes the queue. Workers
stand in line for the queue; the first in line takes the next partition, leaves the line, loads the
batches of the partition and hands them to its consumer one by one.

The steps of the producer and the workers may come in any order that `Delivery.step?` allows. A
cancellation is noticed by the producer before it sends and by a worker that is first in line.

A failure of the producer or a misuse ends the delivery. How a failure of a worker does depends on
the size of the group. A small group is watched as a whole, so that the first failure is final. The
workers of a large group are awaited one by one, in the order of their numbers: a worker that fails
leaves the others to go on, until all workers before it have drained.
-/

namespace ColumnQuery

/-- The consumers of batches, one per worker. -/
structure Consumers (World : Type) where
  /-- The number of consumers. -/
  width : Nat
  /-- Hand a batch to the consumer of a worker. -/
  handOver : Nat → Batch → World → Except Fault Unit × World
  /-- Whether a consumer has asked for cancellation. -/
  stops : World → Bool

/-- What partitions are made of and where their batches go. -/
structure Delivery (Partition World : Type) extends Consumers World where
  /-- The batches of a partition. -/
  load : Partition → Except Error (List Batch)

namespace Delivery

/-- What a worker is doing. -/
inductive WorkerPhase where
  /-- Handing over batches; with none left, ready to stand in line. -/
  | holding (batches : List Batch)
  | waiting
  | drained
  | failed (error : Error)
  deriving DecidableEq

/-- The error of a worker that has failed. -/
def WorkerPhase.error? : WorkerPhase → Option Error
  | failed error => some error
  | holding _ | waiting | drained => none

/-- An instant of a delivery. -/
structure State (Partition World : Type) where
  /-- The partitions that the producer has not sent yet. -/
  unsent : List Partition
  queue : List Partition
  /-- Whether the producer has closed the queue. -/
  closed : Bool
  /-- The workers that wait for the queue; the first of them may take from it. -/
  line : List Nat
  workers : List WorkerPhase
  /-- Which worker took which partition, in order. -/
  taken : List (Nat × Partition)
  /-- Which worker handed over which batch, in order, refused batches included. -/
  handed : List (Nat × Batch)
  world : World
  cancelled : Bool
  failure : Option Fault

/-- A step of the producer, of a worker, or of someone who cancels the delivery. -/
inductive Action where
  | send
  | stopProducer
  | close
  | request (worker : Nat)
  | receive (worker : Nat)
  | stopWorker (worker : Nat)
  | drain (worker : Nat)
  | hand (worker : Nat)
  | cancel
  deriving DecidableEq, Repr

variable {Partition World : Type}

def start (delivery : Delivery Partition World) (partitions : List Partition) (world : World)
    (cancelled : Bool) : State Partition World where
  unsent := partitions
  queue := []
  closed := false
  line := []
  workers := List.replicate delivery.width (.holding [])
  taken := []
  handed := []
  world := world
  cancelled := cancelled
  failure := none

namespace State

def setWorker (state : State Partition World) (worker : Nat) (phase : WorkerPhase) :
    State Partition World :=
  { state with workers := state.workers.set worker phase }

def fail (state : State Partition World) (fault : Fault) : State Partition World :=
  { state with failure := some fault }

def isDone (state : State Partition World) : Bool :=
  state.failure.isSome || (state.closed && state.workers.all (· == .drained))

/-- How a delivery that has come to an end went. -/
def outcome (state : State Partition World) : Except Fault Unit :=
  match state.failure with
  | some fault => .error fault
  | none => .ok ()

def isFirst (state : State Partition World) (worker : Nat) : Bool :=
  state.line.head? == some worker

end State

/-- The number of workers up to which a group is small. -/
def smallGroup : Nat := 30

/-- Whether all workers are watched at once. -/
def isSmall (delivery : Delivery Partition World) : Bool := delivery.width ≤ smallGroup

/-- The error that ends a delivery whose workers are in these phases. In a large group only the
first worker that has not drained counts. -/
def workerError? (delivery : Delivery Partition World) (workers : List WorkerPhase) :
    Option Error :=
  if delivery.isSmall then workers.findSome? WorkerPhase.error?
  else (workers.find? (· != .drained)).bind WorkerPhase.error?

/-- Let a worker come to its end, drained or failed. -/
def retire (delivery : Delivery Partition World) (state : State Partition World) (worker : Nat)
    (phase : WorkerPhase) : State Partition World :=
  let retired := state.setWorker worker phase
  { retired with failure := (delivery.workerError? retired.workers).map Fault.error }

def send? (delivery : Delivery Partition World) (state : State Partition World) :
    Option (State Partition World) :=
  match state.unsent with
  | [] => none
  | partition :: unsent =>
    if state.cancelled || delivery.width ≤ state.queue.length then none
    else some { state with unsent, queue := state.queue ++ [partition] }

/-- Take the next partition and load its batches. -/
def receive? (delivery : Delivery Partition World) (state : State Partition World)
    (worker : Nat) : Option (State Partition World) :=
  match state.queue with
  | [] => none
  | partition :: queue =>
    if state.isFirst worker && !state.cancelled then
      let received := { state with
        queue
        line := state.line.tail
        taken := state.taken ++ [(worker, partition)] }
      match delivery.load partition with
      | .ok batches => some (received.setWorker worker (.holding batches))
      | .error error => some (delivery.retire received worker (.failed error))
    else none

def hand? (delivery : Delivery Partition World) (state : State Partition World) (worker : Nat) :
    Option (State Partition World) :=
  match state.workers[worker]? with
  | some (.holding (batch :: rest)) =>
    let (outcome, world) := delivery.handOver worker batch state.world
    let handed := { state with
      handed := state.handed ++ [(worker, batch)]
      world
      cancelled := state.cancelled || delivery.stops world }
    match outcome with
    | .ok () => some (handed.setWorker worker (.holding rest))
    | .error (.error error) => some (delivery.retire handed worker (.failed error))
    | .error (.misuse misuse) => some (handed.fail (.misuse misuse))
  | _ => none

def step? (delivery : Delivery Partition World) (state : State Partition World) (action : Action) :
    Option (State Partition World) :=
  if state.failure.isSome then none
  else
    match action with
    | .send => delivery.send? state
    | .stopProducer =>
      if state.cancelled && !state.unsent.isEmpty then some (state.fail (.error .producerStopped))
      else none
    | .close =>
      if state.unsent.isEmpty && !state.closed then some { state with closed := true } else none
    | .request worker =>
      if state.workers[worker]? = some (.holding []) then
        some { state.setWorker worker .waiting with line := state.line ++ [worker] }
      else none
    | .receive worker => delivery.receive? state worker
    | .stopWorker worker =>
      if state.isFirst worker && state.cancelled then
        some (delivery.retire { state with line := state.line.tail } worker
          (.failed (.workerStopped worker)))
      else none
    | .drain worker =>
      if state.isFirst worker && !state.cancelled && state.queue.isEmpty && state.closed then
        some (delivery.retire { state with line := state.line.tail } worker .drained)
      else none
    | .hand worker => delivery.hand? state worker
    | .cancel => if state.cancelled then none else some { state with cancelled := true }

/-- The instants that some order of steps leads to. -/
inductive Reachable (delivery : Delivery Partition World) (initial : State Partition World) :
    State Partition World → Prop where
  | start : Reachable delivery initial initial
  | step {state next : State Partition World} {action : Action}
      (reachable : Reachable delivery initial state)
      (taken : delivery.step? state action = some next) : Reachable delivery initial next

end Delivery

end ColumnQuery
