import ColumnQuery.Proofs.Delivery.Steps
import Mathlib.Data.List.Nodup

/-! # Where the partitions are

At every instant of a delivery the partitions are those that were taken, those in the queue and
those that are not sent yet, in this order, and the queue holds no more than it has places. The line
holds the waiting workers, each once, and a worker drains only when nothing is left.
-/

namespace ColumnQuery.Delivery

variable {Partition World : Type}

theorem line_of_first {state : State Partition World} {worker : Nat}
    (first : state.isFirst worker = true) : state.line = worker :: state.line.tail := by
  simp only [State.isFirst, beq_iff_eq] at first
  cases line : state.line with
  | nil => simp [line] at first
  | cons head tail =>
    obtain rfl : head = worker := by simpa [line] using first
    rfl

/-- A line holds just the workers that wait, each once. -/
structure Lined (line : List Nat) (workers : List WorkerPhase) : Prop where
  waits : ∀ worker, worker ∈ line ↔ workers[worker]? = some .waiting
  once : line.Nodup

namespace Lined

variable {line : List Nat} {workers : List WorkerPhase} {worker : Nat} {phase : WorkerPhase}

/-- The first in line leaves it. -/
theorem leave (lined : Lined (worker :: line) workers) (busy : phase ≠ .waiting) :
    Lined line (workers.set worker phase) := by
  obtain ⟨absent, once⟩ := List.nodup_cons.mp lined.once
  have waiting := (lined.waits worker).mp List.mem_cons_self
  have bound := (List.getElem?_eq_some_iff.mp waiting).1
  refine ⟨fun other => ?_, once⟩
  by_cases same : worker = other
  · subst same
    simp [List.getElem?_set_self bound, absent, busy]
  · rw [List.getElem?_set_ne same, ← lined.waits, List.mem_cons]
    simp [Ne.symm same]

/-- A worker that has nothing to hand over joins the line. -/
theorem join (lined : Lined line workers) (idle : workers[worker]? = some (.holding [])) :
    Lined (line ++ [worker]) (workers.set worker .waiting) := by
  have bound := (List.getElem?_eq_some_iff.mp idle).1
  have absent : worker ∉ line := by simp [lined.waits, idle]
  refine ⟨fun other => ?_, ?_⟩
  · by_cases same : worker = other
    · subst same
      simp [List.getElem?_set_self bound]
    · rw [List.getElem?_set_ne same, ← lined.waits, List.mem_append, List.mem_singleton]
      simp [Ne.symm same]
  · rw [List.nodup_append]
    exact ⟨lined.once, List.nodup_singleton worker, by
      rintro other isMember _ isWorker rfl
      exact absent (List.mem_singleton.mp isWorker ▸ isMember)⟩

/-- A worker that is not in line stays out of it. -/
theorem stay (lined : Lined line workers) {batches : List Batch}
    (held : workers[worker]? = some (.holding batches)) (busy : phase ≠ .waiting) :
    Lined line (workers.set worker phase) := by
  have bound := (List.getElem?_eq_some_iff.mp held).1
  refine ⟨fun other => ?_, lined.once⟩
  rw [lined.waits]
  by_cases same : worker = other
  · subst same
    simp [List.getElem?_set_self bound, held, busy]
  · rw [List.getElem?_set_ne same]

end Lined

/-- The partitions are in their places, and so are the workers. -/
structure Conserves (delivery : Delivery Partition World) (partitions : List Partition)
    (state : State Partition World) : Prop where
  inOrder : state.taken.map (·.2) ++ state.queue ++ state.unsent = partitions
  owned : ∀ entry ∈ state.taken, entry.1 < delivery.width
  bounded : state.queue.length ≤ delivery.width
  allSent : state.closed = true → state.unsent = []
  nothingLeft : .drained ∈ state.workers → state.closed = true ∧ state.queue = []
  lined : Lined state.line state.workers
  complete : state.workers.length = delivery.width

variable {delivery : Delivery Partition World} {partitions : List Partition}

theorem conserves_start (world : World) (cancelled : Bool) :
    Conserves delivery partitions (delivery.start partitions world cancelled) where
  inOrder := rfl
  owned := nofun
  bounded := Nat.zero_le _
  allSent := nofun
  nothingLeft drained := by cases List.eq_of_mem_replicate drained
  lined := by
    refine ⟨fun worker => ?_, List.nodup_nil⟩
    simp only [start, List.getElem?_replicate, List.not_mem_nil, false_iff]
    split <;> simp
  complete := List.length_replicate

section Step

variable {state next : State Partition World} {action : Action}

/-- A partition that is taken from the queue keeps its place. -/
theorem inOrder_take {taken : List (Nat × Partition)} {queue unsent : List Partition}
    {partition : Partition} (worker : Nat)
    (inOrder : taken.map (·.2) ++ partition :: queue ++ unsent = partitions) :
    (taken ++ [(worker, partition)]).map (·.2) ++ queue ++ unsent = partitions := by
  rw [← inOrder]
  simp

private theorem owned_take {width worker : Nat} {taken : List (Nat × Partition)}
    {partition : Partition} (owned : ∀ entry ∈ taken, entry.1 < width) (bound : worker < width) :
    ∀ entry ∈ taken ++ [(worker, partition)], entry.1 < width := by
  intro entry isMember
  rcases List.mem_append.mp isMember with earlier | last
  · exact owned entry earlier
  · rw [List.mem_singleton.mp last]
    exact bound

/-- A worker that does something new has not drained, unless this is what it does. -/
theorem drained_set {workers : List WorkerPhase} {worker : Nat} {phase : WorkerPhase}
    (drained : .drained ∈ workers.set worker phase) (going : phase ≠ .drained) :
    .drained ∈ workers :=
  (List.mem_or_eq_of_mem_set drained).resolve_right going.symm

theorem conserves_of_step (step : Step delivery state action next)
    (conserves : Conserves delivery partitions state) : Conserves delivery partitions next := by
  obtain ⟨inOrder, owned, bounded, allSent, nothingLeft, lined, complete⟩ := conserves
  cases step with
  | @send partition unsent sent calm room =>
    refine ⟨?_, owned, ?_, fun closed => ?_, fun drained => ?_, lined, complete⟩
    · rw [← inOrder, sent]
      simp
    · rw [List.length_append]
      exact room
    · simp [allSent closed] at sent
    · simp [allSent (nothingLeft drained).1] at sent
  | stopProducer | cancel => exact ⟨inOrder, owned, bounded, allSent, nothingLeft, lined, complete⟩
  | close sent =>
    exact ⟨inOrder, owned, bounded, fun _ => sent, fun drained => ⟨rfl, (nothingLeft drained).2⟩,
      lined, complete⟩
  | request idle =>
    exact ⟨inOrder, owned, bounded, allSent, fun drained => nothingLeft (drained_set drained nofun),
      lined.join idle, (List.length_set ..).trans complete⟩
  | @receive worker partition queue _ queued first
  | @unload worker partition queue _ queued first =>
    rw [queued] at inOrder bounded nothingLeft
    rw [line_of_first first] at lined
    have waits := (lined.waits worker).mp List.mem_cons_self
    have bound := complete ▸ (List.getElem?_eq_some_iff.mp waits).1
    exact ⟨inOrder_take worker inOrder, owned_take owned bound, Nat.le_of_succ_le bounded, allSent,
      fun drained => absurd (nothingLeft (drained_set drained nofun)).2 nofun,
      lined.leave nofun, (List.length_set ..).trans complete⟩
  | stopWorker first =>
    rw [line_of_first first] at lined
    exact ⟨inOrder, owned, bounded, allSent, fun drained => nothingLeft (drained_set drained nofun),
      lined.leave nofun, (List.length_set ..).trans complete⟩
  | drain first calm empty closed =>
    rw [line_of_first first] at lined
    exact ⟨inOrder, owned, bounded, allSent, fun _ => ⟨closed, empty⟩, lined.leave nofun,
      (List.length_set ..).trans complete⟩
  | hand held | refuse held =>
    exact ⟨inOrder, owned, bounded, allSent, fun drained => nothingLeft (drained_set drained nofun),
      lined.stay held nofun, (List.length_set ..).trans complete⟩
  | «break» => exact ⟨inOrder, owned, bounded, allSent, nothingLeft, lined, complete⟩

end Step

theorem conserves_of_reachable {world : World} {cancelled : Bool} {state : State Partition World}
    (reachable : Reachable delivery (delivery.start partitions world cancelled) state) :
    Conserves delivery partitions state := by
  induction reachable with
  | start => exact conserves_start world cancelled
  | step _ taken conserves => exact conserves_of_step (step_of_step? taken) conserves

end ColumnQuery.Delivery
