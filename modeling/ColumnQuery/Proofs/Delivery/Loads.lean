import ColumnQuery.Proofs.Delivery.Steps

/-! # Deliveries hand over what partitions hold

Whatever the order of steps, a worker only ever hands over batches that were loaded from one of the
partitions.
-/

namespace ColumnQuery.Delivery

variable {Partition World : Type}

/-- A batch is loaded from one of some partitions. -/
def Loads (delivery : Delivery Partition World) (partitions : List Partition) (batch : Batch) :
    Prop :=
  ∃ partition ∈ partitions, ∃ batches, delivery.load partition = .ok batches ∧ batch ∈ batches

/-- Everything in flight stems from some partitions. -/
structure StemsFrom (delivery : Delivery Partition World) (partitions : List Partition)
    (state : State Partition World) : Prop where
  unsent : ∀ partition ∈ state.unsent, partition ∈ partitions
  queue : ∀ partition ∈ state.queue, partition ∈ partitions
  held : ∀ batches, .holding batches ∈ state.workers →
    ∀ batch ∈ batches, delivery.Loads partitions batch
  handed : ∀ worker batch, (worker, batch) ∈ state.handed → delivery.Loads partitions batch

variable {delivery : Delivery Partition World} {partitions : List Partition}

private theorem stemsFrom_start (world : World) (cancelled : Bool) :
    StemsFrom delivery partitions (delivery.start partitions world cancelled) where
  unsent _ isMember := isMember
  queue := nofun
  held batches isMember := by
    cases List.eq_of_mem_replicate isMember
    exact nofun
  handed := nofun

/-- A worker that changes what it does keeps everything in place if what it holds is in place. -/
theorem StemsFrom.held_set {workers : List WorkerPhase} {phase : WorkerPhase}
    (held : ∀ batches, .holding batches ∈ workers →
      ∀ batch ∈ batches, delivery.Loads partitions batch)
    (added : ∀ batches, phase = .holding batches →
      ∀ batch ∈ batches, delivery.Loads partitions batch) (worker : Nat) :
    ∀ batches, .holding batches ∈ workers.set worker phase →
      ∀ batch ∈ batches, delivery.Loads partitions batch := by
  intro batches isMember
  rcases List.mem_or_eq_of_mem_set isMember with before | new
  · exact held batches before
  · exact added batches new.symm

private theorem StemsFrom.handed_append {handed : List (Nat × Batch)} {batch : Batch} {added : Nat}
    (before : ∀ worker batch, (worker, batch) ∈ handed → delivery.Loads partitions batch)
    (loaded : delivery.Loads partitions batch) :
    ∀ worker other, (worker, other) ∈ handed ++ [(added, batch)] →
      delivery.Loads partitions other := by
  intro worker other isMember
  rcases List.mem_append.mp isMember with earlier | last
  · exact before worker other earlier
  · obtain ⟨rfl, rfl⟩ := Prod.mk.inj (List.mem_singleton.mp last)
    exact loaded

private theorem stemsFrom_of_step {state next : State Partition World} {action : Action}
    (step : Step delivery state action next) (stems : StemsFrom delivery partitions state) :
    StemsFrom delivery partitions next := by
  have headLoaded {worker : Nat} {batch : Batch} {rest : List Batch}
      (held : state.workers[worker]? = some (.holding (batch :: rest))) :
      ∀ other ∈ batch :: rest, delivery.Loads partitions other :=
    stems.held _ (List.mem_of_getElem? held)
  have tailQueue {partition : Partition} {queue : List Partition}
      (queued : state.queue = partition :: queue) :
      ∀ other ∈ partition :: queue, other ∈ partitions :=
    fun other isMember => stems.queue other (queued ▸ isMember)
  cases step with
  | @send partition unsent sent =>
    have sentPartitions : ∀ other ∈ partition :: unsent, other ∈ partitions :=
      fun other isMember => stems.unsent other (sent ▸ isMember)
    refine ⟨fun other isMember => sentPartitions other (List.mem_cons_of_mem _ isMember), ?_,
      stems.held, stems.handed⟩
    intro other isMember
    rcases List.mem_append.mp isMember with before | new
    · exact stems.queue other before
    · exact sentPartitions other (List.mem_singleton.mp new ▸ List.mem_cons_self)
  | stopProducer | close | cancel =>
    exact ⟨stems.unsent, stems.queue, stems.held, stems.handed⟩
  | @request worker idle =>
    exact ⟨stems.unsent, stems.queue, StemsFrom.held_set stems.held (by simp) worker, stems.handed⟩
  | @receive worker partition queue batches queued first calm loaded =>
    refine ⟨stems.unsent,
      fun other isMember => tailQueue queued other (List.mem_cons_of_mem _ isMember),
      StemsFrom.held_set stems.held ?_ worker, stems.handed⟩
    intro held same batch isMember
    cases same
    exact ⟨partition, tailQueue queued partition List.mem_cons_self, batches, loaded, isMember⟩
  | @unload worker partition queue error queued =>
    exact ⟨stems.unsent,
      fun other isMember => tailQueue queued other (List.mem_cons_of_mem _ isMember),
      StemsFrom.held_set stems.held (by simp) worker, stems.handed⟩
  | @stopWorker worker | @drain worker =>
    exact ⟨stems.unsent, stems.queue, StemsFrom.held_set stems.held (by simp) worker, stems.handed⟩
  | @hand worker batch rest world held accepted =>
    refine ⟨stems.unsent, stems.queue, StemsFrom.held_set stems.held ?_ worker,
      StemsFrom.handed_append stems.handed (headLoaded held batch List.mem_cons_self)⟩
    intro batches same other isMember
    cases same
    exact headLoaded held other (List.mem_cons_of_mem _ isMember)
  | @refuse worker batch rest world error held refused =>
    exact ⟨stems.unsent, stems.queue, StemsFrom.held_set stems.held (by simp) worker,
      StemsFrom.handed_append stems.handed (headLoaded held batch List.mem_cons_self)⟩
  | @«break» worker batch rest world misuse held broken =>
    exact ⟨stems.unsent, stems.queue, stems.held,
      StemsFrom.handed_append stems.handed (headLoaded held batch List.mem_cons_self)⟩

private theorem stemsFrom_of_reachable {world : World} {cancelled : Bool}
    {state : State Partition World}
    (reachable : Reachable delivery (delivery.start partitions world cancelled) state) :
    StemsFrom delivery partitions state := by
  induction reachable with
  | start => exact stemsFrom_start world cancelled
  | step _ taken stems => exact stemsFrom_of_step (step_of_step? taken) stems

/-- Whatever the order of steps, what is handed over was loaded from a partition. -/
theorem loads_of_handed {world : World} {cancelled : Bool} {state : State Partition World}
    {worker : Nat} {batch : Batch}
    (reachable : Reachable delivery (delivery.start partitions world cancelled) state)
    (handed : (worker, batch) ∈ state.handed) : delivery.Loads partitions batch :=
  (stemsFrom_of_reachable reachable).handed worker batch handed

end ColumnQuery.Delivery
