import ColumnQuery.Proofs.Delivery.Conservation
import Mathlib.Data.List.Perm.Subperm

/-! # What each worker hands over

A worker hands over the batches of the partitions that it took, in order. Only the last of these
partitions may be unfinished. When the delivery ends well none is.
-/

namespace ColumnQuery.Delivery

variable {Partition World : Type}

/-- The items that belong to a worker, in order. -/
def itemsOf {α : Type} (worker : Nat) (items : List (Nat × α)) : List α :=
  (items.filter fun item => item.1 == worker).map (·.2)

section Items

variable {α : Type}

private theorem itemsOf_own (worker : Nat) (items : List (Nat × α)) (item : α) :
    itemsOf worker (items ++ [(worker, item)]) = itemsOf worker items ++ [item] := by
  simp [itemsOf]

private theorem itemsOf_other {worker other : Nat} (differ : other ≠ worker)
    (items : List (Nat × α)) (item : α) :
    itemsOf other (items ++ [(worker, item)]) = itemsOf other items := by
  simp [itemsOf, differ.symm]

private theorem itemsOf_of_forall {worker : Nat} {items : List (Nat × α)}
    (own : ∀ item ∈ items, item.1 = worker) : itemsOf worker items = items.map (·.2) := by
  rw [itemsOf, List.filter_eq_self.mpr fun item isMember => beq_iff_eq.mpr (own item isMember)]

private theorem count_itemsOf [DecidableEq α] (worker : Nat) (item : α) (items : List (Nat × α)) :
    (itemsOf worker items).count item = items.count (worker, item) := by
  induction items with
  | nil => rfl
  | cons first rest ih =>
    obtain ⟨own, kept⟩ := first
    by_cases same : own = worker <;> simp_all [itemsOf, List.count_cons]

end Items

/-- The batches of some partitions, all of which can be loaded. -/
inductive Yields (delivery : Delivery Partition World) : List Partition → List Batch → Prop where
  | nil : Yields delivery [] []
  | cons {partition : Partition} {rest : List Partition} {whole batches : List Batch}
      (loaded : delivery.load partition = .ok whole) (later : Yields delivery rest batches) :
      Yields delivery (partition :: rest) (whole ++ batches)

/-- What a worker hands over of the partitions that it took: the batches of all of them in order,
but that it may have come no further than into the last one. -/
inductive HandsOver (delivery : Delivery Partition World) : List Partition → List Batch → Prop where
  | nothing : HandsOver delivery [] []
  | begun {front : List Partition} {last : Partition} {early part whole : List Batch}
      (before : Yields delivery front early) (loaded : delivery.load last = .ok whole)
      (isPart : part <+: whole) : HandsOver delivery (front ++ [last]) (early ++ part)
  | unloaded {front : List Partition} {last : Partition} {early : List Batch} {error : Error}
      (before : Yields delivery front early) (refused : delivery.load last = .error error) :
      HandsOver delivery (front ++ [last]) early

/-- A worker has handed over what it took but for the rest of the last partition. -/
inductive Serves (delivery : Delivery Partition World) :
    List Partition → List Batch → List Batch → Prop where
  | fresh : Serves delivery [] [] []
  | amid {front : List Partition} {last : Partition} {early part rest : List Batch}
      (before : Yields delivery front early) (loaded : delivery.load last = .ok (part ++ rest)) :
      Serves delivery (front ++ [last]) (early ++ part) rest

/-- What a worker has handed over of what it took, by what it is doing. -/
def Served (delivery : Delivery Partition World) (taken : List Partition) (handed : List Batch) :
    WorkerPhase → Prop
  | .holding rest => delivery.Serves taken handed rest
  | .waiting | .drained => delivery.Yields taken handed
  | .failed _ => delivery.HandsOver taken handed

variable {delivery : Delivery Partition World}

section Worker

variable {taken : List Partition} {handed rest whole : List Batch} {partition : Partition}

theorem Yields.snoc (before : Yields delivery taken handed)
    (loaded : delivery.load partition = .ok whole) :
    Yields delivery (taken ++ [partition]) (handed ++ whole) := by
  induction before with
  | nil => simpa using Yields.cons loaded .nil
  | cons first _ ih =>
    rw [List.cons_append, List.append_assoc]
    exact .cons first ih

private theorem Yields.handsOver (yields : Yields delivery taken handed) :
    HandsOver delivery taken handed := by
  induction yields with
  | nil => exact .nothing
  | @cons partition rest whole batches loaded _ ih =>
    cases ih with
    | nothing =>
      simpa using HandsOver.begun .nil loaded (List.prefix_refl whole)
    | begun before last isPart =>
      rw [← List.cons_append, ← List.append_assoc]
      exact .begun (.cons loaded before) last isPart
    | unloaded before refused =>
      rw [← List.cons_append]
      exact .unloaded (.cons loaded before) refused

/-- A worker that has taken a partition has its batches before it. -/
theorem Serves.ofLoaded (before : Yields delivery taken handed)
    (loaded : delivery.load partition = .ok whole) :
    Serves delivery (taken ++ [partition]) handed whole := by
  have serves : Serves delivery (taken ++ [partition]) (handed ++ []) whole := .amid before loaded
  rwa [List.append_nil] at serves

theorem Serves.hand {batch : Batch} (serves : Serves delivery taken handed (batch :: rest)) :
    Serves delivery taken (handed ++ [batch]) rest := by
  cases serves with
  | amid before loaded =>
    rw [List.append_assoc]
    exact .amid before (by simpa using loaded)

/-- A worker with nothing before it has handed over all that it took. -/
theorem Serves.yields (serves : Serves delivery taken handed []) :
    Yields delivery taken handed := by
  cases serves with
  | fresh => exact .nil
  | amid before loaded => exact before.snoc (by simpa using loaded)

private theorem Serves.handsOver (serves : Serves delivery taken handed rest) :
    HandsOver delivery taken handed := by
  cases serves with
  | fresh => exact .nothing
  | amid before loaded => exact .begun before loaded (List.prefix_append _ _)

private theorem Served.handsOver {phase : WorkerPhase}
    (served : Served delivery taken handed phase) :
    HandsOver delivery taken handed := by
  cases phase with
  | holding rest => exact Serves.handsOver served
  | waiting | drained => exact Yields.handsOver served
  | failed error => exact served

end Worker

/-- Every worker has handed over what it took, in order. A misuse leaves its worker as it was. Who
is not in the group counts as drained. -/
structure HandsInOrder (delivery : Delivery Partition World) (state : State Partition World) :
    Prop where
  handed : ∀ worker, HandsOver delivery (itemsOf worker state.taken) (itemsOf worker state.handed)
  served : state.failure = none → ∀ worker, Served delivery (itemsOf worker state.taken)
    (itemsOf worker state.handed) (state.workers.getD worker .drained)

theorem handsInOrder_start (partitions : List Partition) (world : World) (cancelled : Bool) :
    HandsInOrder delivery (delivery.start partitions world cancelled) where
  handed _ := .nothing
  served _ worker := by
    simp only [start, List.getD_eq_getElem?_getD, List.getElem?_replicate]
    split
    · exact Serves.fresh
    · exact Yields.nil

section Step

variable {state next : State Partition World}

private theorem HandsInOrder.served_of_found (before : HandsInOrder delivery state)
    (running : state.failure = none) {worker : Nat} {phase : WorkerPhase}
    (found : state.workers[worker]? = some phase) :
    Served delivery (itemsOf worker state.taken) (itemsOf worker state.handed) phase := by
  have served := before.served running worker
  rwa [List.getD_eq_getElem?_getD, found] at served

/-- A step of one worker leaves what the others have done. -/
theorem HandsInOrder.ofWorker (before : HandsInOrder delivery state)
    (running : state.failure = none) {worker : Nat} {former phase : WorkerPhase}
    (found : state.workers[worker]? = some former)
    (workers : next.workers = state.workers.set worker phase)
    (others : ∀ other, other ≠ worker → itemsOf other next.taken = itemsOf other state.taken ∧
      itemsOf other next.handed = itemsOf other state.handed)
    (served : Served delivery (itemsOf worker next.taken) (itemsOf worker next.handed) phase) :
    HandsInOrder delivery next where
  handed other := by
    by_cases same : other = worker
    · exact same ▸ served.handsOver
    · rw [(others other same).1, (others other same).2]
      exact before.handed other
  served _ other := by
    rw [workers, List.getD_eq_getElem?_getD]
    by_cases same : other = worker
    · subst same
      rw [List.getElem?_set_self (List.getElem?_eq_some_iff.mp found).1]
      exact served
    · rw [List.getElem?_set_ne (Ne.symm same), ← List.getD_eq_getElem?_getD, (others other same).1,
        (others other same).2]
      exact before.served running other

theorem handsInOrder_of_step {action : Action} (running : state.failure = none)
    (lined : Lined state.line state.workers) (step : Step delivery state action next)
    (before : HandsInOrder delivery state) : HandsInOrder delivery next := by
  have unchanged (worker other : Nat) (_ : other ≠ worker) :
      itemsOf other state.taken = itemsOf other state.taken ∧
        itemsOf other state.handed = itemsOf other state.handed := ⟨rfl, rfl⟩
  have waits {worker : Nat} (first : state.isFirst worker = true) :
      state.workers[worker]? = some .waiting :=
    (lined.waits worker).mp (line_of_first first ▸ List.mem_cons_self)
  have waited {worker : Nat} (first : state.isFirst worker = true) :
      Yields delivery (itemsOf worker state.taken) (itemsOf worker state.handed) :=
    before.served_of_found running (waits first)
  cases step with
  | send | close | cancel => exact ⟨before.handed, before.served⟩
  | stopProducer => exact ⟨before.handed, fun goesOn => by cases goesOn⟩
  | @request worker idle =>
    exact before.ofWorker running idle rfl (unchanged worker)
      (Serves.yields (before.served_of_found running idle))
  | @receive worker partition queue batches queued first calm loaded =>
    refine before.ofWorker running (waits first) rfl
      (fun other differ => ⟨itemsOf_other differ .., rfl⟩) ?_
    rw [State.setWorker, itemsOf_own]
    exact Serves.ofLoaded (waited first) loaded
  | @unload worker partition queue error queued first calm unloaded =>
    refine before.ofWorker running (waits first) rfl
      (fun other differ => ⟨itemsOf_other differ .., rfl⟩) ?_
    rw [retire, State.setWorker, itemsOf_own]
    exact HandsOver.unloaded (waited first) unloaded
  | @stopWorker worker first =>
    exact before.ofWorker running (waits first) rfl (unchanged worker) (waited first).handsOver
  | @drain worker first =>
    exact before.ofWorker running (waits first) rfl (unchanged worker) (waited first)
  | @hand worker batch rest world held =>
    refine before.ofWorker running held rfl
      (fun other differ => ⟨rfl, itemsOf_other differ ..⟩) ?_
    rw [State.setWorker, itemsOf_own]
    exact Serves.hand (before.served_of_found running held)
  | @refuse worker batch rest world error held =>
    refine before.ofWorker running held rfl
      (fun other differ => ⟨rfl, itemsOf_other differ ..⟩) ?_
    rw [retire, State.setWorker, itemsOf_own]
    exact (Serves.hand (before.served_of_found running held)).handsOver
  | @«break» worker batch rest world misuse held =>
    refine ⟨fun other => ?_, fun goesOn => by cases goesOn⟩
    by_cases same : other = worker
    · subst same
      rw [State.fail, itemsOf_own]
      exact (Serves.hand (before.served_of_found running held)).handsOver
    · rw [State.fail, itemsOf_other same]
      exact before.handed other

end Step

variable {partitions : List Partition} {world : World} {cancelled : Bool}
  {state : State Partition World}

/-- Who takes nothing hands nothing over. -/
theorem HandsOver.eq_nil {handed : List Batch} (handsOver : HandsOver delivery [] handed) :
    handed = [] := by
  generalize none : ([] : List Partition) = taken at handsOver
  cases handsOver with
  | nothing => rfl
  | begun | unloaded => simp at none

/-- A worker that is alone takes and hands over everything. -/
theorem HandsInOrder.of_one (handsInOrder : HandsInOrder delivery state)
    (one : delivery.width = 1) (conserves : Conserves delivery partitions state) :
    itemsOf 0 state.taken = state.taken.map (·.2) ∧
      itemsOf 0 state.handed = state.handed.map (·.2) := by
  have takes : ∀ entry ∈ state.taken, entry.1 = 0 := fun entry isMember =>
    Nat.lt_one_iff.mp (one ▸ conserves.owned entry isMember)
  refine ⟨itemsOf_of_forall takes, itemsOf_of_forall fun entry isMember => ?_⟩
  by_contra other
  have nothing : itemsOf entry.1 state.taken = [] := by
    rw [itemsOf, List.map_eq_nil_iff, List.filter_eq_nil_iff]
    intro taken found
    rw [takes taken found]
    simpa using Ne.symm other
  have handsOver := handsInOrder.handed entry.1
  rw [nothing] at handsOver
  have isHanded : entry.2 ∈ itemsOf entry.1 state.handed :=
    List.mem_map.mpr ⟨entry, List.mem_filter.mpr ⟨isMember, beq_self_eq_true _⟩, rfl⟩
  rw [handsOver.eq_nil] at isHanded
  cases isHanded

theorem handsInOrder_of_reachable
    (reachable : Reachable delivery (delivery.start partitions world cancelled) state) :
    HandsInOrder delivery state := by
  induction reachable with
  | start => exact handsInOrder_start partitions world cancelled
  | step before taken handsInOrder =>
    exact handsInOrder_of_step (running_of_step? taken) (conserves_of_reachable before).lined
      (step_of_step? taken) handsInOrder

/-- The batches of a partition, none if it cannot be loaded. -/
def contents (delivery : Delivery Partition World) (partition : Partition) : List Batch :=
  (delivery.load partition).toOption.getD []

section Once

variable {taken : List Partition} {handed : List Batch}

theorem Yields.contents (yields : Yields delivery taken handed) :
    taken.flatMap delivery.contents = handed := by
  induction yields with
  | nil => rfl
  | cons loaded _ ih =>
    rw [List.flatMap_cons, ih, Delivery.contents, loaded]
    rfl

theorem HandsOver.isPrefix (handsOver : HandsOver delivery taken handed) :
    handed <+: taken.flatMap delivery.contents := by
  cases handsOver with
  | nothing => exact List.prefix_refl []
  | @begun front last early part whole before loaded isPart =>
    have held : delivery.contents last = whole := by
      rw [Delivery.contents, loaded]
      rfl
    rw [List.flatMap_append, before.contents, List.flatMap_singleton, held]
    exact (List.prefix_append_right_inj _).mpr isPart
  | unloaded before =>
    rw [List.flatMap_append, before.contents]
    exact List.prefix_append _ _

end Once

/-- The batches of some taken partitions, with the workers that took them. -/
def contentsOf (delivery : Delivery Partition World) (taken : List (Nat × Partition)) :
    List (Nat × Batch) :=
  taken.flatMap fun (worker, partition) => (delivery.contents partition).map (worker, ·)

private theorem itemsOf_contentsOf (worker : Nat) (taken : List (Nat × Partition)) :
    itemsOf worker (delivery.contentsOf taken) =
      (itemsOf worker taken).flatMap delivery.contents := by
  induction taken with
  | nil => rfl
  | cons first rest ih =>
    obtain ⟨own, partition⟩ := first
    simp only [itemsOf, contentsOf, List.flatMap_cons, List.filter_append, List.map_append] at ih ⊢
    rw [ih]
    by_cases same : own = worker <;> simp [same, List.filter_map, Function.comp_def]

/-- No batch is handed over twice: what is handed over is part of what the taken partitions hold,
each batch for its own worker. -/
theorem HandsInOrder.once (handsInOrder : HandsInOrder delivery state) :
    state.handed.Subperm (delivery.contentsOf state.taken) := by
  rw [List.subperm_ext_iff]
  rintro ⟨worker, batch⟩ -
  rw [← count_itemsOf, ← count_itemsOf, itemsOf_contentsOf]
  exact (handsInOrder.handed worker).isPrefix.sublist.count_le batch

end ColumnQuery.Delivery
