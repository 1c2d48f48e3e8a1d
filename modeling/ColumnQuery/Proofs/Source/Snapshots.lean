import ColumnQuery.Proofs.Delivery.Outcome
import ColumnQuery.Proofs.Source.Sharing

/-! # Scans of a shared table

Scans of a shared table run while others call it, and the consumers of a scan may call it too, also
with a batch in hand. What a scan delivers is settled when it starts: its snapshot decides which of
the accepted appends it reads, and later ones bear higher versions.
-/

namespace ColumnQuery

variable {σ : Type}

/-- Consumers that do nothing to a shared table but call it. -/
structure TableConsumers (σ : Type) extends Consumers (SharedTable σ) where
  calls : ∀ worker batch shared, SharedTable.Calls shared (handOver worker batch shared).2

/-- A scan of a shared table, under way or at its end. -/
structure RunningScan (σ : Type) where
  /-- The calls that the table had before the scan. -/
  before : List TableCall
  snapshot : Nat
  projection : Option (List String)
  consumers : TableConsumers σ
  load : List Batch → Except Error (List Batch)
  state : Delivery.State (List Batch) (SharedTable σ)

/-- A shared table with the scans that were started on it. -/
structure Traffic (σ : Type) where
  shared : SharedTable σ
  scans : List (RunningScan σ)

namespace RunningScan

def delivery (scan : RunningScan σ) : Delivery (List Batch) (SharedTable σ) :=
  { scan.consumers.toConsumers with load := scan.load }

/-- The batches that a scan has handed over, in order. -/
def delivered (scan : RunningScan σ) : List Batch := scan.state.handed.map (·.2)

/-- A scan with one consumer has ended well, at a snapshot that somebody had seen. -/
structure Succeeds (scan : RunningScan σ) : Prop where
  one : scan.consumers.width = 1
  seen : .viewed scan.snapshot ∈ scan.before
  done : scan.state.isDone = true
  success : scan.state.outcome = .ok ()

end RunningScan

namespace Traffic

def start (traffic : Traffic σ) (snapshot : Nat) (projection : Option (List String))
    (consumers : TableConsumers σ) (cancelled : Bool) : Except Error (Traffic σ) := do
  let load ← traffic.shared.table.loader projection
  let delivery : Delivery (List Batch) (SharedTable σ) := { consumers.toConsumers with load }
  let state := delivery.start (traffic.shared.table.visible snapshot) traffic.shared cancelled
  return { traffic with
    scans := traffic.scans ++
      [{ before := traffic.shared.calls, snapshot, projection, consumers, load, state }] }

def advance? (traffic : Traffic σ) (index : Nat) (action : Delivery.Action) :
    Option (Traffic σ) := do
  let scan ← traffic.scans[index]?
  let state ← scan.delivery.step? { scan.state with world := traffic.shared } action
  return { shared := state.world, scans := traffic.scans.set index { scan with state } }

/-- What may happen to a shared table and its scans. -/
inductive Step (traffic : Traffic σ) : Traffic σ → Prop where
  | call {shared : SharedTable σ} (calls : traffic.shared.Calls shared) :
      Step traffic { traffic with shared }
  | start {snapshot : Nat} {projection : Option (List String)} {consumers : TableConsumers σ}
      {cancelled : Bool} {next : Traffic σ}
      (started : traffic.start snapshot projection consumers cancelled = .ok next) :
      Step traffic next
  | advance {index : Nat} {action : Delivery.Action} {next : Traffic σ}
      (taken : traffic.advance? index action = some next) : Step traffic next

/-- What some order of calls, starts and steps of scans makes of a new table. -/
inductive Reachable (name : String) (schema : Schema) (held : σ) : Traffic σ → Prop where
  | new : Reachable name schema held ⟨.empty name schema held, []⟩
  | step {traffic next : Traffic σ} (before : Reachable name schema held traffic)
      (step : Step traffic next) : Reachable name schema held next

end Traffic

variable {name : String} {schema : Schema} {held : σ} {traffic next : Traffic σ}

section Push

/-- A scan that nobody interrupts takes the steps of its delivery. -/
theorem Traffic.reachable_of_delivery {scans : List (RunningScan σ)} {scan : RunningScan σ}
    {initial state : Delivery.State (List Batch) (SharedTable σ)}
    (opened : Reachable name schema held ⟨initial.world, scans ++ [{ scan with state := initial }]⟩)
    (reachable : scan.delivery.Reachable initial state) :
    Reachable name schema held ⟨state.world, scans ++ [{ scan with state }]⟩ := by
  induction reachable with
  | start => exact opened
  | @step state next action _ taken before =>
    have advanced : advance? ⟨state.world, scans ++ [{ scan with state }]⟩ scans.length action =
        some ⟨next.world, scans ++ [{ scan with state := next }]⟩ := by
      have same : { state with world := state.world } = state := rfl
      simp only [advance?, List.getElem?_concat_length, Option.bind_eq_bind, Option.bind_some]
      rw [same, show RunningScan.delivery { scan with state } = scan.delivery from rfl, taken]
      simp
    exact before.step (.advance advanced)

/-- A push of a table runs a scan to its end with no call but those of the consumers. -/
theorem Traffic.reachable_push {snapshot : Nat} {projection : Option (List String)}
    {consumers : TableConsumers σ} {cancelled : Bool}
    (reachable : Reachable name schema held traffic)
    (started : traffic.start snapshot projection consumers cancelled = .ok next) :
    ∃ scan, Reachable name schema held ⟨scan.state.world, traffic.scans ++ [scan]⟩ ∧
      scan.state.report = traffic.shared.table.push consumers.toConsumers snapshot projection
        cancelled traffic.shared := by
  have opened := reachable.step (.start started)
  obtain ⟨load, prepared, rest⟩ := bind_eq_ok_iff.mp started
  cases rest
  let delivery : Delivery (List Batch) (SharedTable σ) := { consumers.toConsumers with load }
  let state := delivery.run (traffic.shared.table.visible snapshot) traffic.shared cancelled
  let scan : RunningScan σ :=
    { before := traffic.shared.calls, snapshot, projection, consumers, load, state }
  have run : scan.delivery.Reachable
      (delivery.start (traffic.shared.table.visible snapshot) traffic.shared cancelled) state :=
    Delivery.reachable_run _ _ _
  exact ⟨scan, reachable_of_delivery opened run, by rw [MemoryTable.push, prepared]⟩

end Push

/-- A scan is in the midst of delivering the appends that its snapshot lets it see. -/
structure RunningScan.Frozen (name : String) (schema : Schema) (calls : List TableCall)
    (scan : RunningScan σ) : Prop where
  earlier : scan.before <+: calls
  answered : TableCall.Answered name schema scan.before
  prepared : ∃ ordinals, scan.projection.mapM schema.resolve = .ok ordinals ∧
    scan.load = MemoryTable.load ordinals
  conserves : scan.delivery.Conserves
    ((TableCall.accepted scan.before).take scan.snapshot) scan.state
  handsInOrder : scan.delivery.HandsInOrder scan.state

/-- The table is what its accepted appends make of it, and no scan sees more than it should. -/
structure Traffic.Isolates (name : String) (schema : Schema) (traffic : Traffic σ) : Prop where
  sound : traffic.shared.Sound name schema
  frozen : ∀ scan ∈ traffic.scans, scan.Frozen name schema traffic.shared.calls

section Step

/-- A step of a delivery calls the table only through a consumer. -/
theorem TableConsumers.calls_of_step {consumers : TableConsumers σ}
    {load : List Batch → Except Error (List Batch)} {action : Delivery.Action}
    {state next : Delivery.State (List Batch) (SharedTable σ)}
    (step : Delivery.Step { consumers.toConsumers with load } state action next) :
    state.world.Calls next.world := by
  have handed {worker : Nat} {batch : Batch} {outcome : Except Fault Unit}
      {world : SharedTable σ} (answer : consumers.handOver worker batch state.world =
        (outcome, world)) : state.world.Calls world := by
    have calls := consumers.calls worker batch state.world
    rwa [answer] at calls
  cases step with
  | send | stopProducer | close | request | receive | unload | stopWorker | drain | cancel =>
    exact .none
  | hand _ accepted => exact handed accepted
  | refuse _ refused => exact handed refused
  | «break» _ broken => exact handed broken

theorem RunningScan.Frozen.later {scan : RunningScan σ} {calls later : List TableCall}
    (frozen : scan.Frozen name schema calls) (grown : calls <+: later) :
    scan.Frozen name schema later :=
  { frozen with earlier := frozen.earlier.trans grown }

theorem RunningScan.Frozen.advance {scan : RunningScan σ} {calls : List TableCall}
    {shared : SharedTable σ} {action : Delivery.Action}
    {state : Delivery.State (List Batch) (SharedTable σ)} (frozen : scan.Frozen name schema calls)
    (taken : scan.delivery.step? { scan.state with world := shared } action = some state) :
    RunningScan.Frozen name schema calls { scan with state } := by
  -- what the consumers see of the world has no part in where the partitions are
  have conserves : scan.delivery.Conserves ((TableCall.accepted scan.before).take scan.snapshot)
      { scan.state with world := shared } := { frozen.conserves with }
  have handsInOrder : scan.delivery.HandsInOrder { scan.state with world := shared } :=
    { frozen.handsInOrder with }
  have step := Delivery.step_of_step? taken
  exact { frozen with
    conserves := Delivery.conserves_of_step step conserves
    handsInOrder := Delivery.handsInOrder_of_step (Delivery.running_of_step? taken)
      conserves.lined step handsInOrder }

theorem Traffic.Isolates.start {snapshot : Nat} {projection : Option (List String)}
    {consumers : TableConsumers σ} {cancelled : Bool} (isolates : traffic.Isolates name schema)
    (started : traffic.start snapshot projection consumers cancelled = .ok next) :
    next.Isolates name schema := by
  obtain ⟨load, prepared, rest⟩ := bind_eq_ok_iff.mp started
  cases rest
  refine ⟨isolates.sound, fun scan isMember => ?_⟩
  rcases List.mem_append.mp isMember with earlier | last
  · exact isolates.frozen scan earlier
  · obtain rfl := List.mem_singleton.mp last
    rw [isolates.sound.grown] at prepared
    obtain ⟨ordinals, resolved, same⟩ := bind_eq_ok_iff.mp prepared
    cases same
    exact {
      earlier := List.prefix_refl _
      answered := isolates.sound.answered
      prepared := ⟨ordinals, resolved, rfl⟩
      conserves := by
        simp only [isolates.sound.grown, MemoryTable.visible_numbered]
        exact Delivery.conserves_start _ _
      handsInOrder := Delivery.handsInOrder_start _ _ _ }

theorem Traffic.Isolates.advance {index : Nat} {action : Delivery.Action}
    (isolates : traffic.Isolates name schema)
    (taken : traffic.advance? index action = some next) : next.Isolates name schema := by
  simp only [Traffic.advance?, Option.bind_eq_bind, Option.bind_eq_some_iff] at taken
  obtain ⟨scan, found, state, taken, same⟩ := taken
  cases same
  have calls := TableConsumers.calls_of_step (Delivery.step_of_step? taken)
  refine ⟨isolates.sound.calls calls, fun other isMember => ?_⟩
  rcases List.mem_or_eq_of_mem_set isMember with others | rfl
  · exact (isolates.frozen other others).later calls.isPrefix
  · have frozen := isolates.frozen scan (List.mem_of_getElem? found)
    exact (frozen.later calls.isPrefix).advance taken

theorem Traffic.Isolates.step (isolates : traffic.Isolates name schema)
    (step : Traffic.Step traffic next) : next.Isolates name schema := by
  cases step with
  | call calls =>
    exact ⟨isolates.sound.calls calls,
      fun scan isMember => (isolates.frozen scan isMember).later calls.isPrefix⟩
  | start started => exact isolates.start started
  | advance taken => exact isolates.advance taken

end Step

private theorem Traffic.isolates_of_reachable (reachable : Reachable name schema held traffic) :
    traffic.Isolates name schema := by
  induction reachable with
  | new => exact ⟨SharedTable.sound_empty held, fun _ isMember => (List.not_mem_nil isMember).elim⟩
  | step _ step isolates => exact isolates.step step

section Delivered

/-- Partitions that can be loaded are loaded as a whole, too. -/
theorem MemoryTable.load_flatten {consumers : Consumers (SharedTable σ)}
    {ordinals : Option (List Nat)} {partitions : List (List Batch)} {batches : List Batch}
    (yields : Delivery.Yields { consumers with load := load ordinals } partitions batches) :
    load ordinals partitions.flatten = .ok batches := by
  induction yields with
  | nil => cases ordinals <;> rfl
  | @cons partition rest whole batches loaded _ ih =>
    rw [List.flatten_cons]
    cases ordinals with
    | none =>
      cases loaded
      cases ih
      rfl
    | some ordinals =>
      simp only [load] at loaded ih ⊢
      rw [List.mapM_append, loaded, ih]
      rfl

/-- The snapshot of a scan lets it see the same appends ever after. -/
theorem TableCall.take_accepted {before calls : List TableCall} {snapshot : Nat}
    (earlier : before <+: calls) (bound : snapshot ≤ (accepted before).length) :
    (accepted calls).take snapshot = (accepted before).take snapshot := by
  obtain ⟨later, rfl⟩ := earlier
  rw [accepted_append, List.take_append_of_le_length bound]

theorem RunningScan.Frozen.delivered {scan : RunningScan σ} {calls : List TableCall}
    (frozen : scan.Frozen name schema calls) (succeeds : scan.Succeeds) :
    ∃ ordinals, scan.projection.mapM schema.resolve = .ok ordinals ∧
      MemoryTable.load ordinals ((TableCall.accepted calls).take scan.snapshot).flatten =
        .ok scan.delivered := by
  obtain ⟨ordinals, resolved, load⟩ := frozen.prepared
  have one : scan.delivery.width = 1 := succeeds.one
  have running := Delivery.running_of_outcome succeeds.success
  have completes := frozen.conserves.completes frozen.handsInOrder (by rw [one]; decide) running
    succeeds.done
  obtain ⟨alone, handed⟩ := frozen.handsInOrder.of_one one frozen.conserves
  have yields := completes.handed 0
  rw [alone, handed, completes.inOrder, RunningScan.delivery, load] at yields
  refine ⟨ordinals, resolved, ?_⟩
  rw [TableCall.take_accepted frozen.earlier (frozen.answered.viewed_le succeeds.seen)]
  exact MemoryTable.load_flatten yields

end Delivered

/-- Whatever the order of calls and of the steps of scans, the table holds the accepted appends,
answered with the versions from 1 on, and a rejected append leaves it as it is. A scan with one
consumer that ends well has delivered the appends up to its snapshot, in order and each once, so
that two such scans of the same columns deliver the same. -/
theorem Traffic.snapshots_are_isolated (reachable : Reachable name schema held traffic) :
    traffic.shared.table =
        .numbered name schema (TableCall.accepted traffic.shared.calls) ∧
      TableCall.Answered name schema traffic.shared.calls ∧
      traffic.shared.calls.filterMap TableCall.stamp? =
        List.range' 1 (TableCall.accepted traffic.shared.calls).length ∧
      (∀ batches error, (traffic.shared.append batches).1 = .error error →
        (traffic.shared.append batches).2.table = traffic.shared.table) ∧
      (∀ scan ∈ traffic.scans, scan.Succeeds →
        ∃ ordinals, scan.projection.mapM schema.resolve = .ok ordinals ∧
          MemoryTable.load ordinals
              ((TableCall.accepted traffic.shared.calls).take scan.snapshot).flatten =
            .ok scan.delivered) ∧
      (∀ scan ∈ traffic.scans, ∀ other ∈ traffic.scans, scan.Succeeds → other.Succeeds →
        scan.snapshot = other.snapshot → scan.projection = other.projection →
        scan.delivered = other.delivered) := by
  have isolates := isolates_of_reachable reachable
  refine ⟨isolates.sound.grown, isolates.sound.answered, isolates.sound.answered.stamps,
    fun _ _ => SharedTable.table_append_of_error,
    fun scan isMember succeeds => (isolates.frozen scan isMember).delivered succeeds, ?_⟩
  intro scan isMember other isOther succeeds otherSucceeds snapshot projection
  obtain ⟨ordinals, resolved, loaded⟩ := (isolates.frozen scan isMember).delivered succeeds
  obtain ⟨_, same, otherLoaded⟩ := (isolates.frozen other isOther).delivered otherSucceeds
  rw [← projection, resolved] at same
  cases same
  rw [snapshot, otherLoaded] at loaded
  exact (Except.ok.inj loaded).symm

section Echo

/-- A batch of one row with one number. -/
def numberBatch (number : Int64) : Batch where
  schema := ⟨[⟨"number", .int64, false⟩]⟩
  columns := [⟨.int64, [.int64 number], rfl, by simp [Scalar.FitsIn, Scalar.type?]⟩]
  rowCount := 1
  matching := ⟨rfl, by simp [Column.length]⟩

/-- A consumer that appends every batch to the table that it comes from. -/
def echo : TableConsumers Unit where
  width := 1
  handOver _ batch shared := (.ok (), (shared.append [batch]).2)
  stops _ := false
  calls _ batch _ := .append .none [batch]

/-- A scan whose consumer appends to the table all the while delivers what was there before. -/
theorem snapshots_are_isolated_echo :
    ∃ traffic : Traffic Unit,
      Traffic.Reachable "numbers" (numberBatch 1).schema () traffic ∧
      (TableCall.accepted traffic.shared.calls).length = 2 ∧
      ∃ scan ∈ traffic.scans, scan.Succeeds ∧ scan.delivered = [numberBatch 1] := by
  let new : SharedTable Unit := .empty "numbers" (numberBatch 1).schema ()
  have called := Traffic.Reachable.new.step
    (.call (.view (.append (.none : new.Calls new) [numberBatch 1])))
  have started := called.step (.start (rfl : Traffic.start _ 1 none echo false = .ok _))
  have sent := started.step (.advance (rfl : Traffic.advance? _ 0 .send = some _))
  have ready := sent.step (.advance (rfl : Traffic.advance? _ 0 (.request 0) = some _))
  have taken := ready.step (.advance (rfl : Traffic.advance? _ 0 (.receive 0) = some _))
  have handed := taken.step (.advance (rfl : Traffic.advance? _ 0 (.hand 0) = some _))
  have again := handed.step (.advance (rfl : Traffic.advance? _ 0 (.request 0) = some _))
  have closed := again.step (.advance (rfl : Traffic.advance? _ 0 .close = some _))
  have drained := closed.step (.advance (rfl : Traffic.advance? _ 0 (.drain 0) = some _))
  obtain ⟨-, -, -, -, delivers, -⟩ := Traffic.snapshots_are_isolated drained
  have seen : TableCall.viewed 1 ∈
      [TableCall.appended [numberBatch 1] (.ok 1), TableCall.viewed 1] := by simp
  obtain ⟨_, resolved, loaded⟩ :=
    delivers _ (List.mem_singleton.mpr rfl) ⟨rfl, seen, rfl, rfl⟩
  cases resolved
  exact ⟨_, drained, rfl, _, List.mem_singleton.mpr rfl, ⟨rfl, seen, rfl, rfl⟩,
    (Except.ok.inj loaded).symm⟩

end Echo

end ColumnQuery
