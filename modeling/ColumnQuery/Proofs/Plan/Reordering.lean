import ColumnQuery.Proofs.Optimizer.Pushdown
import ColumnQuery.Proofs.Pipeline.Reordering
import ColumnQuery.Proofs.Plan.Execution

/-! # Results that do not depend on the order of rows

A plan that scans a table, maps and drops rows one by one and then aggregates them with order free
functions gives the same result rows for all tables with the same rows, in whatever order these come
and however they are cut into batches and partitions. With an ordered table the result rows also
come in the same order.
-/

namespace ColumnQuery

/-- An aggregate whose value on a group does not depend on the order of its rows. -/
def Expr.IsOrderFree (schema : Schema) : Expr → Prop
  | aggregate function operand => ∃ type, operand.type schema = .ok type ∧ function.IsOrderFree type
  | _ => False

theorem NodesTyped.split {input output : Schema} {front back : List BoundNode}
    (typed : NodesTyped input (front ++ back) output) :
    ∃ middle, NodesTyped input front middle ∧ NodesTyped middle back output := by
  induction front generalizing input with
  | nil => exact ⟨input, .nil, typed⟩
  | cons node front ih =>
    cases typed with
    | cons first later =>
      obtain ⟨middle, frontTyped, backTyped⟩ := ih later
      exact ⟨middle, .cons first frontTyped, backTyped⟩

namespace Source

/-- A source gives a leaf some batches, of the types of the columns that the leaf reads. -/
structure Reads (source : Source) (batchSize : Nat) (table : TableInput) (batches : List Batch) :
    Prop where
  read : source.batches batchSize table.projection = .ok batches
  types : ∀ schema, table.schema = .ok schema →
    ∀ batch ∈ batches, batch.schema.types = schema.types

variable {source other : Source} {batchSize otherSize : Nat} {table : TableInput}
  {contents others : List Row} {batches otherBatches : List Batch}

theorem Presents.reads (presents : source.Presents batchSize table contents batches) :
    source.Reads batchSize table batches :=
  ⟨presents.read, presents.types⟩

/-- Tables with the same rows give a leaf the same rows, whatever their order and their cut. -/
theorem Presents.perm (presents : source.Presents batchSize table contents batches)
    (otherPresents : other.Presents otherSize table others otherBatches)
    (same : contents.Perm others) :
    (batches.flatMap Batch.rows).Perm (otherBatches.flatMap Batch.rows) := by
  rw [presents.rows, otherPresents.rows, TableInput.rows_eq_map, TableInput.rows_eq_map]
  exact same.map _

end Source

namespace Plan

/-- A plan that takes the rows of its table one by one. -/
def isPointwise : Plan → Bool
  | input _ => true
  | project below _ | filter below _ => below.isPointwise
  | aggregate _ _ _ | output _ => false

private theorem isPointwise_of_boundNodes {plan : Plan} {nodes : List BoundNode}
    (pointwise : plan.isPointwise = true) (bound : plan.boundNodes = .ok nodes) :
    ∀ node ∈ nodes, node.isPointwise = true := by
  have snoc {front : List BoundNode} {last : BoundNode} (alone : last.isPointwise = true)
      (each : ∀ node ∈ front, node.isPointwise = true) :
      ∀ node ∈ front ++ [last], node.isPointwise = true := by
    intro node isMember
    rcases List.mem_append.mp isMember with early | isLast
    · exact each node early
    · rw [List.mem_singleton.mp isLast]
      exact alone
  induction plan generalizing nodes with
  | input table =>
    rw [boundNodes, discard_bind] at bound
    obtain ⟨_, -, success⟩ := bind_eq_ok_iff.mp bound
    cases success
    exact fun _ isMember => (List.not_mem_nil isMember).elim
  | project below exprs ih =>
    obtain ⟨front, frontBound, bound⟩ := bind_eq_ok_iff.mp bound
    obtain ⟨_, -, bound⟩ := bind_eq_ok_iff.mp bound
    obtain ⟨_, -, bound⟩ := bind_eq_ok_iff.mp bound
    obtain ⟨_, -, success⟩ := bind_eq_ok_iff.mp bound
    cases success
    exact snoc rfl (ih pointwise frontBound)
  | filter below predicate ih =>
    obtain ⟨front, frontBound, bound⟩ := bind_eq_ok_iff.mp bound
    obtain ⟨_, -, bound⟩ := bind_eq_ok_iff.mp bound
    obtain ⟨_, -, success⟩ := bind_eq_ok_iff.mp bound
    cases success
    exact snoc rfl (ih pointwise frontBound)
  | aggregate | output => cases pointwise

/-- The last node of an aggregation over a pointwise plan, and what comes before it. -/
theorem exists_last_of_boundNodes {below : Plan} {groups aggregates : List Expr}
    {nodes : List BoundNode} (pointwise : below.isPointwise = true)
    (free : ∀ schema, below.schema = .ok schema → ∀ expr ∈ aggregates, expr.IsOrderFree schema)
    (bound : (aggregate below groups aggregates).boundNodes = .ok nodes) :
    ∃ front aggregation, nodes = front ++ [.aggregate aggregation] ∧
      (∀ node ∈ front, node.isPointwise = true) ∧
      ∀ input ∈ aggregation.aggregates, input.function.IsOrderFree input.type := by
  obtain ⟨front, frontBound, bound⟩ := bind_eq_ok_iff.mp bound
  obtain ⟨schema, -, bound⟩ := bind_eq_ok_iff.mp bound
  obtain ⟨received, read, bound⟩ := bind_eq_ok_iff.mp bound
  obtain ⟨own, -, bound⟩ := bind_eq_ok_iff.mp bound
  obtain ⟨inputs, inputsBound, success⟩ := bind_eq_ok_iff.mp bound
  cases success
  refine ⟨front, ⟨own, inputs, schema⟩, rfl, isPointwise_of_boundNodes pointwise frontBound, ?_⟩
  intro input isInput
  obtain ⟨expr, isExpr, made⟩ := exists_of_mem_mapM inputsBound isInput
  have freeExpr := free received read expr isExpr
  cases expr with
  | aggregate function operand =>
    obtain ⟨type, isType, freeFunction⟩ := freeExpr
    obtain ⟨_, -, made⟩ := bind_eq_ok_iff.mp made
    obtain ⟨own, isOwn, success⟩ := bind_eq_ok_iff.mp made
    cases success
    obtain rfl : type = own := Except.ok.inj (isType.symm.trans isOwn)
    exact freeFunction
  | column | literal | binary => cases freeExpr

/-- Two sources that read the same rows, in any order and cut into batches and partitions in any
way, give an aggregation of order free functions over a pointwise plan the same result rows, if both
runs succeed: the same number of each, and the same sequence if the groups are kept ordered. It does
not matter in which order hash tables give up their groups. -/
theorem results_are_order_free {below : Plan} {groups aggregates : List Expr}
    (accepted : (output (aggregate below groups aggregates)).validate = .ok ())
    (pointwise : below.isPointwise = true)
    (free : ∀ schema, below.schema = .ok schema → ∀ expr ∈ aggregates, expr.IsOrderFree schema)
    (select : Aggregation → GroupStrategy) {source other : Source} {batchSize otherSize : Nat}
    {batches otherBatches : List Batch} (reads : source.Reads batchSize below.table batches)
    (otherReads : other.Reads otherSize below.table otherBatches)
    (same : (batches.flatMap Batch.rows).Perm (otherBatches.flatMap Batch.rows)) :
    ∃ scan chain,
      (output (aggregate below groups aggregates)).compile (.choosing select) = .ok scan ∧
      scan.children = [chain] ∧
      (∀ (orders : Nat → DrainOrder) {σ : Type} (sink : Sink σ),
        (∀ held, sink.stops held = false) → ∀ held,
        let report := scan.execute orders sink source batchSize false held
        let otherReport := scan.execute orders sink other otherSize false held
        (report.outcome, report.world.2) = drive (orders 0) sink batches chain.stages held ∧
          (otherReport.outcome, otherReport.world.2) =
            drive (orders 0) sink otherBatches chain.stages held) ∧
      ∀ order otherOrder : DrainOrder, ∃ results otherResults : Except Fault (List Batch),
        (∀ {σ : Type} (sink : Sink σ) (held : σ),
          drive order sink batches chain.stages held = sink.acceptResults results held ∧
            drive otherOrder sink otherBatches chain.stages held =
              sink.acceptResults otherResults held) ∧
        ∀ delivered otherDelivered, results = .ok delivered → otherResults = .ok otherDelivered →
          (delivered.flatMap Batch.rows).Perm (otherDelivered.flatMap Batch.rows) ∧
            ((∀ aggregation table, .aggregate aggregation table ∈ chain.stages →
                table.strategy = .ordered) →
              delivered.flatMap Batch.rows = otherDelivered.flatMap Batch.rows) := by
  obtain ⟨schema, derives⟩ := validate_output.mp accepted
  obtain ⟨nodes, read, bound, table, typed, -, -⟩ := boundNodes_of_derives derives
  have compiled := compile_of_boundNodes select derives bound table typed
  obtain ⟨front, aggregation, rfl, pointwiseFront, freeInputs⟩ :=
    exists_last_of_boundNodes pointwise free bound
  obtain ⟨middle, frontTyped, lastTyped⟩ := typed.split
  obtain ⟨groupTypes, resultTypes, aggregates⟩ :
      ∃ groupTypes resultTypes, aggregation.Typed middle.types groupTypes resultTypes := by
    cases lastTyped with
    | cons last later =>
      cases last with
      | aggregate groupsFilled aggregatesFilled =>
        exact ⟨_, _, Aggregation.typed_of_fills groupsFilled aggregatesFilled⟩
  rw [List.map_append] at compiled
  refine ⟨_, _, compiled, rfl, fun orders _ sink unstopped held => ?_, fun order otherOrder => ?_⟩
  · exact ⟨Scan.execute_of_one rfl orders unstopped reads.read held,
      Scan.execute_of_one rfl orders unstopped otherReads.read held⟩
  obtain ⟨nexts, nextTypes, rows, driven⟩ :=
    frontTyped.drive_pointwise select pointwiseFront (reads.types read table)
  obtain ⟨otherNexts, otherNextTypes, otherRows, otherDriven⟩ :=
    frontTyped.drive_pointwise select pointwiseFront (otherReads.types read table)
  obtain ⟨results, handed, makes⟩ :=
    aggregates.results_of_drive (select aggregation) order nextTypes
  obtain ⟨otherResults, otherHanded, otherMakes⟩ :=
    aggregates.results_of_drive (select aggregation) otherOrder otherNextTypes
  refine ⟨results, otherResults, fun sink held => ?_, ?_⟩
  · exact ⟨(driven order sink _ held).trans (handed sink held),
      (otherDriven otherOrder sink _ held).trans (otherHanded sink held)⟩
  · have passed := rowsThrough_perm pointwiseFront same (rows .firstSeen) (otherRows .firstSeen)
    intro delivered otherDelivered success otherSuccess
    obtain ⟨perm, inOrder⟩ := (makes delivered success).perm freeInputs passed
      (otherMakes otherDelivered otherSuccess)
    refine ⟨perm, fun ordered => inOrder (ordered aggregation (.empty (select aggregation)) ?_)⟩
    exact List.mem_append_right _ List.mem_cons_self

section Rooms

def roomsSchema : Schema := ⟨[⟨"room", .utf8, false⟩, ⟨"degrees", .float64, true⟩]⟩

/-- Both zeros in the attic and a NaN with a payload in the cellar. -/
def allRooms : Batch where
  schema := roomsSchema
  columns := [⟨.utf8, [.utf8 "attic", .utf8 "attic", .utf8 "cellar"], DataType.isSupported_utf8,
      by decide⟩,
    ⟨.float64, [.float64 ⟨0⟩, .float64 ⟨0x8000000000000000⟩, .float64 ⟨0x7ff8000000000001⟩],
      DataType.isSupported_float64, by decide⟩]
  rowCount := 3
  matching := ⟨rfl, by decide⟩

def cellarRoom : Batch where
  schema := roomsSchema
  columns := [⟨.utf8, [.utf8 "cellar"], DataType.isSupported_utf8, by decide⟩,
    ⟨.float64, [.float64 ⟨0x7ff8000000000001⟩], DataType.isSupported_float64, by decide⟩]
  rowCount := 1
  matching := ⟨rfl, by decide⟩

/-- The zeros of the attic the other way round. -/
def atticRooms : Batch where
  schema := roomsSchema
  columns := [⟨.utf8, [.utf8 "attic", .utf8 "attic"], DataType.isSupported_utf8, by decide⟩,
    ⟨.float64, [.float64 ⟨0x8000000000000000⟩, .float64 ⟨0⟩], DataType.isSupported_float64,
      by decide⟩]
  rowCount := 2
  matching := ⟨rfl, by decide⟩

def roomsPlan : Plan :=
  .filter (.input ⟨"rooms", roomsSchema, none⟩)
    (.binary .ne (.column "room") (.literal (.utf8 "")))

/-- The lowest and the highest temperature of each room. -/
def extremaPlan : Plan :=
  .aggregate roomsPlan [.column "room"]
    [.aggregate .min (.column "degrees"), .aggregate .max (.column "degrees")]

private theorem rooms_present (name : String) {partitions : List (List Batch)} {table : MemoryTable}
    (built : MemoryTable.ofPartitions name roomsSchema partitions = .ok table) :
    ∃ batches, (Source.memory table).Presents 8 roomsPlan.table
      (partitions.flatten.flatMap Batch.rows) batches := by
  have whole : roomsPlan.table.projection = none := rfl
  refine MemoryTable.presents_of_built built rfl rfl (fun names chosen => ?_) 8
  rw [whole] at chosen
  cases chosen

/-- The extrema of the rooms are the same in the same sequence, to the last bit, whether the rooms
are read in one batch or in two partitions in another order. -/
theorem results_are_order_free_rooms :
    ∃ scan chain, (output extremaPlan).compile (.choosing fun _ => .ordered) = .ok scan ∧
      scan.children = [chain] ∧
      ∀ order otherOrder : DrainOrder, ∃ results otherResults : Except Fault (List Batch),
        (∀ {σ : Type} (sink : Sink σ) (held : σ),
          drive order sink [allRooms] chain.stages held = sink.acceptResults results held ∧
            drive otherOrder sink [cellarRoom, atticRooms] chain.stages held =
              sink.acceptResults otherResults held) ∧
        ∀ delivered otherDelivered, results = .ok delivered → otherResults = .ok otherDelivered →
          delivered.flatMap Batch.rows = otherDelivered.flatMap Batch.rows := by
  have built : MemoryTable.ofPartitions "rooms" roomsSchema [[allRooms]] = .ok _ := rfl
  have otherBuilt : MemoryTable.ofPartitions "rooms" roomsSchema [[cellarRoom], [atticRooms]] =
      .ok _ := rfl
  obtain ⟨batches, presents⟩ := rooms_present "rooms" built
  obtain ⟨otherBatches, otherPresents⟩ := rooms_present "rooms" otherBuilt
  have accepted : (output extremaPlan).validate = .ok () := by decide +kernel
  have free : ∀ schema, roomsPlan.schema = .ok schema →
      ∀ expr ∈ [Expr.aggregate .min (.column "degrees"), .aggregate .max (.column "degrees")],
        expr.IsOrderFree schema := by
    intro schema read expr isMember
    have known : roomsPlan.schema = .ok roomsSchema := rfl
    rw [known] at read
    cases read
    simp only [List.mem_cons, List.not_mem_nil, or_false] at isMember
    rcases isMember with rfl | rfl <;> exact ⟨.float64, rfl, trivial⟩
  have same : ([[allRooms]].flatten.flatMap Batch.rows).Perm
      ([[cellarRoom], [atticRooms]].flatten.flatMap Batch.rows) := by decide +kernel
  obtain ⟨scan, chain, compiled, one, -, runs⟩ := results_are_order_free accepted rfl free
    (fun _ => .ordered) presents.reads otherPresents.reads (presents.perm otherPresents same)
  have read : batches = [allRooms] := (Except.ok.inj presents.read).symm
  have otherRead : otherBatches = [cellarRoom, atticRooms] :=
    (Except.ok.inj otherPresents.read).symm
  subst read otherRead
  refine ⟨scan, chain, compiled, one, fun order otherOrder => ?_⟩
  obtain ⟨results, otherResults, handed, alike⟩ := runs order otherOrder
  refine ⟨results, otherResults, handed, fun delivered otherDelivered success otherSuccess => ?_⟩
  refine (alike delivered otherDelivered success otherSuccess).2 fun aggregation table isStage => ?_
  have known : (output extremaPlan).compile (.choosing fun _ => .ordered) = .ok _ := rfl
  obtain rfl := Except.ok.inj (compiled.symm.trans known)
  cases one
  simp only [List.mem_cons, reduceCtorEq, List.not_mem_nil, or_false, false_or,
    Stage.aggregate.injEq] at isStage
  rw [isStage.2]
  rfl

end Rooms

end Plan

end ColumnQuery
