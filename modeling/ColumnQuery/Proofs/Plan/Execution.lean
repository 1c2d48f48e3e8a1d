import ColumnQuery.Proofs.Pipeline.Running
import ColumnQuery.Proofs.Plan.Arrangement
import ColumnQuery.Proofs.Source.Presentation

/-! # Running a plan gives the rows that it means

A plan that validation accepts compiles, and over a source that presents the rows of its leaf, cut
into partitions and batches in any way, it hands over exactly the rows that it means, with the
groups in some order if hash tables give them up. The only failure is an integer sum that leaves 64
bits, which is when the plan means no rows for this order.
-/

namespace ColumnQuery

/-- What a run of a scan gives all sinks that take every batch: the rows of a result, or a failure
and no batch at all. -/
def Scan.Gives (scan : Scan) (orders : Nat → DrainOrder) (source : Source) (batchSize : Nat) :
    Except Error (List Row) → Prop
  | .ok rows => ∃ delivered : List Batch, delivered.flatMap Batch.rows = rows ∧
      ∀ {σ : Type} (sink : Sink σ), sink.IsTotal → ∀ held,
        let report := scan.execute orders sink source batchSize false held
        report.outcome = .ok () ∧ report.world.2 = sink.keptAfter delivered held
  | .error error => ∀ {σ : Type} (sink : Sink σ), sink.IsTotal → ∀ held,
      let report := scan.execute orders sink source batchSize false held
      report.outcome = .error (.error error) ∧ report.world.2 = held

/-- An accepted plan over a source that presents its table gives the rows that it means, or fails
for an integer sum where it means none. Which of the orders of groups it means depends on the orders
in which hash tables give them up. If no such groups are aggregated again then it means the same
rows in all orders. -/
theorem Plan.execute_eq_rows {below : Plan} (accepted : (output below).validate = .ok ())
    (supported : below.table.source.IsSupported) {source : Source} {batchSize : Nat}
    {contents : List Row} {batches : List Batch}
    (presents : source.Presents batchSize below.table contents batches) :
    ∃ scan, (output below).compile .standard = .ok scan ∧ scan.children.length = 1 ∧
      (∀ orders : Nat → DrainOrder, ∃ arrangement,
        scan.Gives orders source batchSize ((output below).rows arrangement contents)) ∧
      (∀ arrangement error, (output below).rows arrangement contents = .error error →
        error = .sumOverflow) ∧
      ((output below).regroups = false → ∀ arrangement other,
        SameRows ((output below).rows arrangement contents)
          ((output below).rows other contents)) := by
  obtain ⟨schema, derives⟩ := validate_output.mp accepted
  obtain ⟨nodes, read, table, typed, compiled, meaning⟩ := compile_of_derives derives
  have means (arrangement : GroupArrangement) : (output below).rows arrangement contents =
      rowsThrough arrangement nodes (batches.flatMap Batch.rows) := by
    rw [Plan.rows, meaning, presents.rows]
  let scan : Scan := ⟨below.table.path, below.table.projection, read,
    [⟨nodes.map BoundNode.freshStage, schema⟩]⟩
  have one : scan.children = [⟨nodes.map BoundNode.freshStage, schema⟩] := rfl
  refine ⟨scan, compiled, rfl, fun orders => ?_, fun arrangement error failed => ?_,
    fun once arrangement other => ?_⟩
  · have ran {σ : Type} (sink : Sink σ) (total : sink.IsTotal) (held : σ) :=
      Scan.execute_of_one one orders total.unstopped presents.read held
    obtain ⟨arrangement, ⟨delivered, made, driven⟩ | ⟨failed, driven⟩⟩ :=
      drive_of_typed typed (isSupported_of_read table supported) (orders 0)
        (presents.types read table)
    · refine ⟨arrangement, ?_⟩
      rw [means, made]
      refine ⟨delivered, rfl, fun sink total held => Prod.mk.inj ((ran sink total held).trans ?_)⟩
      rw [driven, total.acceptAll]
    · refine ⟨arrangement, ?_⟩
      rw [means, failed]
      intro σ sink total held
      exact Prod.mk.inj ((ran sink total held).trans (driven sink held))
  · rw [means] at failed
    exact eq_sumOverflow_of_rowsThrough failed
  · simp only [Plan.rows]
    exact sameRows_of_regroups arrangement other contents derives once

section Orders

def ordersSchema : Schema := ⟨[⟨"item", .utf8, false⟩, ⟨"count", .int64, true⟩]⟩

def firstOrders : Batch where
  schema := ordersSchema
  columns := [⟨.utf8, [.utf8 "pen", .utf8 "ink"], DataType.isSupported_utf8, by decide⟩,
    ⟨.int64, [.int64 1, .int64 5], DataType.isSupported_int64, by decide⟩]
  rowCount := 2
  matching := ⟨rfl, by decide⟩

def laterOrders : Batch where
  schema := ordersSchema
  columns := [⟨.utf8, [.utf8 "pen", .utf8 "ink"], DataType.isSupported_utf8, by decide⟩,
    ⟨.int64, [.int64 2, .null], DataType.isSupported_int64, by decide⟩]
  rowCount := 2
  matching := ⟨rfl, by decide⟩

def ordersTable : MemoryTable :=
  ⟨"orders", ordersSchema, 2, [⟨1, [firstOrders]⟩, ⟨2, [laterOrders]⟩]⟩

/-- A sink that has no room for any batch. -/
def fullSink : Sink Unit where
  accept _ held := (.error (.refused "no room"), held)
  stops _ := false

/-- The items that were ordered and how many of each. -/
def totalsPlan : Plan :=
  .aggregate (.filter (.input ⟨"orders", ordersSchema, none⟩)
    (.binary .gt (.column "count") (.literal (.int64 0))))
    [.column "item"] [.aggregate .sum (.column "count")]

private theorem ordersTable_presents :
    ∃ batches, (Source.memory ordersTable).Presents 8 totalsPlan.table
      (firstOrders.rows ++ laterOrders.rows) batches := by
  have built : MemoryTable.ofPartitions "orders" ordersSchema [[firstOrders], [laterOrders]] =
      .ok ordersTable := rfl
  have whole : totalsPlan.table.projection = none := rfl
  refine MemoryTable.presents_of_built built rfl rfl ?_ 8
  intro names chosen
  simp [whole] at chosen

private theorem totalsPlan_rows :
    (Plan.output totalsPlan).rows .firstSeen (firstOrders.rows ++ laterOrders.rows) =
      .ok [[.utf8 "pen", .int64 3], [.utf8 "ink", .int64 5]] := by
  decide +kernel

/-- The totals are handed over to every sink that takes them, in one order or the other. -/
theorem execute_eq_rows_totals :
    ∃ scan, (Plan.output totalsPlan).compile .standard = .ok scan ∧
      ∀ orders : Nat → DrainOrder, ∃ delivered : List Batch,
        (delivered.flatMap Batch.rows).Perm
          [[.utf8 "pen", .int64 3], [.utf8 "ink", .int64 5]] ∧
        ∀ {σ : Type} (sink : Sink σ), sink.IsTotal → ∀ held,
          let report := scan.execute orders sink (.memory ordersTable) 8 false held
          report.outcome = .ok () ∧ report.world.2 = sink.keptAfter delivered held := by
  obtain ⟨batches, presents⟩ := ordersTable_presents
  have accepted : (Plan.output totalsPlan).validate = .ok () := by decide +kernel
  have supported : totalsPlan.table.source.IsSupported := by
    change ∀ type ∈ ordersSchema.types, type.isSupported = true
    decide
  have once : (Plan.output totalsPlan).regroups = false := by decide
  obtain ⟨scan, compiled, -, gives, -, same⟩ := Plan.execute_eq_rows accepted supported presents
  refine ⟨scan, compiled, fun orders => ?_⟩
  obtain ⟨arrangement, given⟩ := gives orders
  have totals := same once arrangement .firstSeen
  rw [totalsPlan_rows] at totals
  generalize (Plan.output totalsPlan).rows arrangement _ = result at given totals
  cases totals with
  | ok perm =>
    obtain ⟨delivered, rfl, ran⟩ := given
    exact ⟨delivered, perm, ran⟩

end Orders

end ColumnQuery
