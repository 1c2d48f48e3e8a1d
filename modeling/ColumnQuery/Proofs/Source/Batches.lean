import ColumnQuery.Proofs.Delivery.OneWorker
import ColumnQuery.Proofs.Traversal
import ColumnQuery.Source.Basic

/-! # The batches of a source

A scan with one worker that nobody cancels receives the batches of the source in order.
-/

namespace ColumnQuery

/-- The batches that a scan of a source reads, in the order of the partitions. -/
def Source.batches (source : Source) (batchSize : Nat) (projection : Option (List String)) :
    Except Error (List Batch) :=
  match source with
  | memory table => do
    let load ← table.loader projection
    return (← (table.visible table.version).mapM load).flatten
  | file table content => do
    let (groups, load) ← table.prepare content batchSize projection
    return (← groups.mapM load).flatten

variable {World : Type}

namespace Delivery

variable {Partition : Type}

theorem run_of_loaded (delivery : Delivery Partition World) (one : delivery.width = 1)
    (unstopped : ∀ world, delivery.stops world = false) {partitions : List Partition}
    {loaded : List (List Batch)} (loads : partitions.mapM delivery.load = .ok loaded)
    (world : World) :
    ((delivery.run partitions world false).report.outcome,
      (delivery.run partitions world false).report.world) =
        delivery.feed loaded.flatten world := by
  have fed := feedOn_eq_feed (mapM_eq_ok_iff.mp loads) [] world
  exact (run_of_one one unstopped partitions world).trans fed

end Delivery

/-- A scan with one worker that nobody cancels hands over the batches of the source in order. -/
theorem Source.push_of_one {source : Source} {consumers : Consumers World}
    (one : consumers.width = 1) (unstopped : ∀ world, consumers.stops world = false)
    {batchSize : Nat} {projection : Option (List String)} {batches : List Batch}
    (read : source.batches batchSize projection = .ok batches) (world : World) :
    ((source.push consumers batchSize projection false world).outcome,
      (source.push consumers batchSize projection false world).world) =
        consumers.feed batches world := by
  cases source with
  | memory table =>
    obtain ⟨load, prepared, read⟩ := bind_eq_ok_iff.mp read
    obtain ⟨loaded, loads, same⟩ := bind_eq_ok_iff.mp read
    cases same
    simp only [push, MemoryTable.push, prepared]
    let delivery : Delivery (List Batch) World := { consumers with load }
    exact Delivery.run_of_loaded delivery one unstopped loads world
  | file table content =>
    obtain ⟨⟨groups, load⟩, prepared, read⟩ := bind_eq_ok_iff.mp read
    obtain ⟨loaded, loads, same⟩ := bind_eq_ok_iff.mp read
    cases same
    simp only [push, FileTable.push, prepared]
    let delivery : Delivery RowGroup World := { consumers with load }
    exact Delivery.run_of_loaded delivery one unstopped loads world

end ColumnQuery
