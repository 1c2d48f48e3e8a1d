import ColumnQuery.Batch

/-! # Sinks

A sink receives the batches that a query produces. It may refuse a batch, and it may ask for the
query to be cancelled. `σ` is what it keeps.
-/

namespace ColumnQuery

/-- The receiver of the batches of a query. -/
structure Sink (σ : Type) where
  /-- Take a batch or refuse it. -/
  accept : Batch → σ → Except Error Unit × σ
  /-- Whether the sink has asked for the query to be cancelled. -/
  stops : σ → Bool

namespace Sink

def discard : Sink Unit where
  accept _ _ := (.ok (), ())
  stops _ := false

/-- Keep every batch, the latest first. -/
def gather : Sink (List Batch) where
  accept batch held := (.ok (), batch :: held)
  stops _ := false

/-- Keep every batch as it is handed to a client, the latest first. A batch with a null in a
required field is refused. -/
def handOver : Sink (List RecordSet) where
  accept batch held :=
    match batch.toRecordSet with
    | .ok records => (.ok (), records :: held)
    | .error error => (.error error, held)
  stops _ := false

end Sink

end ColumnQuery
