/-! # States of a query

A query is planned, then executing, and ends finished or failed. It runs once.
-/

namespace ColumnQuery

inductive QueryState where
  | planned
  | executing
  | finished
  | failed
  deriving DecidableEq, Repr

namespace QueryState

def name : QueryState → String
  | planned => "planned"
  | executing => "executing"
  | finished => "finished"
  | failed => "failed"

/-- The steps a query may take. -/
inductive Step : QueryState → QueryState → Prop where
  | start : Step planned executing
  | finish : Step executing finished
  | fail : Step executing failed

end QueryState

end ColumnQuery
