import ColumnQuery.Config.Basic
import ColumnQuery.Metrics.Basic
import ColumnQuery.Optimizer.Registry
import ColumnQuery.Pipeline.Execution
import ColumnQuery.Plan.Validation
import ColumnQuery.Session.Identifier

/-! # Sessions

A session turns plans into queries: it validates a plan, optimizes it and compiles it. It keeps the
metrics of all the queries that it runs. A query runs once. Whether it finishes or fails, what its
scan did is recorded, and then the query itself; a query that is not planned any more is refused,
and nothing changes.
-/

namespace ColumnQuery

/-- What queries are made with, and the record of what they did. -/
structure Session where
  config : EngineConfig
  optimizer : Optimizer
  strategies : StrategyRegistry
  metrics : Metrics
  numbering : Numbering

/-- A compiled plan and where it stands. -/
structure Query where
  id : Identifier
  scan : Scan
  state : QueryState
  /-- Whether somebody has asked for the query to be cancelled. -/
  cancelled : Bool
  deriving DecidableEq, Repr

/-- The instant after an attempt to run a query. -/
structure QueryRun (σ : Type) where
  outcome : Except Fault Unit
  query : Query
  session : Session
  /-- What the sink keeps. -/
  held : σ

namespace Session

/-- A session without registered rules that has not done anything. -/
def start (config : EngineConfig) : Session :=
  ⟨config, .empty, .standard, .empty, .start⟩

/-- Validate a plan, optimize it and compile it. -/
def compile (session : Session) (plan : Plan) : Except Error Scan := do
  plan.validate
  (← session.optimizer.optimize plan).compile session.strategies

def createQuery (session : Session) (plan : Plan) : Except Error Query × Session :=
  match session.compile plan with
  | .error error => (.error error, session)
  | .ok scan =>
    let (id, numbering) := session.numbering.issue
    (.ok ⟨id, scan, .planned, false⟩, { session with numbering })

end Session

/-- The word for a state in which a query has ended. -/
def QueryState.ending? : QueryState → Option String
  | planned | executing => none
  | finished => some finished.name
  | failed => some failed.name

/-- The state that an outcome leads to. A misuse breaks off the run where it is. -/
def QueryState.after : Except Fault Unit → QueryState
  | .ok () => finished
  | .error (.error _) => failed
  | .error (.misuse _) => executing

/-- The recordings that a query of a state contributes by itself. -/
def QueryState.recordings (state : QueryState) (seconds : Binary64) : List Recording :=
  state.ending?.toList.map fun outcome => .query outcome seconds

namespace Query

def cancel (query : Query) : Query := { query with cancelled := true }

variable {σ : Type}

/-- Run a query over a source, into a sink. The run takes some seconds. -/
def execute (query : Query) (session : Session) (orders : Nat → DrainOrder) (sink : Sink σ)
    (source : Source) (seconds : Binary64) (held : σ) : QueryRun σ :=
  if query.state = .planned then
    let report :=
      query.scan.execute orders sink source session.config.batchSize query.cancelled held
    let (scan, held) := report.world
    let state := QueryState.after report.outcome
    let metrics := session.metrics.recordScan source.label report.partitions report.batchRows
    { outcome := report.outcome
      query := { query with scan, state, cancelled := query.cancelled || sink.stops held }
      session := { session with metrics := metrics.record (state.recordings seconds) }
      held }
  else
    { outcome := .error (.error (.alreadyStarted query.id.number.toNat query.state))
      query, session, held }

end Query

end ColumnQuery
