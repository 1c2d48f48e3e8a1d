import ColumnQuery.Plan.Builder
import ColumnQuery.Session.Basic
import ColumnQuery.Text.Table

/-! # Frames

A frame is a table with the operations to apply to it. Operations only extend the plan; collecting
the rows builds the plan with an output on top, runs it as a query of a session and hands over the
batches as records.
-/

namespace ColumnQuery

/-- A table and a plan under construction over it. -/
structure Frame where
  source : Source
  builder : PlanBuilder
  deriving DecidableEq

namespace Frame

/-- All rows of a source, which is displayed under a name. -/
def ofSource (name : String) (source : Source) : Frame :=
  ⟨source, PlanBuilder.empty.input ⟨name, source.schema, none⟩⟩

def project (frame : Frame) (exprs : List Expr) : Frame :=
  { frame with builder := frame.builder.project exprs }

def filter (frame : Frame) (predicate : Expr) : Frame :=
  { frame with builder := frame.builder.filter predicate }

def aggregate (frame : Frame) (groups aggregates : List Expr) : Frame :=
  { frame with builder := frame.builder.aggregate groups aggregates }

/-- The plan without an output. -/
def logicalPlan (frame : Frame) : Except Error Plan := frame.builder.build

/-- The plan without an output, optimized. -/
def optimizedPlan (frame : Frame) (session : Session) : Except Error Plan := do
  session.optimizer.optimize (← frame.logicalPlan)

/-- The plan that is run. -/
def outputPlan (frame : Frame) : Except Error Plan := frame.builder.output.build

def physicalPlan (frame : Frame) (session : Session) : Except Error Scan := do
  session.compile (← frame.outputPlan)

variable {σ : Type}

/-- Run a frame into a sink. The run takes some seconds. -/
def collectWith (frame : Frame) (session : Session) (orders : Nat → DrainOrder) (sink : Sink σ)
    (seconds : Binary64) (held : σ) : Except Fault Unit × Session × σ :=
  match frame.outputPlan with
  | .error error => (.error (.error error), session, held)
  | .ok plan =>
    match session.createQuery plan with
    | (.error error, session) => (.error (.error error), session, held)
    | (.ok query, session) =>
      let run := query.execute session orders sink frame.source seconds held
      (run.outcome, run.session, run.held)

def collect (frame : Frame) (session : Session) (orders : Nat → DrainOrder) (seconds : Binary64) :
    Except Fault (List RecordSet) × Session :=
  match frame.collectWith session orders .handOver seconds [] with
  | (.ok (), session, held) => (.ok held.reverse, session)
  | (.error fault, session, _) => (.error fault, session)

def tableLines (frame : Frame) (session : Session) (orders : Nat → DrainOrder)
    (seconds : Binary64) : Except Fault (List String) × Session :=
  let (collected, session) := frame.collect session orders seconds
  (collected.map fun records => (TextTable.ofRecords records).lines, session)

end Frame

end ColumnQuery
