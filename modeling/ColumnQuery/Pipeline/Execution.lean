import ColumnQuery.Pipeline.Compile
import ColumnQuery.Source.Basic

/-! # Running a scan

A scan delivers the batches of its source to its chains, one worker per chain. Only when the whole
delivery has succeeded are the chains closed, in order, up to the first failure. The hash tables of
each chain drain in an order of their own.
-/

namespace ColumnQuery

variable {σ : Type}

/-- The chains of a scan as consumers, all feeding one sink. -/
def Consumers.ofChains (sink : Sink σ) (width : Nat) : Consumers (List Chain × σ) where
  width := width
  handOver worker batch world :=
    match world.1[worker]? with
    | none => (.ok (), world)
    | some chain =>
      let (outcome, chain, held) := chain.push sink batch world.2
      (outcome, world.1.set worker chain, held)
  stops world := sink.stops world.2

/-- Close some chains in order, up to the first failure. The drain order of a chain goes by the
number of chains after it. -/
def finishAll (orders : Nat → DrainOrder) (sink : Sink σ) :
    List Chain → σ → Except Fault Unit × List Chain × σ
  | [], held => (.ok (), [], held)
  | chain :: rest, held =>
    match chain.finish (orders rest.length) sink held with
    | (.error fault, chain, held) => (.error fault, chain :: rest, held)
    | (.ok (), chain, held) =>
      let (outcome, rest, held) := finishAll orders sink rest held
      (outcome, chain :: rest, held)

def Scan.execute (scan : Scan) (orders : Nat → DrainOrder) (sink : Sink σ) (source : Source)
    (batchSize : Nat) (cancelled : Bool) (held : σ) : Delivery.Report (Scan × σ) :=
  let delivered := source.push (.ofChains sink scan.children.length) batchSize scan.projection
    cancelled (scan.children, held)
  let (children, held) := delivered.world
  match delivered.outcome with
  | .error fault =>
    { delivered with
      outcome := .error fault
      world := ({ scan with children }, held) }
  | .ok () =>
    let (outcome, children, held) := finishAll orders sink children held
    { delivered with
      outcome
      world := ({ scan with children }, held) }

namespace PhysicalPlan

/-- Push a batch into a plan, which a scan does not take. -/
def receive (sink : Sink σ) (plan : PhysicalPlan) (batch : Batch) (held : σ) :
    Except Fault Unit × PhysicalPlan × σ :=
  match plan with
  | scan _ => (.error (.misuse .callbackOnScan), plan, held)
  | chain stages =>
    let (outcome, stages, held) := stages.push sink batch held
    (outcome, .chain stages, held)

/-- Close a plan, which a scan does by itself. -/
def close (order : DrainOrder) (sink : Sink σ) (plan : PhysicalPlan) (held : σ) :
    Except Fault Unit × PhysicalPlan × σ :=
  match plan with
  | scan _ => (.error (.misuse .finishOnScan), plan, held)
  | chain stages =>
    let (outcome, stages, held) := stages.finish order sink held
    (outcome, .chain stages, held)

/-- Run a plan, which only a scan can do. -/
def execute (orders : Nat → DrainOrder) (sink : Sink σ) (plan : PhysicalPlan) (source : Source)
    (batchSize : Nat) (cancelled : Bool) (held : σ) : Except Fault Unit × PhysicalPlan × σ :=
  match plan with
  | chain stages => (.error (.misuse (.executeOn stages.name)), plan, held)
  | scan driver =>
    let report := driver.execute orders sink source batchSize cancelled held
    (report.outcome, .scan report.world.1, report.world.2)

end PhysicalPlan

end ColumnQuery
