import ColumnQuery.Pipeline.Sink
import ColumnQuery.Pipeline.Stage

/-! # Chains of stages

The stages of a query form a chain that ends in a sink. A batch that enters the chain goes through
as many stages as hand it on. When the input ends, each stage closes in turn, and what it hands on
goes through the stages after it before they close. A failure stops the batch where it is; all
stages and the sink keep what they have.
-/

namespace ColumnQuery

variable {σ : Type}

/-- Push a batch through some stages into a sink. -/
def push (sink : Sink σ) : List Stage → Batch → σ → Except Fault Unit × List Stage × σ
  | [], batch, held =>
    let (outcome, held) := sink.accept batch held
    (liftError outcome, [], held)
  | stage :: rest, batch, held =>
    match stage.receive batch with
    | (.error fault, stage) => (.error fault, stage :: rest, held)
    | (.ok none, stage) => (.ok (), stage :: rest, held)
    | (.ok (some batch), stage) =>
      let (outcome, rest, held) := push sink rest batch held
      (outcome, stage :: rest, held)

@[simp] theorem length_push (sink : Sink σ) (stages : List Stage) (batch : Batch) (held : σ) :
    (push sink stages batch held).2.1.length = stages.length := by
  induction stages generalizing batch held with
  | nil => rfl
  | cons stage rest ih =>
    unfold push
    split <;> simp [*]

/-- Close some stages, first to last. -/
def finish (order : DrainOrder) (sink : Sink σ) (stages : List Stage) (held : σ) :
    Except Fault Unit × List Stage × σ :=
  match stages with
  | [] => (.ok (), [], held)
  | stage :: rest =>
    match stage.close order rest.length with
    | (.error fault, stage) => (.error fault, stage :: rest, held)
    | (.ok none, stage) =>
      let (outcome, rest, held) := finish order sink rest held
      (outcome, stage :: rest, held)
    | (.ok (some batch), stage) =>
      match pushed : push sink rest batch held with
      | (.error fault, next, held) => (.error fault, stage :: next, held)
      | (.ok (), next, held) =>
        have sameLength : next.length = rest.length := by
          rw [← length_push sink rest batch, pushed]
        let (outcome, next, held) := finish order sink next held
        (outcome, stage :: next, held)
  termination_by stages.length
  decreasing_by
    · simp
    · simp [sameLength]

/-- Stages in the order of the data, and the schema of the batches that reach the sink. -/
structure Chain where
  stages : List Stage
  output : Schema
  deriving DecidableEq, Repr

namespace Chain

def push (sink : Sink σ) (chain : Chain) (batch : Batch) (held : σ) :
    Except Fault Unit × Chain × σ :=
  let (outcome, stages, held) := ColumnQuery.push sink chain.stages batch held
  (outcome, { chain with stages }, held)

def finish (order : DrainOrder) (sink : Sink σ) (chain : Chain) (held : σ) :
    Except Fault Unit × Chain × σ :=
  let (outcome, stages, held) := ColumnQuery.finish order sink chain.stages held
  (outcome, { chain with stages }, held)

/-- The kind of the first operator. -/
def name (chain : Chain) : String := chain.stages.head?.elim "Output" Stage.name

def headlines (chain : Chain) : List String := chain.stages.map Stage.headline ++ ["Output"]

/-- The kinds of the operators of a chain with the schemas of their results. -/
def nodes (chain : Chain) : List (String × Schema) :=
  chain.stages.map (fun stage => (stage.name, stage.schema)) ++ [("Output", chain.output)]

def groupCounts (chain : Chain) : List Nat := chain.stages.filterMap Stage.groupCount?

end Chain

end ColumnQuery
