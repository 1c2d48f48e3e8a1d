import ColumnQuery.Proofs.Pipeline.Answers

/-! # A chain that has closed is as new

The stages of a chain keep nothing but the groups of their aggregations, and no event changes how a
stage is set up. When a chain closes, each aggregation gives up its groups before the stages after
it do, and what it hands on can only reach those. So when all stages have closed, no aggregation
has groups left, also not from a batch that had failed half way, and the chain answers further
events as if it had just been linked. When a stage fails to close, those after it keep their groups,
but the first aggregation has none.
-/

namespace ColumnQuery

variable {σ τ : Type}

/-- A stage as it was built, without groups. -/
def Stage.renewed : Stage → Stage
  | project exprs schema => project exprs schema
  | filter predicate schema => filter predicate schema
  | aggregate aggregation table => aggregate aggregation (.empty table.strategy)

namespace Chain

/-- A chain as it was linked: its aggregations have no groups. -/
def IsFresh (chain : Chain) : Prop := ∀ count ∈ chain.groupCounts, count = 0

end Chain

namespace Stage

@[simp] theorem renewed_renewed (stage : Stage) : stage.renewed.renewed = stage.renewed := by
  cases stage <;> rfl

private theorem renewed_of_groupless {stage : Stage}
    (groupless : ∀ count ∈ stage.groupCount?, count = 0) : stage.renewed = stage := by
  cases stage with
  | project | filter => rfl
  | aggregate aggregation table =>
    obtain ⟨strategy, entries⟩ := table
    obtain rfl : entries = [] := List.length_eq_zero_iff.mp (groupless _ rfl)
    rfl

/-- A stage that receives a batch stays set up as it was. -/
theorem renewed_receive (stage : Stage) (batch : Batch) :
    (stage.receive batch).2.renewed = stage.renewed := by
  cases stage with
  | project | filter => rfl
  | aggregate aggregation table =>
    simp only [receive, renewed, Aggregation.absorb]
    cases aggregation.contributions batch with
    | error fault => rfl
    | ok rows =>
      exact congrArg (aggregate aggregation <| .empty ·)
        (Aggregation.strategy_absorbRows rows table)

/-- A stage gives up its groups when it closes, whether it can hand them on or not. -/
theorem close_eq_renewed (order : DrainOrder) (later : Nat) (stage : Stage) :
    (stage.close order later).2 = stage.renewed := by
  cases stage <;> rfl

/-- A stage that holds no groups, not even none, hands nothing on when it closes. -/
theorem close_of_uncounted {stage : Stage} (uncounted : stage.groupCount? = none)
    (order : DrainOrder) (later : Nat) : stage.close order later = (.ok none, stage) := by
  cases stage with
  | project | filter => rfl
  | aggregate => cases uncounted

end Stage

/-- Stages that a batch goes through stay set up as they were. -/
theorem renewed_push (sink : Sink σ) (stages : List Stage) (batch : Batch) (held : σ) :
    (push sink stages batch held).2.1.map Stage.renewed = stages.map Stage.renewed := by
  induction stages generalizing batch held with
  | nil => rfl
  | cons stage rest ih =>
    have same := stage.renewed_receive batch
    rw [push]
    generalize stage.receive batch = received at same ⊢
    rcases received with ⟨fault | _ | next, after⟩
    · exact congrArg (· :: rest.map Stage.renewed) same
    · exact congrArg (· :: rest.map Stage.renewed) same
    · exact congrArg₂ List.cons same (ih next held)

/-- What closing leaves of some stages: their set-up, no groups if it has succeeded, and in any case
none in the first aggregation. -/
structure Closes (outcome : Except Fault Unit) (stages after : List Stage) : Prop where
  setUp : after.map Stage.renewed = stages.map Stage.renewed
  emptied : outcome = .ok () → after = stages.map Stage.renewed
  first : ∀ count ∈ (after.filterMap Stage.groupCount?).head?, count = 0

namespace Closes

variable {outcome : Except Fault Unit} {stage : Stage} {rest after : List Stage}

theorem pass (uncounted : stage.groupCount? = none) (closes : Closes outcome rest after) :
    Closes outcome (stage :: rest) (stage :: after) where
  setUp := congrArg (stage.renewed :: ·) closes.setUp
  emptied success := by
    rw [List.map_cons, ← closes.emptied success, Stage.renewed_of_groupless (by simp [uncounted])]
  first := by
    rw [List.filterMap_cons_none uncounted]
    exact closes.first

theorem drained {count : Nat} (counted : stage.groupCount? = some count)
    (setUp : after.map Stage.renewed = rest.map Stage.renewed)
    (emptied : outcome = .ok () → after = rest.map Stage.renewed) :
    Closes outcome (stage :: rest) (stage.renewed :: after) where
  setUp := by rw [List.map_cons, List.map_cons, Stage.renewed_renewed, setUp]
  emptied success := congrArg (stage.renewed :: ·) (emptied success)
  first := by
    cases stage with
    | project | filter => cases counted
    | aggregate => exact fun count isCount => (Option.some.inj isCount).symm

end Closes

private theorem closes_finish (order : DrainOrder) (sink : Sink σ) (stages : List Stage)
    (held : σ) :
    Closes (finish order sink stages held).1 stages (finish order sink stages held).2.1 := by
  -- a batch that is pushed changes the later stages before they close, but not their set-up
  generalize length : stages.length = count
  induction count generalizing stages held with
  | zero =>
    obtain rfl := List.length_eq_zero_iff.mp length
    rw [finish]
    exact ⟨rfl, fun _ => rfl, fun _ isCount => by cases isCount⟩
  | succ count ih =>
    cases stages with
    | nil => cases length
    | cons stage rest =>
      have restLength : rest.length = count := Nat.succ.inj length
      rw [finish_cons]
      cases counted : stage.groupCount? with
      | none =>
        rw [Stage.close_of_uncounted counted]
        exact (ih rest held restLength).pass counted
      | some size =>
        have closed := stage.close_eq_renewed order rest.length
        generalize stage.close order rest.length = answer at closed ⊢
        obtain ⟨outcome, after⟩ := answer
        obtain rfl : after = stage.renewed := closed
        rcases outcome with fault | _ | batch
        · exact .drained counted rfl fun success => by cases success
        · have later := ih rest held restLength
          exact .drained counted later.setUp later.emptied
        · have setUp := renewed_push sink rest batch held
          have nextLength := length_push sink rest batch held
          dsimp only
          generalize push sink rest batch held = pushed at setUp nextLength ⊢
          rcases pushed with ⟨fault | _, next, held⟩
          · exact .drained counted setUp fun success => by cases success
          · have later := ih next held (nextLength.trans restLength)
            refine .drained counted (later.setUp.trans setUp) fun success => ?_
            exact (later.emptied success).trans setUp

namespace Chain

/-- A chain with the stages that it had when it was linked. -/
def renewed (chain : Chain) : Chain := { chain with stages := chain.stages.map Stage.renewed }

private theorem renewed_of_isFresh {chain : Chain} (fresh : chain.IsFresh) :
    chain.renewed = chain := by
  have same : chain.stages.map Stage.renewed = chain.stages.map id := by
    refine List.map_congr_left fun stage isStage => Stage.renewed_of_groupless ?_
    intro count counted
    exact fresh count (List.mem_filterMap.mpr ⟨stage, isStage, counted⟩)
  rw [renewed, same, List.map_id]

/-- No event changes how a chain is set up. -/
theorem renewed_respond (sink : Sink σ) (chain : Chain) (held : σ) (event : ChainEvent) :
    (chain.respond sink held event).2.1.renewed = chain.renewed := by
  cases event with
  | receive batch => exact congrArg (Chain.mk · chain.output) (renewed_push sink _ batch held)
  | close order =>
    exact congrArg (Chain.mk · chain.output) (closes_finish order sink _ held).setUp

private theorem renewed_after (sink : Sink σ) (chain : Chain) (held : σ)
    (events : List ChainEvent) :
    (chain.after sink held events).1.renewed = chain.renewed := by
  induction events generalizing chain held with
  | nil => rfl
  | cons event events ih => exact (ih _ _).trans (renewed_respond sink chain held event)

/-- A chain that has closed is as it was when it was linked, whatever has happened to it before: no
aggregation has groups left, and all further events are answered as by the chain when it was
new, into any sink. If closing has failed, the first aggregation at least has no groups left. -/
theorem finish_renews {chain : Chain} (fresh : chain.IsFresh) (sink : Sink σ) (held : σ)
    (events : List ChainEvent) (order : DrainOrder) :
    let running := chain.after sink held events
    let closed := running.1.respond sink running.2 (.close order)
    (closed.1 = .ok () → closed.2.1.IsFresh ∧
      ∀ {τ : Type} (other : Sink τ) (kept : τ) (later : List ChainEvent),
        closed.2.1.answers other kept later = chain.answers other kept later) ∧
      ∀ count ∈ closed.2.1.groupCounts.head?, count = 0 := by
  intro running closed
  have closes := closes_finish order sink running.1.stages running.2
  refine ⟨fun success => ?_, closes.first⟩
  have renewed : closed.2.1 = chain := by
    have emptied : closed.2.1 = running.1.renewed :=
      congrArg (Chain.mk · running.1.output) (closes.emptied success)
    rw [emptied, renewed_after, renewed_of_isFresh fresh]
  exact ⟨renewed ▸ fresh, fun other kept later => by rw [renewed]⟩

section Totals

/-- The total of some amounts. -/
def totalOfAmounts : Aggregation where
  groups := []
  aggregates := [⟨.sum, .column 0 .int64, .int64⟩]
  schema := ⟨[⟨"total", .int64, true⟩]⟩

/-- How often each total occurs. -/
def countOfTotals : Aggregation where
  groups := [.column 0 .int64]
  aggregates := [⟨.count, .column 0 .int64, .int64⟩]
  schema := ⟨[⟨"total", .int64, true⟩, ⟨"count", .int64, true⟩]⟩

def totalsChain : Chain where
  stages := [.aggregate totalOfAmounts (.empty .hash), .aggregate countOfTotals (.empty .ordered)]
  output := countOfTotals.schema

/-- Amounts whose total leaves 64 bits. -/
def hugeAmounts : Batch where
  schema := ⟨[⟨"amount", .int64, true⟩]⟩
  columns := [⟨.int64, [.int64 Int64.maxValue, .int64 1], DataType.isSupported_int64, by decide⟩]
  rowCount := 2
  matching := ⟨rfl, by decide⟩

/-- A chain of two aggregations is as new after a batch that has failed half way and has left a
group. -/
theorem finish_renews_totals :
    totalsChain.IsFresh ∧
      totalsChain.answers Sink.gather [] [.receive hugeAmounts] =
        [(.error (.error .sumOverflow), [])] ∧
      let running := totalsChain.after Sink.gather [] [.receive hugeAmounts]
      let closed := running.1.respond Sink.gather running.2 (.close .opening)
      running.1.groupCounts = [1, 0] ∧ closed.1 = .ok () ∧ closed.2.1.IsFresh ∧
        ∀ {τ : Type} (other : Sink τ) (kept : τ) (later : List ChainEvent),
          closed.2.1.answers other kept later = totalsChain.answers other kept later := by
  have fresh : totalsChain.IsFresh := by
    unfold Chain.IsFresh
    decide
  obtain ⟨renewed, -⟩ :=
    finish_renews fresh Sink.gather [] [.receive hugeAmounts] .opening
  refine ⟨fresh, by decide +kernel, ?_⟩
  intro running closed
  have success : closed.1 = .ok () := by decide +kernel
  exact ⟨by decide +kernel, success, renewed success⟩

end Totals

end Chain

end ColumnQuery
