import ColumnQuery.Proofs.Pipeline.Driving
import ColumnQuery.Proofs.Pipeline.Interchange

/-! # Strategies are interchangeable

An aggregation that runs with a hash table and one that runs with an ordered table answer every
event alike, also one that fails, and hold as many groups. When they close, each hands on one batch
with the same rows; the ordered one has them ascending by key. It does not matter in which order the
hash table gives up its groups.
-/

namespace ColumnQuery

variable {σ τ : Type}

/-- What happens to a running chain: a batch comes, or the input ends, with hash tables that drain
in a given order. -/
inductive ChainEvent where
  | receive (batch : Batch)
  | close (order : DrainOrder)

def Chain.respond (sink : Sink σ) (chain : Chain) (held : σ) :
    ChainEvent → Except Fault Unit × Chain × σ
  | .receive batch => chain.push sink batch held
  | .close order => chain.finish order sink held

/-- A chain and its sink after some events, whatever the chain has answered. -/
def Chain.after (sink : Sink σ) (chain : Chain) (held : σ) : List ChainEvent → Chain × σ
  | [] => (chain, held)
  | event :: events =>
    let answer := chain.respond sink held event
    answer.2.1.after sink answer.2.2 events

/-- What a chain answers to some events, one after the other, with what the sink keeps after
each. -/
def Chain.answers (sink : Sink σ) (chain : Chain) (held : σ) :
    List ChainEvent → List (Except Fault Unit × σ)
  | [] => []
  | event :: events =>
    let answer := chain.respond sink held event
    (answer.1, answer.2.2) :: answer.2.1.answers sink answer.2.2 events

namespace Aggregation

/-- A chain of a single aggregation. -/
def chain (aggregation : Aggregation) (output : Schema) (table : GroupTable) : Chain :=
  ⟨[.aggregate aggregation table], output⟩

/-- Two answers to an event have the same outcome and leave as many groups. A batch that comes is
not handed on. At the end one batch is, of the same rows in both, unless the schema has a type that
no column can hold. -/
structure AnswersAlike (aggregation : Aggregation) (left : Sink σ) (right : Sink τ) (held : σ)
    (kept : τ) (event : ChainEvent) (answer : Except Fault Unit × Chain × σ)
    (other : Except Fault Unit × Chain × τ) : Prop where
  outcome : answer.1 = other.1
  groups : answer.2.1.groupCounts = other.2.1.groupCounts
  handed : match event with
    | .receive _ => answer.2.2 = held ∧ other.2.2 = kept
    | .close _ =>
      (aggregation.schema.IsSupported ∧ answer.1 = .ok () ∧
        ∃ batch sorted, aggregation.SameGroups batch sorted ∧
          answer.2.2 = left.keptAfter [batch] held ∧ other.2.2 = right.keptAfter [sorted] kept) ∨
      ∃ type ∈ aggregation.schema.types, type.isSupported = false ∧
        answer.1 = .error (.error (.unsupportedElement type)) ∧
        answer.2.2 = held ∧ other.2.2 = kept

variable {aggregation : Aggregation} (output : Schema)

private theorem respond_receive (sink : Sink σ) (table : GroupTable) (batch : Batch) (held : σ) :
    (aggregation.chain output table).respond sink held (.receive batch) =
      ((aggregation.absorb table batch).1,
        aggregation.chain output (aggregation.absorb table batch).2, held) := by
  simp only [Chain.respond, Chain.push, chain, push, Stage.receive]
  rcases aggregation.absorb table batch with ⟨fault | _, next⟩ <;> rfl

section Close

variable {order : DrainOrder} {table emptied : GroupTable}

private theorem respond_close_ok {sink : Sink σ} (total : sink.IsTotal) {batch : Batch}
    (flushed : aggregation.flush order 0 table = (.ok batch, emptied)) (held : σ) :
    (aggregation.chain output table).respond sink held (.close order) =
      (.ok (), aggregation.chain output emptied, sink.keptAfter [batch] held) := by
  simp only [Chain.respond, Chain.finish, chain, finish_cons, List.length_nil, Stage.close, flushed,
    Except.map, push, total.accept_eq, liftError_ok]
  rw [finish]

private theorem respond_close_error {sink : Sink σ} {fault : Fault}
    (flushed : aggregation.flush order 0 table = (.error fault, emptied)) (held : σ) :
    (aggregation.chain output table).respond sink held (.close order) =
      (.error fault, aggregation.chain output emptied, held) := by
  simp only [Chain.respond, Chain.finish, chain, finish_cons, List.length_nil, Stage.close, flushed,
    Except.map]

end Close

section Step

variable {input : Schema} {groupTypes resultTypes : List DataType} {fresh : List Accumulator}
  {hash ordered : GroupTable} {left : Sink σ} {right : Sink τ}

/-- Tables that are in step answer an event alike and stay in step. -/
theorem InStep.respond (bound : aggregation.IsBound input groupTypes resultTypes)
    (created : aggregation.newAccumulators = .ok fresh)
    (yields : Accumulator.YieldEach fresh resultTypes) (leftTotal : left.IsTotal)
    (rightTotal : right.IsTotal) (inStep : InStep groupTypes resultTypes hash ordered)
    {event : ChainEvent} (ofInput : ∀ batch, event = .receive batch → batch.schema = input)
    (held : σ) (kept : τ) :
    aggregation.AnswersAlike left right held kept event
        ((aggregation.chain output hash).respond left held event)
        ((aggregation.chain output ordered).respond right kept event) ∧
      ∃ nextHash nextOrdered, InStep groupTypes resultTypes nextHash nextOrdered ∧
        ((aggregation.chain output hash).respond left held event).2.1 =
          aggregation.chain output nextHash ∧
        ((aggregation.chain output ordered).respond right kept event).2.1 =
          aggregation.chain output nextOrdered := by
  have sameCounts {hash ordered : GroupTable}
      (inStep : InStep groupTypes resultTypes hash ordered) :
      (aggregation.chain output hash).groupCounts =
        (aggregation.chain output ordered).groupCounts :=
    congrArg (fun size => [size]) inStep.agrees.perm.length_eq
  cases event with
  | receive batch =>
    obtain rfl := ofInput batch rfl
    obtain ⟨same, next⟩ := inStep.absorb bound created yields
    rw [respond_receive, respond_receive]
    exact ⟨⟨same, sameCounts next, rfl, rfl⟩, _, _, next, rfl, rfl⟩
  | close order =>
    by_cases supported : aggregation.schema.IsSupported
    · obtain ⟨batch, sorted, flushed, sortedFlushed, same⟩ :=
        flush_of_inStep bound created yields supported inStep order 0
      rw [respond_close_ok output leftTotal flushed,
        respond_close_ok output rightTotal sortedFlushed]
      exact ⟨⟨rfl, rfl, .inl ⟨supported, rfl, batch, sorted, same, rfl, rfl⟩⟩, _, _,
        inStep_empty, rfl, rfl⟩
    · obtain ⟨type, isMember, refused, flushed, sortedFlushed⟩ :=
        flush_of_unsupported bound supported inStep order 0
      rw [respond_close_error output flushed, respond_close_error output sortedFlushed]
      exact ⟨⟨rfl, rfl, .inr ⟨type, isMember, refused, rfl, rfl, rfl⟩⟩, _, _, inStep_empty, rfl,
        rfl⟩

/-- Tables that are in step are so after any events. -/
theorem InStep.after (bound : aggregation.IsBound input groupTypes resultTypes)
    (created : aggregation.newAccumulators = .ok fresh)
    (yields : Accumulator.YieldEach fresh resultTypes) (leftTotal : left.IsTotal)
    (rightTotal : right.IsTotal) (inStep : InStep groupTypes resultTypes hash ordered)
    {events : List ChainEvent}
    (ofInput : ∀ batch, .receive batch ∈ events → batch.schema = input) (held : σ) (kept : τ) :
    ∃ nextHash nextOrdered, InStep groupTypes resultTypes nextHash nextOrdered ∧
      ((aggregation.chain output hash).after left held events).1 =
        aggregation.chain output nextHash ∧
      ((aggregation.chain output ordered).after right kept events).1 =
        aggregation.chain output nextOrdered := by
  induction events generalizing hash ordered held kept with
  | nil => exact ⟨hash, ordered, inStep, rfl, rfl⟩
  | cons event events ih =>
    obtain ⟨-, nextHash, nextOrdered, next, hashNext, orderedNext⟩ :=
      inStep.respond output bound created yields leftTotal rightTotal
        (fun batch isEvent => ofInput batch (isEvent ▸ List.mem_cons_self)) held kept
    rw [Chain.after, Chain.after, hashNext, orderedNext]
    exact ih next (fun batch isMember => ofInput batch (List.mem_cons_of_mem _ isMember)) _ _

end Step

/-- An aggregation is built with either strategy, and the two answer any event alike after any
events, whether these have failed or not. -/
theorem strategies_interchange {input : Schema} {groupTypes resultTypes : List DataType}
    (bound : aggregation.IsBound input groupTypes resultTypes) :
    ∃ hash ordered, GroupStrategy.hash.build aggregation = .ok hash ∧
      GroupStrategy.ordered.build aggregation = .ok ordered ∧
      ∀ {σ τ : Type} (left : Sink σ) (right : Sink τ), left.IsTotal → right.IsTotal →
        ∀ (held : σ) (kept : τ) (events : List ChainEvent) (event : ChainEvent),
          (∀ batch, .receive batch ∈ events ++ [event] → batch.schema = input) →
          let hashed := Chain.after left ⟨[hash], output⟩ held events
          let sorted := Chain.after right ⟨[ordered], output⟩ kept events
          aggregation.AnswersAlike left right hashed.2 sorted.2 event
            (hashed.1.respond left hashed.2 event) (sorted.1.respond right sorted.2 event) := by
  obtain ⟨fresh, created, yields⟩ := exists_newAccumulators bound
  refine ⟨.aggregate aggregation (.empty .hash), .aggregate aggregation (.empty .ordered),
    build_of_newAccumulators created .hash, build_of_newAccumulators created .ordered, ?_⟩
  intro σ τ left right leftTotal rightTotal held kept events event ofInput
  obtain ⟨hash, ordered, inStep, hashed, sorted⟩ := inStep_empty.after output bound created yields
    leftTotal rightTotal
    (fun batch isMember => ofInput batch (List.mem_append_left _ isMember)) held kept
  have last (batch : Batch) (isEvent : event = .receive batch) : batch.schema = input :=
    ofInput batch (isEvent ▸ List.mem_append_right _ (List.mem_singleton.mpr rfl))
  rw [chain] at hashed sorted
  dsimp only
  rw [hashed, sorted]
  exact (inStep.respond output bound created yields leftTotal rightTotal last _ _).1

section Readings

/-- Readings, grouped by value and counted. -/
def readings : Aggregation where
  groups := [.column 0 .float64]
  aggregates := [⟨.count, .column 0 .float64, .float64⟩]
  schema := ⟨[⟨"reading", .float64, true⟩, ⟨"count", .int64, true⟩]⟩

/-- Both zeros and a null. -/
def readingBatch : Batch where
  schema := ⟨[⟨"reading", .float64, true⟩]⟩
  columns := [⟨.float64, [.float64 ⟨0x8000000000000000⟩, .null, .float64 ⟨0⟩], rfl, by decide⟩]
  rowCount := 3
  matching := ⟨rfl, by decide⟩

/-- The counts of the readings are the same with both strategies. -/
theorem strategies_interchange_readings :
    readings.IsBound readingBatch.schema [.float64] [.int64] ∧
      ∃ hash ordered, GroupStrategy.hash.build readings = .ok hash ∧
        GroupStrategy.ordered.build readings = .ok ordered ∧
        let hashed := Chain.after Sink.gather ⟨[hash], readings.schema⟩ [] [.receive readingBatch]
        let sorted := Chain.after Sink.gather ⟨[ordered], readings.schema⟩ []
          [.receive readingBatch]
        ∀ order, readings.AnswersAlike Sink.gather Sink.gather hashed.2 sorted.2 (.close order)
          (hashed.1.finish order Sink.gather hashed.2)
          (sorted.1.finish order Sink.gather sorted.2) := by
  have bound : readings.IsBound readingBatch.schema [.float64] [.int64] :=
    ⟨.cons ⟨rfl, fun _ same => (Except.ok.inj same).symm⟩ .nil, .cons rfl .nil, rfl⟩
  have total : Sink.gather.IsTotal := ⟨fun _ _ => rfl, fun _ => rfl⟩
  obtain ⟨hash, ordered, built, orderedBuilt, alike⟩ :=
    strategies_interchange readings.schema bound
  refine ⟨bound, hash, ordered, built, orderedBuilt, fun order => ?_⟩
  refine alike _ _ total total [] [] [.receive readingBatch] (.close order) ?_
  intro batch isMember
  rcases List.mem_cons.mp isMember with same | last
  · cases same
    rfl
  · cases List.mem_singleton.mp last

/-- Groups of a type that no column can hold. -/
def byteGroups : Aggregation where
  groups := [.column 0 .int8]
  aggregates := []
  schema := ⟨[⟨"byte", .int8, true⟩]⟩

/-- An aggregation by values that no column can hold closes with an error and hands on nothing. -/
theorem byteGroups_hand_on_nothing :
    byteGroups.IsBound byteGroups.schema [.int8] [] ∧
      ∃ hash, GroupStrategy.hash.build byteGroups = .ok hash ∧
        Chain.finish .opening Sink.gather ⟨[hash], byteGroups.schema⟩ [] =
          (.error (.error (.unsupportedElement .int8)), ⟨[hash], byteGroups.schema⟩, []) := by
  refine ⟨⟨.cons ⟨rfl, fun _ same => (Except.ok.inj same).symm⟩ .nil, .nil, rfl⟩, _, rfl, ?_⟩
  unfold Chain.finish finish
  rfl

end Readings

end Aggregation

end ColumnQuery
