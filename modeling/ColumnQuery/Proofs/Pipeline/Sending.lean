import ColumnQuery.Proofs.Batch.Build
import ColumnQuery.Proofs.Pipeline.Driving
import ColumnQuery.Proofs.Traversal

/-! # What a stage sends on

The stages after a stage see nothing of it but the batches that it sends on, whether these come with
the batches that it receives or when it closes. So the first stage of a chain can be run on its own:
either it makes a list of batches, of its own schema, and the chain goes on with these, or it fails,
and then the chain fails whatever comes after.
-/

namespace ColumnQuery

/-- The schema of the batches that a stage sends on when it receives batches of a schema. -/
def Stage.sends (received : Schema) : Stage → Schema
  | filter _ _ => received
  | project _ schema => schema
  | aggregate aggregation _ => aggregation.schema

namespace Stage

variable {stage after : Stage} {batch next : Batch} {received : Schema}

private theorem sends_receive (stage : Stage) (batch : Batch) :
    (stage.receive batch).2.sends received = stage.sends received := by
  cases stage <;> rfl

/-- What a stage sends on with a batch is of its schema. -/
theorem schema_of_receive (taken : stage.receive batch = (.ok (some next), after)) :
    next.schema = stage.sends batch.schema := by
  have sent := congrArg Prod.fst taken
  cases stage with
  | project exprs schema =>
    obtain ⟨made, projected, same⟩ := map_eq_ok_iff.mp sent
    cases same
    obtain ⟨columns, -, built⟩ := bind_eq_ok_iff.mp projected
    exact (Batch.build_eq_ok_iff.mp (liftError_eq_ok_iff.mp built)).1
  | filter predicate schema =>
    obtain ⟨made, filtered, same⟩ := map_eq_ok_iff.mp sent
    cases same
    obtain ⟨truths, -, filtered⟩ := bind_eq_ok_iff.mp filtered
    obtain ⟨mask, -, shrunk⟩ := bind_eq_ok_iff.mp filtered
    rw [liftError_eq_ok_iff, Batch.shrink] at shrunk
    split at shrunk <;> cases shrunk
    rfl
  | aggregate aggregation table =>
    obtain ⟨_, -, same⟩ := map_eq_ok_iff.mp sent
    cases same

/-- What a stage sends on when it closes is of its schema. -/
theorem schema_of_close {order : DrainOrder} {later : Nat} (received : Schema)
    (closed : stage.close order later = (.ok (some next), after)) :
    next.schema = stage.sends received := by
  have sent := congrArg Prod.fst closed
  cases stage with
  | project | filter => cases sent
  | aggregate aggregation table =>
    obtain ⟨made, flushed, same⟩ := map_eq_ok_iff.mp sent
    cases same
    obtain ⟨entries, -, made⟩ := bind_eq_ok_iff.mp flushed
    obtain ⟨columns, -, built⟩ := bind_eq_ok_iff.mp made
    exact (Batch.build_eq_ok_iff.mp (liftError_eq_ok_iff.mp built)).1

end Stage

/-- Some stages make batches of a schema for a number of later stages, or fail whatever these
are. -/
def SendsOn (order : DrainOrder) (later : Nat) (stages : List Stage) (batches : List Batch)
    (schema : Schema) : Prop :=
  (∃ nexts : List Batch, (∀ next ∈ nexts, next.schema = schema) ∧
      ∀ {σ : Type} (sink : Sink σ) (rest : List Stage), rest.length = later → ∀ held,
        drive order sink batches (stages ++ rest) held = drive order sink nexts rest held) ∨
    ∀ {σ : Type} (sink : Sink σ) (rest : List Stage), rest.length = later → ∀ held,
      (drive order sink batches (stages ++ rest) held).1 ≠ .ok ()

section Sending

variable {order : DrainOrder} {later : Nat} {received schema : Schema} {batches : List Batch}

theorem SendsOn.append {front back : List Stage}
    (sends : SendsOn order (back.length + later) front batches received)
    (sendsOn : ∀ middles : List Batch, (∀ middle ∈ middles, middle.schema = received) →
      SendsOn order later back middles schema) :
    SendsOn order later (front ++ back) batches schema := by
  have longer {rest : List Stage} (length : rest.length = later) :
      (back ++ rest).length = back.length + later := by rw [List.length_append, length]
  simp only [SendsOn, List.append_assoc]
  rcases sends with ⟨middles, ofReceived, driven⟩ | failed
  · rcases sendsOn middles ofReceived with ⟨nexts, sent, drivenOn⟩ | failed
    · refine .inl ⟨nexts, sent, fun sink rest length held => ?_⟩
      rw [driven sink _ (longer length), drivenOn sink rest length]
    · refine .inr fun sink rest length held => ?_
      rw [driven sink _ (longer length)]
      exact failed sink rest length held
  · exact .inr fun sink rest length held => failed sink _ (longer length) held

/-- The first stage of a chain makes batches for the others, or fails whatever the others do. -/
theorem Stage.sendsOn (order : DrainOrder) (later : Nat) (stage : Stage)
    (ofSchema : ∀ batch ∈ batches, batch.schema = received) :
    SendsOn order later [stage] batches (stage.sends received) := by
  -- a stage that has received a batch is another stage, which sends on batches of the same schema
  simp only [SendsOn, List.singleton_append]
  induction batches generalizing stage with
  | nil =>
    rcases closed : stage.close order later with ⟨fault | next, after⟩
    · right
      rintro σ sink rest rfl held
      rw [drive_close, closed]
      rintro ⟨⟩
    · refine .inl ⟨next.toList, fun batch isSent => ?_, ?_⟩
      · rw [Option.mem_toList] at isSent
        rw [Option.mem_def.mp isSent] at closed
        exact Stage.schema_of_close received closed
      · rintro σ sink rest rfl held
        rw [drive_close, closed]
  | cons batch batches ih =>
    rw [List.forall_mem_cons] at ofSchema
    have sends : _ = stage.sends received := stage.sends_receive batch
    rcases taken : stage.receive batch with ⟨fault | _ | next, after⟩
    · right
      intro σ sink rest _ held
      rw [drive, push, taken]
      rintro ⟨⟩
    · rw [taken] at sends
      simp only [drive, push, taken, ← sends]
      exact ih after ofSchema.2
    · rw [taken] at sends
      simp only [drive, push, taken]
      rcases ih after ofSchema.2 with ⟨nexts, sent, driven⟩ | failed
      · refine .inl ⟨next :: nexts, List.forall_mem_cons.mpr ⟨?_, sends ▸ sent⟩, ?_⟩
        · rw [Stage.schema_of_receive taken, ofSchema.1]
        · intro σ sink rest length held
          rw [drive]
          have sameLength := length_push sink rest next held
          rcases pushed : push sink rest next held with ⟨fault | _, left, kept⟩
          · rfl
          · rw [pushed] at sameLength
            exact driven sink left (sameLength.trans length) kept
      · right
        intro σ sink rest length held
        have sameLength := length_push sink rest next held
        rcases pushed : push sink rest next held with ⟨fault | _, left, kept⟩
        · rintro ⟨⟩
        · rw [pushed] at sameLength
          exact failed sink left (sameLength.trans length) kept

end Sending

end ColumnQuery
