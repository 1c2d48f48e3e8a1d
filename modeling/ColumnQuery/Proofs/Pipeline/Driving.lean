import ColumnQuery.Pipeline.Chain
import Mathlib.Data.List.Forall2

/-! # Driving a chain

To drive a chain is to push some batches through its stages and then to close them, up to the first
failure. What a chain hands over does not depend on the sink as long as the sink takes every batch.
-/

namespace ColumnQuery

variable {σ : Type}

/-- Hand some batches to a sink, up to the first that it refuses. -/
def Sink.acceptAll (sink : Sink σ) : List Batch → σ → Except Fault Unit × σ
  | [], held => (.ok (), held)
  | batch :: rest, held =>
    match sink.accept batch held with
    | (.ok (), held) => sink.acceptAll rest held
    | (.error error, held) => (.error (.error error), held)

/-- A sink that takes every batch and never asks for the query to be cancelled. -/
structure Sink.IsTotal (sink : Sink σ) : Prop where
  accepts : ∀ batch held, (sink.accept batch held).1 = .ok ()
  unstopped : ∀ held, sink.stops held = false

/-- What a sink keeps after it has been handed some batches. -/
def Sink.keptAfter (sink : Sink σ) (batches : List Batch) (held : σ) : σ :=
  batches.foldl (fun held batch => (sink.accept batch held).2) held

theorem Sink.keptAfter_append {sink : Sink σ} (early late : List Batch) (held : σ) :
    sink.keptAfter (early ++ late) held = sink.keptAfter late (sink.keptAfter early held) :=
  List.foldl_append

theorem Sink.IsTotal.accept_eq {sink : Sink σ} (total : sink.IsTotal) (batch : Batch) (held : σ) :
    sink.accept batch held = (.ok (), sink.keptAfter [batch] held) :=
  Prod.ext (total.accepts batch held) rfl

theorem Sink.IsTotal.acceptAll {sink : Sink σ} (total : sink.IsTotal)
    (batches : List Batch) (held : σ) :
    sink.acceptAll batches held = (.ok (), sink.keptAfter batches held) := by
  induction batches generalizing held with
  | nil => rfl
  | cons batch rest ih =>
    rw [Sink.acceptAll, total.accept_eq]
    exact ih _

/-- Push some batches through stages into a sink and close the stages, up to the first failure. -/
def drive (order : DrainOrder) (sink : Sink σ) :
    List Batch → List Stage → σ → Except Fault Unit × σ
  | [], stages, held =>
    let (outcome, _, held) := finish order sink stages held
    (outcome, held)
  | batch :: rest, stages, held =>
    match push sink stages batch held with
    | (.ok (), stages, held) => drive order sink rest stages held
    | (.error fault, _, held) => (.error fault, held)

theorem finish_cons (order : DrainOrder) (sink : Sink σ) (stage : Stage) (rest : List Stage)
    (held : σ) :
    finish order sink (stage :: rest) held =
      match stage.close order rest.length with
      | (.error fault, stage) => (.error fault, stage :: rest, held)
      | (.ok none, stage) =>
        let (outcome, rest, held) := finish order sink rest held
        (outcome, stage :: rest, held)
      | (.ok (some batch), stage) =>
        match push sink rest batch held with
        | (.error fault, next, held) => (.error fault, stage :: next, held)
        | (.ok (), next, held) =>
          let (outcome, next, held) := finish order sink next held
          (outcome, stage :: next, held) := by
  rw [finish]
  rcases stage.close order rest.length with ⟨fault | _ | batch, after⟩
  · rfl
  · rfl
  · dsimp only
    split <;> simp_all

/-- What a stage sends on when it closes goes through the stages after it, which then close. -/
theorem drive_close (order : DrainOrder) (sink : Sink σ) (stage : Stage) (rest : List Stage)
    (held : σ) :
    drive order sink [] (stage :: rest) held =
      match (stage.close order rest.length).1 with
      | .error fault => (.error fault, held)
      | .ok next => drive order sink next.toList rest held := by
  rw [drive, finish_cons]
  rcases stage.close order rest.length with ⟨fault | _ | batch, after⟩
  · rfl
  · rfl
  · dsimp only [Option.toList]
    rw [drive]
    rcases push sink rest batch held with ⟨fault | _, left, kept⟩ <;> rfl

theorem drive_nil (order : DrainOrder) (sink : Sink σ) (batches : List Batch) (held : σ) :
    drive order sink batches [] held = sink.acceptAll batches held := by
  induction batches generalizing held with
  | nil => rw [drive, finish, Sink.acceptAll]
  | cons batch rest ih =>
    rw [drive, push, Sink.acceptAll]
    rcases sink.accept batch held with ⟨error | _, held⟩
    · rfl
    · exact ih held

/-- A stage that hands on one batch for each, and nothing at the end, passes the batches on. -/
theorem drive_pass (order : DrainOrder) (sink : Sink σ) {stage : Stage}
    {batches nexts : List Batch}
    (passes : List.Forall₂ (fun batch next => stage.receive batch = (.ok (some next), stage))
      batches nexts)
    (closes : ∀ later, stage.close order later = (.ok none, stage)) (rest : List Stage) (held : σ) :
    drive order sink batches (stage :: rest) held = drive order sink nexts rest held := by
  induction passes generalizing rest held with
  | nil =>
    rw [drive_close, closes]
    rfl
  | cons received _ ih =>
    rw [drive, drive, push, received]
    dsimp only
    rcases push sink rest _ held with ⟨fault | _, next, held⟩
    · rfl
    · exact ih next held

section Total

/-- All sinks that take every batch are handed the same of a batch that is pushed. -/
theorem exists_push (stages : List Stage) (batch : Batch) :
    ∃ outcome left emitted, ∀ {σ : Type} (sink : Sink σ), sink.IsTotal → ∀ held,
      push sink stages batch held = (outcome, left, sink.keptAfter emitted held) := by
  induction stages generalizing batch with
  | nil =>
    refine ⟨.ok (), [], [batch], fun sink total held => ?_⟩
    rw [push, total.accept_eq]
    rfl
  | cons stage rest ih =>
    rcases received : stage.receive batch with ⟨fault | _ | next, after⟩
    · exact ⟨.error fault, after :: rest, [], fun sink _ held => by rw [push, received]; rfl⟩
    · exact ⟨.ok (), after :: rest, [], fun sink _ held => by rw [push, received]; rfl⟩
    · obtain ⟨outcome, left, emitted, pushed⟩ := ih next
      refine ⟨outcome, after :: left, emitted, fun sink total held => ?_⟩
      rw [push, received]
      simp only [pushed sink total held]

private theorem exists_finish (order : DrainOrder) (stages : List Stage) :
    ∃ outcome left emitted, ∀ {σ : Type} (sink : Sink σ), sink.IsTotal → ∀ held,
      finish order sink stages held = (outcome, left, sink.keptAfter emitted held) := by
  -- what is pushed into the later stages changes them before they close, but not their number
  generalize count : stages.length = length
  induction length generalizing stages with
  | zero =>
    obtain rfl := List.length_eq_zero_iff.mp count
    exact ⟨.ok (), [], [], fun sink _ held => by rw [finish]; rfl⟩
  | succ length ih =>
    cases stages with
    | nil => cases count
    | cons stage rest =>
      have restLength : rest.length = length := Nat.succ.inj count
      simp only [finish_cons]
      rcases stage.close order rest.length with ⟨fault | _ | batch, after⟩
      · exact ⟨.error fault, after :: rest, [], fun sink _ held => rfl⟩
      · obtain ⟨outcome, left, emitted, finished⟩ := ih rest restLength
        refine ⟨outcome, after :: left, emitted, fun sink total held => ?_⟩
        simp only [finished sink total held]
      · obtain ⟨fault | _, next, early, pushed⟩ := exists_push rest batch
        · refine ⟨.error fault, after :: next, early, fun sink total held => ?_⟩
          simp only [pushed sink total held]
        · have nextLength : next.length = length := by
            have sameLength := length_push Sink.discard rest batch ()
            rw [pushed Sink.discard ⟨fun _ _ => rfl, fun _ => rfl⟩ ()] at sameLength
            exact sameLength.trans restLength
          obtain ⟨outcome, left, late, finished⟩ := ih next nextLength
          refine ⟨outcome, after :: left, early ++ late, fun sink total held => ?_⟩
          simp only [pushed sink total held, finished sink total, Sink.keptAfter_append]

theorem exists_drive (order : DrainOrder) (batches : List Batch) (stages : List Stage) :
    ∃ outcome emitted, ∀ {σ : Type} (sink : Sink σ), sink.IsTotal → ∀ held,
      drive order sink batches stages held = (outcome, sink.keptAfter emitted held) := by
  induction batches generalizing stages with
  | nil =>
    obtain ⟨outcome, left, emitted, finished⟩ := exists_finish order stages
    exact ⟨outcome, emitted, fun sink total held => by rw [drive, finished sink total]⟩
  | cons batch rest ih =>
    obtain ⟨fault | _, left, early, pushed⟩ := exists_push stages batch
    · refine ⟨.error fault, early, fun sink total held => ?_⟩
      simp only [drive, pushed sink total]
    · obtain ⟨outcome, late, driven⟩ := ih left
      refine ⟨outcome, early ++ late, fun sink total held => ?_⟩
      simp only [drive, pushed sink total, driven sink total, Sink.keptAfter_append]

end Total

end ColumnQuery
