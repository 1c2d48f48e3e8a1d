import ColumnQuery.Proofs.Pipeline.Reordering
import ColumnQuery.Proofs.Pipeline.Sending

/-! # Dropping groups by their keys

A test that looks at nothing but the key of a row is passed by all rows of a group or by none. If
the rows that fail it are removed before they are grouped, whole groups disappear and the others
keep all their members in order. So they have the same aggregates, the same key and, in an ordered
table, the same place. What was refused in a group that disappears can only have stopped the other
run.
-/

namespace ColumnQuery

/-- A predicate is true on a row, and neither false nor null. -/
def BoundExpr.isTrueAt (predicate : BoundExpr) (row : Row) : Bool :=
  Column.truthOf (predicate.valueAt row) == some true

/-- The columns of a batch are of types that a column can hold. -/
theorem Batch.isSupported (batch : Batch) : batch.schema.IsSupported := by
  intro type isMember
  rw [← batch.matching.types] at isMember
  obtain ⟨column, -, rfl⟩ := List.mem_map.mp isMember
  exact column.supported

/-- Two chains that receive the same batches succeed and hand over one batch each, of one schema and
with the same rows, in the same sequence where this is asked for. -/
def HandOverSame (order : DrainOrder) (batches : List Batch) (stages others : List Stage)
    (inSequence : Prop) : Prop :=
  ∃ delivered other : Batch, other.schema = delivered.schema ∧ other.rows.Perm delivered.rows ∧
    (inSequence → other.rows = delivered.rows) ∧
    ∀ {σ : Type} (sink : Sink σ), sink.IsTotal → ∀ held,
      drive order sink batches stages held = (.ok (), sink.keptAfter [delivered] held) ∧
        drive order sink batches others held = (.ok (), sink.keptAfter [other] held)

namespace Aggregation

variable {aggregation : Aggregation} {types groupTypes resultTypes : List DataType}
  {rows : List Row} {test onResults : Row → Bool}

/-- A test of rows looks at their keys only, and another makes the same of a result row, which
begins with the key of its group. -/
def TestsKeys (aggregation : Aggregation) (rows : List Row) (test onResults : Row → Bool) : Prop :=
  ∀ row ∈ rows, ∀ results, onResults (aggregation.key row ++ results) = test row

section Keys

variable (tests : aggregation.TestsKeys rows test onResults)
include tests

private theorem onResults_key {row : Row} (isRow : row ∈ rows) :
    onResults (aggregation.key row) = test row := by
  rw [← tests row isRow [], List.append_nil]

private theorem mem_keys_filter {key : Row} :
    key ∈ (rows.filter test).map aggregation.key ↔
      key ∈ rows.map aggregation.key ∧ onResults key = true := by
  simp only [List.mem_map, List.mem_filter]
  constructor
  · rintro ⟨row, ⟨isRow, passes⟩, rfl⟩
    exact ⟨⟨row, isRow, rfl⟩, (onResults_key tests isRow).trans passes⟩
  · rintro ⟨⟨row, isRow, rfl⟩, passes⟩
    exact ⟨row, ⟨isRow, (onResults_key tests isRow).symm.trans passes⟩, rfl⟩

/-- A group that does not disappear keeps its members. -/
theorem membersOf_filter {key : Row} (passes : onResults key = true) :
    aggregation.membersOf (rows.filter test) key = aggregation.membersOf rows key := by
  rw [membersOf_eq_filter, membersOf_eq_filter, List.filter_filter]
  apply List.filter_congr
  intro row isRow
  by_cases own : aggregation.key row = key
  · rw [← onResults_key tests isRow, own, passes, Bool.and_true]
  · simp [own]

/-- What an aggregation makes of the rows that pass is what it makes of all rows, without the result
rows that fail. -/
theorem Makes.filter (grouped : aggregation.groups.length ≠ 0) {strategy : GroupStrategy}
    {made otherMade : List Row} (makes : aggregation.Makes strategy rows made)
    (otherMakes : aggregation.Makes strategy (rows.filter test) otherMade) :
    otherMade.Perm (made.filter onResults) ∧
      (strategy = .ordered → otherMade = made.filter onResults) := by
  obtain ⟨keys, groups, inOrder, each⟩ := makes
  obtain ⟨otherKeys, otherGroups, otherInOrder, otherEach⟩ := otherMakes
  simp only [GroupStrategy.groupKeys, grouped, if_false] at groups inOrder otherGroups otherInOrder
  have arranged := strategy.arranged_arrange (rows.map aggregation.key)
  have otherArranged := strategy.arranged_arrange ((rows.filter test).map aggregation.key)
  have isKey (key : Row) : key ∈ keys ↔ key ∈ rows.map aggregation.key := by
    rw [groups.mem_iff, GroupStrategy.mem_arrange]
  have isOtherKey (key : Row) : key ∈ otherKeys ↔ key ∈ keys.filter onResults := by
    rw [otherGroups.mem_iff, GroupStrategy.mem_arrange, mem_keys_filter tests, List.mem_filter,
      isKey]
  -- the keys that pass have the same members, hence the same result rows
  have kept : (keys.filter onResults).mapM (aggregation.rowOf (rows.filter test)) =
      .ok (made.filter onResults) := by
    refine (mapM_congr fun key isKept => ?_).trans (mapM_filter each ?_)
    · rw [rowOf, rowOf, membersOf_filter tests (List.mem_filter.mp isKept).2]
    · intro key isMember result success
      obtain ⟨results, -, same⟩ := bind_eq_ok_iff.mp success
      cases same
      obtain ⟨row, isRow, rfl⟩ := List.mem_map.mp ((isKey key).mp isMember)
      rw [tests row isRow results, onResults_key tests isRow]
  have sameKeys : otherKeys.Perm (keys.filter onResults) :=
    (List.perm_ext_iff_of_nodup
      (otherGroups.nodup_iff.mpr (GroupStrategy.nodup_of_arranged otherArranged))
      ((groups.nodup_iff.mpr (GroupStrategy.nodup_of_arranged arranged)).filter _)).mpr isOtherKey
  refine ⟨perm_of_mapM sameKeys otherEach kept, ?_⟩
  rintro rfl
  -- both are ascending, and dropping keys keeps them so
  have equalKeys : otherKeys = keys.filter onResults := by
    refine GroupStrategy.eq_of_ascending (otherInOrder rfl ▸ otherArranged) ?_ isOtherKey
    rw [inOrder rfl]
    exact arranged.filter _
  rw [equalKeys] at otherEach
  exact Except.ok.inj (otherEach.symm.trans kept)

/-- If all groups of some rows have aggregates then so have those of the rows that pass. -/
theorem not_lacksResults_filter (grouped : aggregation.groups.length ≠ 0)
    {strategy : GroupStrategy} {made : List Row} (makes : aggregation.Makes strategy rows made) :
    ¬aggregation.LacksResults (rows.filter test) := by
  rintro ⟨key, isKey, lacks⟩
  obtain ⟨isOwn, passes⟩ := (mem_keys_filter tests).mp isKey
  obtain ⟨keys, groups, -, each⟩ := makes
  have isMember : key ∈ keys := by
    rw [groups.mem_iff]
    exact GroupStrategy.mem_groupKeys isOwn fun none => absurd none grouped
  obtain ⟨row, -, success⟩ := exists_result_of_mapM each isMember
  obtain ⟨results, aggregated, -⟩ := bind_eq_ok_iff.mp success
  rw [← membersOf_filter tests passes] at aggregated
  exact lacks results aggregated

end Keys

section Runs

variable {strategy : GroupStrategy} {order : DrainOrder} {received schema : Schema}
  {batches : List Batch} {own inner : BoundExpr}

/-- A filter at the end of a chain hands on the rows of a batch on which its predicate is true. -/
theorem drive_filter (order : DrainOrder) (schema : Schema) {batch : Batch}
    (boolean : own.HasType batch.schema.types .boolean) :
    ∃ next : Batch, next.schema = batch.schema ∧ next.rows = batch.rows.filter own.isTrueAt ∧
      ∀ {σ : Type} (sink : Sink σ) (held : σ),
        drive order sink [batch] [.filter own schema] held = sink.acceptAll [next] held := by
  obtain ⟨next, made, nextSchema, rows⟩ := Stage.filtered_of_typed boolean
  have taken : (Stage.filter own schema).receive batch = (.ok (some next), .filter own schema) := by
    rw [Stage.receive, made]
    rfl
  refine ⟨next, nextSchema, rows, fun sink held => ?_⟩
  rw [drive_pass order sink (.cons taken .nil) fun _ => rfl, drive_nil]

/-- An aggregation followed by a filter that looks at the keys only, and the other way round: if the
first succeeds then so does the second, with the same result rows. -/
theorem Typed.filter_commutes (typed : aggregation.Typed received.types groupTypes resultTypes)
    (grouped : aggregation.groups.length ≠ 0)
    (ownTyped : own.HasType aggregation.schema.types .boolean)
    (innerTyped : inner.HasType received.types .boolean)
    (ofSchema : ∀ batch ∈ batches, batch.schema = received)
    (tests : aggregation.TestsKeys (batches.flatMap Batch.rows) inner.isTrueAt own.isTrueAt)
    {τ : Type} {someSink : Sink τ} {someHeld : τ}
    (succeeds : (drive order someSink batches
      [.aggregate aggregation (.empty strategy), .filter own schema] someHeld).1 = .ok ()) :
    HandOverSame order batches [.aggregate aggregation (.empty strategy), .filter own schema]
      [.filter inner received, .aggregate aggregation (.empty strategy)]
      (strategy = .ordered) := by
  have batchTypes : ∀ batch ∈ batches, batch.schema.types = received.types :=
    fun batch isMember => by rw [ofSchema batch isMember]
  rcases typed.exists_made batchTypes strategy order 1 with
    ⟨batch, batchSchema, makes, driven⟩ | ⟨fault, failed, -⟩
  · obtain ⟨delivered, deliveredSchema, deliveredRows, filtered⟩ :=
      drive_filter order schema (batchSchema ▸ ownTyped : own.HasType _ .boolean)
    obtain ⟨nexts, nextTypes, nextRows, passed⟩ :=
      drive_each (BoundNode.passes_of_filter innerTyped) batchTypes
    rcases typed.exists_made nextTypes strategy order 0 with
      ⟨other, otherSchema, otherMakes, otherDriven⟩ | ⟨_, -, lacks⟩
    · rw [nextRows] at otherMakes
      obtain ⟨perm, inOrder⟩ := Makes.filter tests grouped makes otherMakes
      rw [← deliveredRows] at perm inOrder
      refine ⟨delivered, other, by rw [otherSchema, deliveredSchema, batchSchema], perm, inOrder,
        fun sink total held => ⟨?_, ?_⟩⟩
      · rw [driven sink _ rfl, filtered, total.acceptAll]
      · refine (passed order sink _ held).trans ?_
        rw [otherDriven sink [] rfl held, drive_nil, total.acceptAll]
    · rw [nextRows] at lacks
      exact absurd (lacks (batchSchema ▸ batch.isSupported)).2
        (not_lacksResults_filter tests grouped makes)
  · rw [failed someSink _ rfl] at succeeds
    cases succeeds

/-- Without any batches an aggregation hands on the batch of no groups. -/
theorem drive_nil_of_grouped {σ : Type} (grouped : aggregation.groups.length ≠ 0)
    (sink : Sink σ) (rest : List Stage) (held : σ) :
    drive order sink [] (.aggregate aggregation (.empty strategy) :: rest) held =
      match aggregation.batchOf [] with
      | .error fault => (.error fault, held)
      | .ok batch => drive order sink [batch] rest held := by
  have none : ((GroupTable.empty strategy).drain order rest.length).1 = [] :=
    List.perm_nil.mp ((GroupTable.empty strategy).drain_perm order rest.length)
  have left : aggregation.leaving ((GroupTable.empty strategy).drain order rest.length).1 =
      .ok [] := by
    simp [leaving, none, List.length_eq_zero_iff.not.mp grouped]
  rw [drive_close, Stage.close, flush_of_leaving order rest.length left]
  cases aggregation.batchOf [] <;> rfl

private theorem rows_of_batchOf_nil {batch : Batch} (made : aggregation.batchOf [] = .ok batch) :
    batch.schema = aggregation.schema ∧ batch.rows = [] := by
  obtain ⟨columns, -, built⟩ := bind_eq_ok_iff.mp made
  obtain ⟨ofSchema, -, count⟩ := Batch.build_eq_ok_iff.mp (liftError_eq_ok_iff.mp built)
  exact ⟨ofSchema, List.length_eq_zero_iff.mp (batch.length_rows.trans count)⟩

/-- Without any batches there are no groups to drop. -/
theorem filter_commutes_of_nil (grouped : aggregation.groups.length ≠ 0)
    (ownTyped : own.HasType aggregation.schema.types .boolean)
    {τ : Type} {someSink : Sink τ} {someHeld : τ}
    (succeeds : (drive order someSink []
      [.aggregate aggregation (.empty strategy), .filter own schema] someHeld).1 = .ok ()) :
    HandOverSame order [] [.aggregate aggregation (.empty strategy), .filter own schema]
      [.filter inner received, .aggregate aggregation (.empty strategy)]
      (strategy = .ordered) := by
  rw [drive_nil_of_grouped grouped] at succeeds
  cases made : aggregation.batchOf [] with
  | error fault =>
    rw [made] at succeeds
    cases succeeds
  | ok batch =>
    obtain ⟨batchSchema, rows⟩ := rows_of_batchOf_nil made
    obtain ⟨delivered, deliveredSchema, deliveredRows, filtered⟩ :=
      drive_filter order schema (batchSchema ▸ ownTyped : own.HasType _ .boolean)
    have same : batch.rows = delivered.rows := by rw [deliveredRows, rows, List.filter_nil]
    refine ⟨delivered, batch, deliveredSchema.symm, same ▸ .refl _, fun _ => same,
      fun sink total held => ⟨?_, ?_⟩⟩
    · rw [drive_nil_of_grouped grouped, made]
      dsimp only
      rw [filtered, total.acceptAll]
    · rw [drive_pass order sink .nil fun _ => rfl, drive_nil_of_grouped grouped, made]
      dsimp only
      rw [drive_nil, total.acceptAll]

/-- What a successful run of an aggregation has passed: it has evaluated each batch and has handed
on a batch of its own. -/
theorem of_drive_eq_ok {σ : Type} {sink : Sink σ} {table : GroupTable} {rest : List Stage}
    {held : σ} (succeeds :
      (drive order sink batches (.aggregate aggregation table :: rest) held).1 = .ok ()) :
    (∀ batch ∈ batches, ∃ rows, aggregation.contributions batch = .ok rows) ∧
      ∃ batch : Batch, batch.schema = aggregation.schema ∧
        (drive order sink [batch] rest held).1 = .ok () := by
  induction batches generalizing table with
  | nil =>
    refine ⟨fun _ => nofun, ?_⟩
    rw [drive_close] at succeeds
    rcases closed : (Stage.aggregate aggregation table).close order rest.length with
      ⟨fault | next, after⟩
    · rw [closed] at succeeds
      cases succeeds
    · obtain ⟨batch, -, rfl⟩ := map_eq_ok_iff.mp (congrArg Prod.fst closed)
      rw [closed] at succeeds
      exact ⟨batch, Stage.schema_of_close aggregation.schema closed, succeeds⟩
  | cons batch batches ih =>
    rw [drive, push, Stage.receive, absorb] at succeeds
    cases contributed : aggregation.contributions batch with
    | error fault =>
      rw [contributed] at succeeds
      cases succeeds
    | ok rows =>
      simp only [contributed] at succeeds
      rcases absorbed : aggregation.absorbRows rows table with ⟨error | _, next⟩
      · rw [absorbed] at succeeds
        cases succeeds
      · rw [absorbed] at succeeds
        obtain ⟨contribute, handed⟩ := ih succeeds
        exact ⟨List.forall_mem_cons.mpr ⟨⟨rows, contributed⟩, contribute⟩, handed⟩

end Runs

end Aggregation

end ColumnQuery
