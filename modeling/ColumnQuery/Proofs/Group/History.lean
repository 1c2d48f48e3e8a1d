import ColumnQuery.Proofs.Group.Lookup
import Mathlib.Data.Finset.Card

/-! # Group tables are finite maps

A table is asked for the entries of any tuples, which it opens where it can, changes the entries in
any way and is drained now and then. Under either strategy it is a map from encoded keys: since the
last drain every call that got an entry got the one of its key, the entry has the values of the call
that opened it, and what was changed in it is what the calls for its key changed, in their order.
-/

namespace ColumnQuery

/-- A request for the entry of a tuple: the accumulators that a new entry would start with, or the
failure to make them, and the change to the entry. -/
structure GroupCall where
  values : Row
  fresh : Except Error (List Accumulator)
  change : AccumulatorChange

/-- What can happen to a group table. -/
inductive GroupEvent where
  | request (call : GroupCall)
  | drain (order : DrainOrder) (later : Nat)

def GroupCall.isFor (values : Row) (call : GroupCall) : Bool :=
  GroupKey.encode call.values == GroupKey.encode values

/-- The calls since the last drain that got an entry, after one more event. A call gets an entry if
its group has one already or if it can open one. -/
def GroupEvent.serve (calls : List GroupCall) : GroupEvent → List GroupCall
  | .request call =>
    if calls.any (·.isFor call.values) || call.fresh.isOk then calls ++ [call] else calls
  | .drain _ _ => []

/-- The calls among some events that got an entry, since the last drain. -/
def GroupEvent.served (events : List GroupEvent) : List GroupCall := events.foldl serve []

/-- The entry that the calls for one group make: it has the values of the first of them and the
accumulators that this one brought, changed by all of them in turn. -/
def entryMadeBy : List GroupCall → Option GroupEntry
  | [] => none
  | first :: later =>
    first.fresh.toOption.map fun fresh =>
      ⟨first.values,
        (first :: later).foldl (fun accumulators call => (call.change accumulators).2) fresh⟩

/-- The entry that some calls make of the group of a tuple. -/
def entryOf? (calls : List GroupCall) (values : Row) : Option GroupEntry :=
  entryMadeBy (calls.filter (·.isFor values))

private theorem GroupCall.isFor_iff {values : Row} {call : GroupCall} :
    call.isFor values = true ↔ GroupKey.encode call.values = GroupKey.encode values :=
  beq_iff_eq

/-- Each call of a list is for a group that has an entry. -/
def HaveEntries (calls : List GroupCall) : Prop :=
  ∀ call ∈ calls, (entryOf? calls call.values).isSome

private theorem entryOf?_congr {calls : List GroupCall} {values other : Row}
    (same : GroupKey.encode values = GroupKey.encode other) :
    entryOf? calls values = entryOf? calls other := by
  have isFor : (fun call : GroupCall => call.isFor values) = fun call => call.isFor other := by
    funext call
    rw [GroupCall.isFor, GroupCall.isFor, same]
  rw [entryOf?, entryOf?, isFor]

private theorem entryOf?_eq_none {calls : List GroupCall} {values : Row}
    (absent : calls.any (·.isFor values) = false) : entryOf? calls values = none := by
  rw [entryOf?, List.filter_eq_nil_iff.mpr (by simpa using absent)]
  rfl

/-- A group has an entry exactly when a call was for it. -/
theorem HaveEntries.isSome_iff {calls : List GroupCall} (haveEntries : HaveEntries calls)
    {values : Row} : (entryOf? calls values).isSome ↔ calls.any (·.isFor values) = true := by
  constructor
  · intro isSome
    by_contra absent
    rw [entryOf?_eq_none (Bool.not_eq_true _ ▸ absent)] at isSome
    cases isSome
  · intro present
    obtain ⟨call, isMember, isFor⟩ := List.any_eq_true.mp present
    rw [← entryOf?_congr (GroupCall.isFor_iff.mp isFor)]
    exact haveEntries call isMember

private theorem entryMadeBy_snoc {calls : List GroupCall}
    (made : calls ≠ [] → (entryMadeBy calls).isSome) (call : GroupCall) :
    entryMadeBy (calls ++ [call]) =
      GroupTable.changedEntry call.values call.fresh call.change (entryMadeBy calls) := by
  cases calls with
  | nil => rfl
  | cons first later =>
    have isSome := made (List.cons_ne_nil first later)
    rw [List.cons_append]
    cases brought : first.fresh with
    | error error =>
      rw [entryMadeBy, brought] at isSome
      cases isSome
    | ok fresh =>
      rw [entryMadeBy, entryMadeBy, brought, ← List.cons_append]
      exact congrArg (fun accumulators => some (GroupEntry.mk first.values accumulators))
        List.foldl_append

/-- One more call changes the entry of its own group. -/
theorem entryOf?_snoc {calls : List GroupCall} (haveEntries : HaveEntries calls) (call : GroupCall)
    (values : Row) :
    entryOf? (calls ++ [call]) values =
      if call.isFor values then
        GroupTable.changedEntry call.values call.fresh call.change (entryOf? calls values)
      else entryOf? calls values := by
  rw [entryOf?, List.filter_append, List.filter_singleton]
  cases isFor : call.isFor values with
  | false =>
    rw [if_neg Bool.false_ne_true, cond_false, List.append_nil]
    rfl
  | true =>
    rw [if_pos rfl, cond_true]
    refine entryMadeBy_snoc (fun nonempty => ?_) call
    obtain ⟨member, isMember⟩ := List.exists_mem_of_ne_nil _ nonempty
    obtain ⟨isCall, isForMember⟩ := List.mem_filter.mp isMember
    have isSome := haveEntries member isCall
    rwa [entryOf?_congr (GroupCall.isFor_iff.mp isForMember)] at isSome

namespace GroupTable

def respond (table : GroupTable) : GroupEvent → GroupTable
  | .request call => (table.update call.values call.fresh call.change).2
  | .drain order later => (table.drain order later).2

def after (table : GroupTable) (events : List GroupEvent) : GroupTable := events.foldl respond table

/-- A table keeps each key once, in the order of its strategy, and has the entries that some calls
make. -/
structure Records (table : GroupTable) (calls : List GroupCall) : Prop where
  keeps : Keeps table.strategy table.entries
  entry : ∀ values, table.find? values = entryOf? calls values
  haveEntries : HaveEntries calls

private theorem records_empty (strategy : GroupStrategy) : (empty strategy).Records [] where
  keeps := List.Pairwise.nil
  entry _ := rfl
  haveEntries _ isMember := (List.not_mem_nil isMember).elim

private theorem update_eq (table : GroupTable) (values : Row)
    (fresh : Except Error (List Accumulator)) (change : AccumulatorChange) :
    table.update values fresh change =
      ((updateEntries table.strategy values fresh change table.entries).1,
        { table with
          entries := (updateEntries table.strategy values fresh change table.entries).2 }) := rfl

namespace Records

variable {table : GroupTable} {calls : List GroupCall}

theorem landing (records : table.Records calls) (values : Row)
    (fresh : Except Error (List Accumulator)) (change : AccumulatorChange) :
    Landing table.strategy values fresh change table.entries
      (updateEntries table.strategy values fresh change table.entries) :=
  landing_updateEntries records.keeps

/-- The answer to a call depends on the entry of its group. -/
theorem outcome_eq (records : table.Records calls) (values : Row)
    (fresh : Except Error (List Accumulator)) (change : AccumulatorChange) :
    (table.update values fresh change).1 = changeOutcome fresh change (entryOf? calls values) := by
  rw [← records.entry, find?_eq_lookup]
  exact (records.landing values fresh change).outcome_eq records.keeps

/-- A call that gets no entry changes nothing. -/
theorem update_of_refused (records : table.Records calls) {values : Row} {error : Error}
    (absent : entryOf? calls values = none) (change : AccumulatorChange) :
    table.update values (.error error) change = (.error error, table) := by
  rw [← records.entry, find?_eq_lookup] at absent
  rw [update_eq, (records.landing values (.error error) change).eq_of_refused absent]

/-- A call that gets an entry adds itself to the calls that the entries are made of. -/
theorem update (records : table.Records calls) {call : GroupCall}
    (gets : calls.any (·.isFor call.values) = true ∨ call.fresh.isOk = true) :
    (table.update call.values call.fresh call.change).2.Records (calls ++ [call]) := by
  have landing := records.landing call.values call.fresh call.change
  have own : (entryOf? (calls ++ [call]) call.values).isSome := by
    rw [entryOf?_snoc records.haveEntries, if_pos (GroupCall.isFor_iff.mpr rfl)]
    cases known : entryOf? calls call.values with
    | some entry => rfl
    | none =>
      have opens : call.fresh.isOk = true := gets.resolve_left fun present => by
        have isSome := records.haveEntries.isSome_iff.mpr present
        rw [known] at isSome
        cases isSome
      cases made : call.fresh with
      | error error =>
        rw [made] at opens
        cases opens
      | ok fresh => rfl
  refine ⟨landing.keeps records.keeps, fun values => ?_, fun other isMember => ?_⟩
  · have stored := records.entry
    simp only [find?_eq_lookup] at stored
    rw [find?_eq_lookup, entryOf?_snoc records.haveEntries]
    refine (landing.lookup_eq records.keeps values).trans ?_
    rw [stored, stored]
    by_cases isFor : call.isFor values = true
    · have same := GroupCall.isFor_iff.mp isFor
      rw [if_pos isFor, if_pos (encode_eq_iff_keyOf.mp same).symm, entryOf?_congr same]
    · have differ : keyOf values ≠ keyOf call.values := fun same =>
        isFor (GroupCall.isFor_iff.mpr (encode_eq_iff_keyOf.mpr same.symm))
      rw [if_neg isFor, if_neg differ]
  · rcases List.mem_append.mp isMember with earlier | last
    · have isSome := records.haveEntries other earlier
      rw [entryOf?_snoc records.haveEntries]
      split
      · obtain ⟨entry, known⟩ := Option.isSome_iff_exists.mp isSome
        rw [known]
        rfl
      · exact isSome
    · rw [List.mem_singleton.mp last]
      exact own

theorem request (records : table.Records calls) (call : GroupCall) :
    (table.respond (.request call)).Records (GroupEvent.serve calls (.request call)) := by
  rw [GroupTable.respond, GroupEvent.serve]
  split
  · rename_i gets
    exact records.update (by simpa using gets)
  · rename_i misses
    obtain ⟨absent, refused⟩ := Bool.or_eq_false_iff.mp (Bool.not_eq_true _ ▸ misses)
    cases made : call.fresh with
    | ok fresh => simp [made, Except.isOk, Except.toBool] at refused
    | error error =>
      rw [records.update_of_refused (entryOf?_eq_none absent)]
      exact records

theorem respond (records : table.Records calls) (event : GroupEvent) :
    (table.respond event).Records (event.serve calls) := by
  cases event with
  | request call => exact records.request call
  | drain order later => exact records_empty table.strategy

theorem after (records : table.Records calls) (events : List GroupEvent) :
    (table.after events).Records (events.foldl GroupEvent.serve calls) := by
  induction events generalizing table calls with
  | nil => exact records
  | cons event events ih => exact ih (records.respond event)

private theorem mem_entries_iff (records : table.Records calls) {entry : GroupEntry} :
    entry ∈ table.entries ↔ entryOf? calls entry.values = some entry := by
  rw [← records.entry, find?_eq_lookup, records.keeps.lookup_eq_some_iff]
  exact ⟨fun isMember => ⟨isMember, rfl⟩, fun found => found.1⟩

private theorem nodup_encodings (records : table.Records calls) :
    (table.entries.map fun entry => GroupKey.encode entry.values).Nodup := by
  have distinct := List.pairwise_map.mp records.keeps.nodup
  refine List.pairwise_map.mpr (distinct.imp fun differ same => ?_)
  exact differ (encode_eq_iff_keyOf.mp same)

/-- The keys of the entries are the keys of the calls. -/
theorem mem_encodings_iff (records : table.Records calls) {bytes : List UInt8} :
    bytes ∈ table.entries.map (fun entry => GroupKey.encode entry.values) ↔
      bytes ∈ calls.map fun call => GroupKey.encode call.values := by
  constructor
  · intro isKey
    obtain ⟨entry, isEntry, rfl⟩ := List.mem_map.mp isKey
    have isSome := Option.isSome_iff_exists.mpr ⟨entry, records.mem_entries_iff.mp isEntry⟩
    obtain ⟨call, isCall, isFor⟩ :=
      List.any_eq_true.mp (records.haveEntries.isSome_iff.mp isSome)
    exact List.mem_map.mpr ⟨call, isCall, GroupCall.isFor_iff.mp isFor⟩
  · intro isKey
    obtain ⟨call, isCall, rfl⟩ := List.mem_map.mp isKey
    obtain ⟨entry, made⟩ := Option.isSome_iff_exists.mp (records.haveEntries call isCall)
    rw [← records.entry, find?_eq_lookup, records.keeps.lookup_eq_some_iff] at made
    exact List.mem_map.mpr ⟨entry, made.1, (encode_eq_iff_keyOf.mpr made.2).symm⟩

private theorem size_eq (records : table.Records calls) :
    table.size = (calls.map fun call => GroupKey.encode call.values).toFinset.card := by
  have sameKeys : (calls.map fun call => GroupKey.encode call.values).toFinset =
      (table.entries.map fun entry => GroupKey.encode entry.values).toFinset := by
    ext bytes
    rw [List.mem_toFinset, List.mem_toFinset, records.mem_encodings_iff]
  rw [sameKeys, List.toFinset_card_of_nodup records.nodup_encodings, List.length_map, size]

/-- Two tuples with entries have the same entry exactly when they have the same encoding. -/
theorem find?_eq_iff (records : table.Records calls) {first second : Row}
    (known : (entryOf? calls first).isSome) :
    table.find? first = table.find? second ↔
      GroupKey.encode first = GroupKey.encode second := by
  obtain ⟨entry, made⟩ := Option.isSome_iff_exists.mp known
  constructor
  · intro same
    rw [records.entry first, made, eq_comm, find?_eq_lookup,
      records.keeps.lookup_eq_some_iff] at same
    rw [← records.entry, find?_eq_lookup, records.keeps.lookup_eq_some_iff] at made
    exact encode_eq_iff_keyOf.mpr (made.2.trans same.2.symm)
  · intro same
    rw [records.entry, records.entry, entryOf?_congr same]

/-- The accumulators of a new entry are computed only where the group has no entry. -/
theorem updateOnDemand_eq (records : table.Records calls) {m : Type → Type} [Monad m]
    [LawfulMonad m] (make : m (Except Error (List Accumulator))) (call : GroupCall) :
    table.updateOnDemand call.values make call.change =
      if (entryOf? calls call.values).isSome then
        pure (table.update call.values call.fresh call.change)
      else do return table.update call.values (← make) call.change := by
  rw [updateOnDemand, updateEntriesOnDemand_eq make records.keeps call.fresh, ← records.entry,
    find?_eq_lookup]
  split
  · rw [pure_bind]
    rfl
  · rw [bind_assoc]
    simp only [pure_bind]
    rfl

end Records

/-- A table is the map from encodings of tuples that some calls make, each of which got an entry. -/
structure IsMapOf (table : GroupTable) (calls : List GroupCall) : Prop where
  /-- A tuple has the entry that the calls for its group make: with the values of the first of them
  and changed by each of them in turn, and by no other. -/
  entry : ∀ values, table.find? values = entryOf? calls values
  /-- Two calls have got the same entry exactly when their tuples have one encoding. -/
  reach : ∀ first ∈ calls, ∀ second ∈ calls, (table.find? first.values).isSome ∧
    (table.find? first.values = table.find? second.values ↔
      GroupKey.encode first.values = GroupKey.encode second.values)
  /-- There are as many entries as different keys. -/
  size : table.size = (calls.map fun call => GroupKey.encode call.values).toFinset.card
  /-- Draining hands on every entry, -/
  drained : ∀ order later entry,
    entry ∈ (table.drain order later).1 ↔ entryOf? calls entry.values = some entry
  /-- each once, -/
  once : ∀ order later,
    ((table.drain order later).1.map fun entry => GroupKey.encode entry.values).Nodup
  /-- under the ordered strategy from the least key to the greatest, -/
  ascending : table.strategy = .ordered → ∀ order later,
    (table.drain order later).1.Pairwise fun lesser greater =>
      List.Lex (fun value other => value.compare other = .lt)
        (lesser.values.map Scalar.canonical) (greater.values.map Scalar.canonical)
  /-- and leaves nothing behind. -/
  emptied : ∀ order later, (table.drain order later).2 = empty table.strategy

/-- How a table that is made by some calls answers one more. -/
structure Answers (table : GroupTable) (calls : List GroupCall) (call : GroupCall) : Prop where
  /-- An entry that is there is changed, whatever accumulators a new one would start with. -/
  known : ∀ entry, entryOf? calls call.values = some entry →
    ∀ fresh, (table.update call.values fresh call.change).1 = (call.change entry.accumulators).1
  /-- An entry that is not there is opened and changed, -/
  opened : entryOf? calls call.values = none →
    ∀ accumulators, (table.update call.values (.ok accumulators) call.change).1 =
      (call.change accumulators).1
  /-- or, if no accumulators can be made for it, the table stays as it is. -/
  refused : entryOf? calls call.values = none →
    ∀ error, table.update call.values (.error error) call.change = (.error error, table)
  /-- Making the accumulators is left to where the entry is not there, also if it has effects. -/
  onDemand : ∀ {m : Type → Type} [Monad m] [LawfulMonad m]
    (make : m (Except Error (List Accumulator))),
    table.updateOnDemand call.values make call.change =
      if (entryOf? calls call.values).isSome then
        pure (table.update call.values call.fresh call.change)
      else do return table.update call.values (← make) call.change

namespace Records

variable {table : GroupTable} {calls : List GroupCall}

private theorem isMapOf (records : table.Records calls) : table.IsMapOf calls where
  entry := records.entry
  reach first isFirst second _ :=
    ⟨(records.entry first.values).symm ▸ records.haveEntries first isFirst,
      records.find?_eq_iff (records.haveEntries first isFirst)⟩
  size := records.size_eq
  drained order later _ := (table.drain_perm order later).mem_iff.trans records.mem_entries_iff
  once order later := ((table.drain_perm order later).map _).nodup_iff.mpr records.nodup_encodings
  ascending ordered order later := by
    have arranged := records.keeps
    rw [Keeps, ordered] at arranged
    rw [table.drain_of_ordered order later ordered]
    exact (List.pairwise_map.mp arranged).imp Scalar.compareTuples_eq_lt_iff.mp
  emptied _ _ := rfl

theorem answers (records : table.Records calls) (call : GroupCall) :
    table.Answers calls call where
  known entry made fresh := by rw [records.outcome_eq, made, changeOutcome]
  opened absent accumulators := by rw [records.outcome_eq, absent, changeOutcome, ok_bind]
  refused absent _ := records.update_of_refused absent call.change
  onDemand make := records.updateOnDemand_eq make call

end Records

private theorem strategy_after (table : GroupTable) (events : List GroupEvent) :
    (table.after events).strategy = table.strategy := by
  induction events generalizing table with
  | nil => rfl
  | cons event events ih =>
    refine (ih (table.respond event)).trans ?_
    cases event <;> rfl

/-- After any calls and drains a table of either strategy is the map that the calls since the last
drain make, and answers the next call as this map does. -/
theorem history_is_finite_map (strategy : GroupStrategy) (events : List GroupEvent) :
    ((empty strategy).after events).strategy = strategy ∧
      ((empty strategy).after events).IsMapOf (GroupEvent.served events) ∧
      ∀ call, ((empty strategy).after events).Answers (GroupEvent.served events) call := by
  have records : ((empty strategy).after events).Records (GroupEvent.served events) :=
    (records_empty strategy).after events
  exact ⟨strategy_after (empty strategy) events, records.isMapOf, records.answers⟩

end GroupTable

end ColumnQuery
