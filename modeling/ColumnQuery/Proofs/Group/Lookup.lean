import ColumnQuery.Proofs.Group.Order
import ColumnQuery.Proofs.Group.Sameness
import ColumnQuery.Proofs.Traversal
import Mathlib.Data.List.Nodup

/-! # Looking up and changing the group of any tuple

A group table can be asked for any tuple, canonical or not. What counts is the canonical form of the
tuple, its key. A table that keeps its keys apart and in the order of its strategy is changed at one
key only: the entry of the key is changed in its place, or an entry is opened where the order wants
it, or nothing happens because no accumulators could be made for it.
-/

namespace ColumnQuery

/-- The key of a tuple: its canonical form. -/
abbrev keyOf (values : Row) : Row := values.map Scalar.canonical

def GroupEntry.key (entry : GroupEntry) : Row := keyOf entry.values

theorem encode_eq_iff_keyOf {left right : Row} :
    GroupKey.encode left = GroupKey.encode right ↔ keyOf left = keyOf right :=
  GroupKey.encode_eq_iff_canonical

namespace GroupStrategy

variable {strategy : GroupStrategy} {values stored : Row}

private theorem locate_keyOf : strategy.locate (keyOf values) (keyOf stored) =
    strategy.locate values stored := by
  cases strategy with
  | hash => simp only [locate, GroupKey.encode_map_canonical]
  | ordered =>
    rw [locate, locate, GroupKey.compare_eq_compareTuples values stored]
    exact GroupKey.compare_of_isCanonical (GroupKey.isCanonical_map _) (GroupKey.isCanonical_map _)

private theorem locate_eq_iff :
    strategy.locate values stored = .eq ↔ keyOf values = keyOf stored := by
  constructor
  · intro located
    rw [← locate_keyOf] at located
    exact eq_of_locate (GroupKey.isCanonical_map _) (GroupKey.isCanonical_map _) located
  · intro same
    rw [← locate_keyOf, same]
    cases strategy with
    | hash => simp [locate]
    | ordered =>
      rw [locate, GroupKey.compare_of_isCanonical (GroupKey.isCanonical_map _)
        (GroupKey.isCanonical_map _)]
      exact Std.ReflCmp.compare_self

end GroupStrategy

namespace GroupTable

/-- The keys of some entries are each there once, in the order of a strategy. -/
def Keeps (strategy : GroupStrategy) (entries : List GroupEntry) : Prop :=
  strategy.Arranged (entries.map GroupEntry.key)

/-- Where a change of the group of `values` lands among some entries, and what it leaves. -/
inductive Landing (strategy : GroupStrategy) (values : Row)
    (fresh : Except Error (List Accumulator)) (change : AccumulatorChange) :
    List GroupEntry → Except Error Unit × List GroupEntry → Prop where
  | found {before after : List GroupEntry} {entry : GroupEntry}
      (same : keyOf values = entry.key) :
      Landing strategy values fresh change (before ++ entry :: after)
        ((change entry.accumulators).1,
          before ++ ⟨entry.values, (change entry.accumulators).2⟩ :: after)
  | opened {before after : List GroupEntry} {accumulators : List Accumulator}
      (absent : ∀ entry ∈ before ++ after, keyOf values ≠ entry.key)
      (made : fresh = .ok accumulators)
      (placed : Keeps strategy (before ++ ⟨values, (change accumulators).2⟩ :: after)) :
      Landing strategy values fresh change (before ++ after)
        ((change accumulators).1, before ++ ⟨values, (change accumulators).2⟩ :: after)
  | refused {entries : List GroupEntry} {error : Error}
      (absent : ∀ entry ∈ entries, keyOf values ≠ entry.key) (failed : fresh = .error error) :
      Landing strategy values fresh change entries (.error error, entries)

variable {strategy : GroupStrategy} {values other : Row}
  {fresh : Except Error (List Accumulator)} {change : AccumulatorChange}
  {entries : List GroupEntry}

private theorem keyOf_ne_of_locate_gt {entry : GroupEntry}
    (located : strategy.locate values entry.values = .gt) : keyOf values ≠ entry.key := by
  intro same
  rw [GroupStrategy.locate_eq_iff.mpr same] at located
  cases located

/-- A key that is found to stand before the first entry stands before all of them. -/
theorem Keeps.precedes_of_locate_lt {entry : GroupEntry} {rest : List GroupEntry}
    (keeps : Keeps strategy (entry :: rest))
    (located : strategy.locate values entry.values = .lt) :
    ∀ other ∈ entry :: rest, strategy.Precedes (keyOf values) other.key := by
  rw [← GroupStrategy.locate_keyOf] at located
  obtain ⟨rfl, less⟩ := GroupStrategy.ordered_of_locate_lt (GroupKey.isCanonical_map _)
    (GroupKey.isCanonical_map _) located
  intro other isMember
  rcases List.mem_cons.mp isMember with rfl | later
  · exact less
  · exact Std.TransCmp.lt_trans less
      ((List.pairwise_cons.mp keeps).1 other.key (List.mem_map_of_mem later))

/-- A key that comes before all entries is opened in front of them. -/
theorem landing_of_before
    (before : ∀ entry ∈ entries, strategy.Precedes (keyOf values) entry.key)
    (keeps : Keeps strategy entries) :
    Landing strategy values fresh change entries (openEntry values fresh change entries) := by
  have absent : ∀ entry ∈ entries, keyOf values ≠ entry.key :=
    fun entry isMember => GroupStrategy.ne_of_precedes (before entry isMember)
  cases made : fresh with
  | error error => exact .refused absent rfl
  | ok accumulators =>
    refine @Landing.opened _ _ _ _ [] entries accumulators absent rfl
      (List.pairwise_cons.mpr ⟨fun key isKey => ?_, keeps⟩)
    obtain ⟨entry, isMember, rfl⟩ := List.mem_map.mp isKey
    exact before entry isMember

/-- Every change of a group lands somewhere. -/
theorem landing_updateEntries (keeps : Keeps strategy entries) :
    Landing strategy values fresh change entries
      (updateEntries strategy values fresh change entries) := by
  induction entries with
  | nil => exact landing_of_before (fun _ isMember => (List.not_mem_nil isMember).elim) keeps
  | cons entry rest ih =>
    obtain ⟨precedes, restKeeps⟩ := List.pairwise_cons.mp keeps
    rw [updateEntries]
    cases located : strategy.locate values entry.values with
    | lt => exact landing_of_before (keeps.precedes_of_locate_lt located) keeps
    | eq => exact @Landing.found _ _ _ _ [] rest entry (GroupStrategy.locate_eq_iff.mp located)
    | gt =>
      have differ : keyOf values ≠ entry.key := keyOf_ne_of_locate_gt located
      rw [← GroupStrategy.locate_keyOf] at located
      have precedesKey := GroupStrategy.precedes_of_locate_gt (GroupKey.isCanonical_map _)
        (GroupKey.isCanonical_map _) located
      have landing := ih restKeeps
      revert landing
      generalize updateEntries strategy values fresh change rest = result
      intro landing
      cases landing with
      | @found before after reached same =>
        exact @Landing.found _ _ _ _ (entry :: before) after reached same
      | refused absent failed =>
        refine .refused (fun other isMember => ?_) failed
        rcases List.mem_cons.mp isMember with rfl | later
        · exact differ
        · exact absent other later
      | @opened before after accumulators absent made placed =>
        refine @Landing.opened _ _ _ _ (entry :: before) after accumulators
          (fun other isMember => ?_) made (List.pairwise_cons.mpr ⟨fun key isKey => ?_, placed⟩)
        · rcases List.mem_cons.mp isMember with rfl | later
          · exact differ
          · exact absent other later
        · obtain ⟨other, isMember, rfl⟩ := List.mem_map.mp isKey
          rcases List.mem_cons.mp (List.perm_middle.mem_iff.mp isMember) with rfl | later
          · exact precedesKey
          · exact precedes other.key (List.mem_map_of_mem later)

def lookup (entries : List GroupEntry) (values : Row) : Option GroupEntry :=
  entries.find? fun entry => keyOf values == entry.key

/-- A table looks a tuple up by its key. -/
theorem find?_eq_lookup (table : GroupTable) (values : Row) :
    table.find? values = lookup table.entries values := by
  refine congrArg (List.find? · table.entries) (funext fun entry => ?_)
  rw [Bool.eq_iff_iff, beq_iff_eq, beq_iff_eq, GroupStrategy.locate_eq_iff, GroupEntry.key]

private theorem lookup_eq_none {values : Row} :
    lookup entries values = none ↔ ∀ entry ∈ entries, keyOf values ≠ entry.key := by
  simp [lookup, List.find?_eq_none]

private theorem lookup_middle {before after : List GroupEntry} {entry : GroupEntry}
    (absent : ∀ earlier ∈ before, keyOf values ≠ earlier.key) (same : keyOf values = entry.key) :
    lookup (before ++ entry :: after) values = some entry := by
  rw [lookup, List.find?_append, List.find?_eq_none.mpr (by simpa using absent), Option.none_or,
    List.find?_cons_of_pos (by simpa using same)]

private theorem lookup_middle_of_ne {before after : List GroupEntry} {entry : GroupEntry}
    (differ : keyOf values ≠ entry.key) :
    lookup (before ++ entry :: after) values = lookup (before ++ after) values := by
  rw [lookup, lookup, List.find?_append, List.find?_append,
    List.find?_cons_of_neg (by simpa using differ)]

theorem Keeps.nodup (keeps : Keeps strategy entries) : (entries.map GroupEntry.key).Nodup :=
  GroupStrategy.nodup_of_arranged keeps

/-- No entry before another has its key. -/
theorem Keeps.absent_before {before after : List GroupEntry} {entry : GroupEntry}
    (keeps : Keeps strategy (before ++ entry :: after)) :
    ∀ earlier ∈ before, entry.key ≠ earlier.key := by
  intro earlier isMember same
  have once := keeps.nodup
  rw [List.map_append, List.map_cons, List.nodup_middle, List.nodup_cons] at once
  exact once.1 (List.mem_append_left _ (List.mem_map.mpr ⟨earlier, isMember, same.symm⟩))

/-- Looking up the key of an entry finds this entry. -/
theorem Keeps.lookup_eq_some_iff (keeps : Keeps strategy entries) {entry : GroupEntry} :
    lookup entries values = some entry ↔ entry ∈ entries ∧ keyOf values = entry.key := by
  constructor
  · intro found
    have isKey := List.find?_some (p := fun other : GroupEntry => keyOf values == other.key) found
    exact ⟨List.mem_of_find?_eq_some found, beq_iff_eq.mp isKey⟩
  · rintro ⟨isMember, same⟩
    obtain ⟨before, after, rfl⟩ := List.append_of_mem isMember
    exact lookup_middle (same ▸ keeps.absent_before) same

/-- What a change makes of the entry of its key, or of the lack of one. -/
def changedEntry (values : Row) (fresh : Except Error (List Accumulator))
    (change : AccumulatorChange) : Option GroupEntry → Option GroupEntry
  | some entry => some ⟨entry.values, (change entry.accumulators).2⟩
  | none => fresh.toOption.map fun accumulators => ⟨values, (change accumulators).2⟩

/-- What a change answers. -/
def changeOutcome (fresh : Except Error (List Accumulator)) (change : AccumulatorChange) :
    Option GroupEntry → Except Error Unit
  | some entry => (change entry.accumulators).1
  | none => fresh >>= fun accumulators => (change accumulators).1

namespace Landing

variable {result : Except Error Unit × List GroupEntry}

theorem keeps (landing : Landing strategy values fresh change entries result)
    (keeps : Keeps strategy entries) : Keeps strategy result.2 := by
  cases landing with
  | found same =>
    rw [Keeps, List.map_append, List.map_cons] at keeps ⊢
    exact keeps
  | opened absent made placed => exact placed
  | refused => exact keeps

theorem outcome_eq (landing : Landing strategy values fresh change entries result)
    (keeps : Keeps strategy entries) :
    result.1 = changeOutcome fresh change (lookup entries values) := by
  cases landing with
  | found same => rw [lookup_middle (same ▸ keeps.absent_before) same, changeOutcome]
  | opened absent made => rw [lookup_eq_none.mpr absent, changeOutcome, made, ok_bind]
  | refused absent failed => rw [lookup_eq_none.mpr absent, changeOutcome, failed, error_bind]

/-- Without an entry and without accumulators for one nothing changes. -/
theorem eq_of_refused {error : Error}
    (landing : Landing strategy values (.error error) change entries result)
    (absent : lookup entries values = none) : result = (.error error, entries) := by
  cases landing with
  | found same =>
    exact absurd same (lookup_eq_none.mp absent _ (List.mem_append_right _ List.mem_cons_self))
  | opened _ made => cases made
  | refused _ failed =>
    cases failed
    rfl

/-- A change touches the entry of its key and no other. -/
theorem lookup_eq (landing : Landing strategy values fresh change entries result)
    (keeps : Keeps strategy entries) (other : Row) :
    lookup result.2 other =
      if keyOf other = keyOf values then
        changedEntry values fresh change (lookup entries values)
      else lookup entries other := by
  cases landing with
  | @found before after entry same =>
    have absent : ∀ earlier ∈ before, keyOf values ≠ earlier.key := same ▸ keeps.absent_before
    split
    · rename_i ofKey
      rw [lookup_middle absent same, changedEntry]
      exact lookup_middle (ofKey ▸ absent) (ofKey.trans same)
    · rename_i differ
      have differs : keyOf other ≠ entry.key := same ▸ differ
      rw [lookup_middle_of_ne differs]
      exact lookup_middle_of_ne differs
  | @opened before after accumulators absent made =>
    split
    · rename_i ofKey
      rw [lookup_eq_none.mpr absent, changedEntry, made]
      exact lookup_middle
        (fun earlier isMember => ofKey ▸ absent earlier (List.mem_append_left _ isMember)) ofKey
    · rename_i differ
      exact lookup_middle_of_ne differ
  | refused absent failed =>
    split
    · rename_i ofKey
      rw [lookup_eq_none.mpr absent, changedEntry, failed]
      exact lookup_eq_none.mpr (ofKey ▸ absent)
    · rfl

end Landing

section OnDemand

variable {m : Type → Type} [Monad m]

/-- Change the group of a key among some entries as `updateEntries` does, where the accumulators of
a group that is opened come from a computation that may have effects. -/
def updateEntriesOnDemand (strategy : GroupStrategy) (values : Row)
    (make : m (Except Error (List Accumulator))) (change : AccumulatorChange) :
    List GroupEntry → m (Except Error Unit × List GroupEntry)
  | [] => do return openEntry values (← make) change []
  | entry :: rest =>
    match strategy.locate values entry.values with
    | .lt => do return openEntry values (← make) change (entry :: rest)
    | .eq =>
      let (outcome, changed) := changeEntry change entry
      pure (outcome, changed :: rest)
    | .gt => do
      let (outcome, changed) ← updateEntriesOnDemand strategy values make change rest
      return (outcome, entry :: changed)

/-- Change the group of a key, computing accumulators for it where it is opened. -/
def updateOnDemand (table : GroupTable) (values : Row)
    (make : m (Except Error (List Accumulator))) (change : AccumulatorChange) :
    m (Except Error Unit × GroupTable) := do
  let (outcome, entries) ← updateEntriesOnDemand table.strategy values make change table.entries
  return (outcome, { table with entries })

variable [LawfulMonad m]

/-- The accumulators are computed where the key has no entry, and only there. -/
theorem updateEntriesOnDemand_eq (make : m (Except Error (List Accumulator)))
    (keeps : Keeps strategy entries) (unused : Except Error (List Accumulator)) :
    updateEntriesOnDemand strategy values make change entries =
      if (lookup entries values).isSome then
        pure (updateEntries strategy values unused change entries)
      else do return updateEntries strategy values (← make) change entries := by
  induction entries with
  | nil => rfl
  | cons entry rest ih =>
    have restKeeps : Keeps strategy rest := (List.pairwise_cons.mp keeps).2
    cases located : strategy.locate values entry.values with
    | lt =>
      have absent : lookup (entry :: rest) values = none := lookup_eq_none.mpr fun other isMember =>
        GroupStrategy.ne_of_precedes (keeps.precedes_of_locate_lt located other isMember)
      simp only [updateEntriesOnDemand, updateEntries, located, absent, Option.isSome_none,
        Bool.false_eq_true, if_false]
    | eq =>
      have isKey := GroupStrategy.locate_eq_iff.mp located
      have found : lookup (entry :: rest) values = some entry :=
        @lookup_middle _ [] rest entry (fun _ isMember => (List.not_mem_nil isMember).elim) isKey
      simp only [updateEntriesOnDemand, updateEntries, located, found, Option.isSome_some, if_true]
    | gt =>
      have differ : keyOf values ≠ entry.key := keyOf_ne_of_locate_gt located
      have further : lookup (entry :: rest) values = lookup rest values :=
        @lookup_middle_of_ne _ [] rest entry differ
      simp only [updateEntriesOnDemand, updateEntries, located, further, ih restKeeps]
      split <;> simp only [pure_bind, bind_assoc]

end OnDemand

end GroupTable

end ColumnQuery
