import ColumnQuery.Proofs.Aggregate.Fold
import ColumnQuery.Proofs.Group.Order

/-! # What a group table holds

After some rows have entered a table, it has one entry per key, in the order of its strategy, and
the accumulators of an entry have folded the rows of its group in the order in which they came.
-/

namespace ColumnQuery

open GroupKey (IsCanonical)

namespace Accumulator

/-- Fold a row, one value into each accumulator. -/
def foldRow (accumulators : List Accumulator) (row : Row) : Except Error (List Accumulator) :=
  match accumulateEach accumulators row with
  | (.ok (), next) => .ok next
  | (.error error, _) => .error error

/-- Fold some rows, up to the first refusal. -/
def foldRows (accumulators : List Accumulator) (rows : List Row) :
    Except Error (List Accumulator) :=
  rows.foldlM foldRow accumulators

private theorem foldRow_cons (accumulator : Accumulator) (accumulators : List Accumulator)
    (value : Scalar) (row : Row) :
    foldRow (accumulator :: accumulators) (value :: row) = do
      let next ← accumulator.accumulate value
      let others ← foldRow accumulators row
      return next :: others := by
  rw [foldRow, accumulateEach]
  cases accumulator.accumulate value with
  | error error => rfl
  | ok next =>
    simp only [ok_bind, foldRow]
    rcases accumulateEach accumulators row with ⟨error | _, others⟩ <;> rfl

private theorem foldRows_cons (accumulators : List Accumulator) (row : Row) (rows : List Row) :
    foldRows accumulators (row :: rows) =
      (foldRow accumulators row >>= fun next => foldRows next rows) := by
  rw [foldRows, List.foldlM_cons]
  rfl

theorem foldRows_append (accumulators : List Accumulator) (front back : List Row) :
    foldRows accumulators (front ++ back) =
      (foldRows accumulators front >>= fun next => foldRows next back) := by
  rw [foldRows, List.foldlM_append]
  rfl

/-- Folding rows folds their first values into the first accumulator, and the others without it. -/
theorem foldRows_columns {α : Type} {accumulator : Accumulator} {accumulators : List Accumulator}
    {value : α → Scalar} {others : α → Row} {items : List α} {results : List Accumulator} :
    foldRows (accumulator :: accumulators) (items.map fun item => value item :: others item) =
        .ok results ↔
      ∃ first rest, results = first :: rest ∧ accumulator.absorb (items.map value) = .ok first ∧
        foldRows accumulators (items.map others) = .ok rest := by
  induction items generalizing accumulator accumulators with
  | nil =>
    constructor
    · intro success
      cases success
      exact ⟨accumulator, accumulators, rfl, rfl, rfl⟩
    · rintro ⟨first, rest, rfl, absorbed, folded⟩
      cases absorbed
      cases folded
      rfl
  | cons item items ih =>
    simp only [List.map_cons, foldRows_cons, foldRow_cons, absorb_cons, bind_eq_ok_iff,
      pure_eq_ok, Except.ok.injEq]
    constructor
    · rintro ⟨_, ⟨next, accumulated, more, folded, rfl⟩, success⟩
      obtain ⟨first, rest, rfl, absorbed, foldedRest⟩ := ih.mp success
      exact ⟨first, rest, rfl, ⟨next, accumulated, absorbed⟩, more, folded, foldedRest⟩
    · rintro ⟨first, rest, rfl, ⟨next, accumulated, absorbed⟩, more, folded, foldedRest⟩
      exact ⟨_, ⟨next, accumulated, more, folded, rfl⟩,
        ih.mpr ⟨first, rest, rfl, absorbed, foldedRest⟩⟩

/-- A refusal of a row is the refusal of one of its values. -/
theorem foldRows_columns_error {α : Type} {accumulator : Accumulator}
    {accumulators : List Accumulator} {value : α → Scalar} {others : α → Row} {items : List α}
    {error : Error}
    (failed : foldRows (accumulator :: accumulators)
      (items.map fun item => value item :: others item) = .error error) :
    accumulator.absorb (items.map value) = .error error ∨
      foldRows accumulators (items.map others) = .error error := by
  induction items generalizing accumulator accumulators with
  | nil => cases failed
  | cons item items ih =>
    simp only [List.map_cons, foldRows_cons, foldRow_cons, bind_eq_error_iff, pure_eq_ok] at failed
    simp only [List.map_cons, foldRows_cons, absorb_cons, bind_eq_error_iff]
    rcases failed with
      (refused | ⟨next, accumulated, refused | ⟨more, -, success⟩⟩) | ⟨_, folded, rest⟩
    · exact .inl (.inl refused)
    · exact .inr (.inl refused)
    · cases success
    · obtain ⟨next, accumulated, later⟩ := bind_eq_ok_iff.mp folded
      obtain ⟨more, foldedOthers, same⟩ := bind_eq_ok_iff.mp later
      cases same
      rcases ih rest with first | others
      · exact .inl (.inr ⟨next, accumulated, first⟩)
      · exact .inr (.inr ⟨more, foldedOthers, others⟩)

theorem foldRows_nil (rows : List Row) : foldRows [] rows = .ok [] := by
  induction rows with
  | nil => rfl
  | cons row rows ih =>
    rw [foldRows_cons]
    exact ih

end Accumulator

namespace GroupTable

/-- Where a key stands among some entries: between entries of other keys, with the accumulators of
its own entry or, if it has none yet, with fresh ones. -/
inductive Place (strategy : GroupStrategy) (key : Row) (fresh : List Accumulator)
    (before after : List GroupEntry) : List Accumulator → List GroupEntry → Prop where
  | found (accumulators : List Accumulator) :
      Place strategy key fresh before after accumulators (before ++ ⟨key, accumulators⟩ :: after)
  | opened (absent : key ∉ (before ++ after).map (·.values))
      (arranged : strategy.Arranged (before.map (·.values) ++ key :: after.map (·.values)))
      (last : strategy = .hash → after = []) :
      Place strategy key fresh before after fresh (before ++ after)

/-- Changing the group of a key changes the accumulators at the place of the key. -/
theorem updateEntries_eq {strategy : GroupStrategy} {key : Row} {entries : List GroupEntry}
    (keyCanonical : IsCanonical key) (canonical : ∀ entry ∈ entries, IsCanonical entry.values)
    (arranged : strategy.Arranged (entries.map (·.values))) (fresh : List Accumulator)
    (change : AccumulatorChange) :
    ∃ before after accumulators, Place strategy key fresh before after accumulators entries ∧
      updateEntries strategy key (.ok fresh) change entries =
        ((change accumulators).1, before ++ ⟨key, (change accumulators).2⟩ :: after) := by
  induction entries with
  | nil =>
    refine ⟨[], [], fresh, .opened List.not_mem_nil ?_ fun _ => rfl, rfl⟩
    exact List.pairwise_singleton ..
  | cons entry rest ih =>
    have entryCanonical := canonical entry List.mem_cons_self
    obtain ⟨precedes, restArranged⟩ := List.pairwise_cons.mp arranged
    rw [updateEntries]
    cases located : strategy.locate key entry.values with
    | lt =>
      obtain ⟨rfl, less⟩ :=
        GroupStrategy.ordered_of_locate_lt keyCanonical entryCanonical located
      have precedesAll : ∀ other ∈ (entry :: rest).map (·.values),
          GroupStrategy.ordered.Precedes key other := by
        intro other isMember
        rcases List.mem_cons.mp isMember with rfl | later
        · exact less
        · exact Std.TransCmp.lt_trans less (precedes other later)
      refine ⟨[], entry :: rest, fresh, .opened (fun isMember => ?_) ?_ nofun, rfl⟩
      · exact GroupStrategy.ne_of_precedes (precedesAll key isMember) rfl
      · exact List.pairwise_cons.mpr ⟨precedesAll, arranged⟩
    | eq =>
      obtain rfl := GroupStrategy.eq_of_locate keyCanonical entryCanonical located
      exact ⟨[], rest, entry.accumulators, .found _, rfl⟩
    | gt =>
      have precedesKey :=
        GroupStrategy.precedes_of_locate_gt keyCanonical entryCanonical located
      obtain ⟨before, after, accumulators, place, updated⟩ :=
        ih (fun other isMember => canonical other (List.mem_cons_of_mem _ isMember)) restArranged
      refine ⟨entry :: before, after, accumulators, ?_, by rw [updated]; rfl⟩
      cases place with
      | found => exact .found accumulators
      | opened absent placed last =>
        refine .opened (fun isMember => ?_)
          (List.pairwise_cons.mpr ⟨fun other isMember => ?_, placed⟩) last
        · rcases List.mem_cons.mp isMember with rfl | later
          · exact GroupStrategy.ne_of_precedes precedesKey rfl
          · exact absent later
        · rw [List.map_append] at precedes
          rcases List.mem_append.mp isMember with isBefore | isAfter
          · exact precedes other (List.mem_append_left _ isBefore)
          · rcases List.mem_cons.mp isAfter with rfl | isAfter
            · exact precedesKey
            · exact precedes other (List.mem_append_right _ isAfter)

namespace Place

variable {strategy : GroupStrategy} {key : Row} {fresh accumulators : List Accumulator}
  {before after entries : List GroupEntry}

/-- The entries around the place are entries of other keys. -/
theorem other (place : Place strategy key fresh before after accumulators entries)
    (arranged : strategy.Arranged (entries.map (·.values))) {entry : GroupEntry}
    (isMember : entry ∈ before ++ after) : key ≠ entry.values ∧ entry ∈ entries := by
  cases place with
  | found =>
    have moved : (before ++ ⟨key, accumulators⟩ :: after).Perm
        (⟨key, accumulators⟩ :: (before ++ after)) := List.perm_middle
    have once := (moved.map (·.values)).nodup_iff.mp (GroupStrategy.nodup_of_arranged arranged)
    rw [List.map_cons, List.nodup_cons] at once
    exact ⟨fun same => once.1 (List.mem_map.mpr ⟨entry, isMember, same.symm⟩),
      moved.mem_iff.mpr (List.mem_cons_of_mem _ isMember)⟩
  | opened absent =>
    exact ⟨fun same => absent (List.mem_map.mpr ⟨entry, isMember, same.symm⟩), isMember⟩

/-- With an entry at its place, a key is among the keys of the table. -/
theorem arrange_append (place : Place strategy key fresh before after accumulators entries)
    {keys : List Row} (whole : entries.map (·.values) = strategy.arrange keys) :
    before.map (·.values) ++ key :: after.map (·.values) = strategy.arrange (keys ++ [key]) := by
  cases place with
  | found =>
    rw [List.map_append, List.map_cons] at whole
    have known : key ∈ strategy.arrange keys := by
      rw [← whole]
      exact List.mem_append_right _ List.mem_cons_self
    rw [GroupStrategy.arrange_known (GroupStrategy.mem_arrange.mp known), whole]
  | opened absent arranged last =>
    rw [whole, GroupStrategy.mem_arrange] at absent
    rw [List.map_append] at whole
    exact (GroupStrategy.arrange_new absent whole.symm arranged
      fun hash => by rw [last hash, List.map_nil]).symm

end Place

end GroupTable

theorem groupMembers_append (front back : List (Row × Row)) (key : Row) :
    groupMembers (front ++ back) key = groupMembers front key ++ groupMembers back key := by
  rw [groupMembers, List.filter_append, List.map_append]
  rfl

private theorem groupMembers_snoc (keyed : List (Row × Row)) (own operands key : Row) :
    groupMembers (keyed ++ [(own, operands)]) key =
      groupMembers keyed key ++ if own = key then [operands] else [] := by
  rw [groupMembers_append, groupMembers, groupMembers, List.filter_cons]
  by_cases same : own = key <;> simp [same]

private theorem groupMembers_of_not_mem {keyed : List (Row × Row)} {key : Row}
    (absent : key ∉ keyed.map (·.1)) : groupMembers keyed key = [] := by
  rw [groupMembers, List.map_eq_nil_iff, List.filter_eq_nil_iff]
  intro own isMember same
  exact absent (List.mem_map.mpr ⟨own, isMember, eq_of_beq same⟩)

/-- A table holds the groups of the rows that have entered it, each given by its key and its
operands. -/
structure GroupTable.Represents (table : GroupTable) (fresh : List Accumulator)
    (entered : List (Row × Row)) : Prop where
  canonical : ∀ row ∈ entered, IsCanonical row.1
  keys : table.entries.map (·.values) = table.strategy.arrange (entered.map (·.1))
  folds : ∀ entry ∈ table.entries,
    Accumulator.foldRows fresh (groupMembers entered entry.values) = .ok entry.accumulators

namespace GroupTable

theorem represents_empty (strategy : GroupStrategy) (fresh : List Accumulator) :
    (empty strategy).Represents fresh [] where
  canonical _ isMember := by cases isMember
  keys := strategy.arrange_nil.symm
  folds _ isMember := by cases isMember

namespace Represents

variable {table : GroupTable} {fresh : List Accumulator} {entered : List (Row × Row)}

theorem arranged (represents : table.Represents fresh entered) :
    table.strategy.Arranged (table.entries.map (·.values)) := by
  rw [represents.keys]
  exact table.strategy.arranged_arrange _

private theorem mem_keys (represents : table.Represents fresh entered) {key : Row} :
    key ∈ table.entries.map (·.values) ↔ key ∈ entered.map (·.1) := by
  rw [represents.keys, GroupStrategy.mem_arrange]

private theorem canonical_of_mem (represents : table.Represents fresh entered) {entry : GroupEntry}
    (isEntry : entry ∈ table.entries) : IsCanonical entry.values := by
  obtain ⟨row, isMember, same⟩ :=
    List.mem_map.mp (represents.mem_keys.mp (List.mem_map_of_mem isEntry))
  rw [← same]
  exact represents.canonical row isMember

/-- The accumulators at the place of a key have folded the rows of its group. -/
theorem folds_place (represents : table.Represents fresh entered) {key : Row}
    {accumulators : List Accumulator} {before after : List GroupEntry}
    (place : Place table.strategy key fresh before after accumulators table.entries) :
    Accumulator.foldRows fresh (groupMembers entered key) = .ok accumulators := by
  generalize whole : table.entries = entries at place
  cases place with
  | found =>
    refine represents.folds ⟨key, accumulators⟩ ?_
    rw [whole]
    exact List.mem_append_right _ List.mem_cons_self
  | opened absent =>
    rw [← whole, represents.mem_keys] at absent
    rw [groupMembers_of_not_mem absent]
    rfl

/-- A row that enters is folded into its group and leaves the other groups as they are. -/
theorem update (represents : table.Represents fresh entered) {key : Row}
    (keyCanonical : IsCanonical key) (operands : Row) :
    (∃ next, table.update key (.ok fresh) (Accumulator.accumulateEach · operands) =
        (.ok (), next) ∧ next.strategy = table.strategy ∧
        next.Represents fresh (entered ++ [(key, operands)])) ∨
      ∃ error next, table.update key (.ok fresh) (Accumulator.accumulateEach · operands) =
        (.error error, next) ∧
        Accumulator.foldRows fresh (groupMembers (entered ++ [(key, operands)]) key) =
          .error error := by
  obtain ⟨before, after, accumulators, place, updated⟩ :=
    updateEntries_eq keyCanonical (fun entry => represents.canonical_of_mem) represents.arranged
      fresh (Accumulator.accumulateEach · operands)
  have folded : Accumulator.foldRows fresh (groupMembers (entered ++ [(key, operands)]) key) =
      Accumulator.foldRow accumulators operands := by
    rw [groupMembers_snoc, if_pos rfl, Accumulator.foldRows_append, represents.folds_place place,
      ok_bind, Accumulator.foldRows_cons]
    exact bind_pure _
  rw [GroupTable.update, updated, folded]
  rcases changed : Accumulator.accumulateEach accumulators operands with ⟨error | _, next⟩
  · exact .inr ⟨error, _, rfl, by rw [Accumulator.foldRow, changed]⟩
  refine .inl ⟨_, rfl, rfl, ?_, ?_, ?_⟩
  · intro row isMember
    rcases List.mem_append.mp isMember with early | last
    · exact represents.canonical row early
    · rw [List.mem_singleton.mp last]
      exact keyCanonical
  · rw [List.map_append, List.map_cons, List.map_append, List.map_cons, List.map_nil]
    exact place.arrange_append represents.keys
  · intro entry isMember
    rcases List.mem_cons.mp (List.perm_middle.mem_iff.mp isMember) with rfl | isOther
    · rw [folded, Accumulator.foldRow, changed]
    · obtain ⟨differ, isEntry⟩ := place.other represents.arranged isOther
      rw [groupMembers_snoc, if_neg differ, List.append_nil]
      exact represents.folds entry isEntry

end Represents

end GroupTable

end ColumnQuery
