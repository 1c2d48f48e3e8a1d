import ColumnQuery.Batch.Held
import ColumnQuery.Proofs.Batch.Required
import ColumnQuery.Proofs.Column.Building

/-! # Work on a batch keeps its parts together

Whatever the steps of the work are, and whether they succeed or not, the parts at hand are those of
a well formed batch. A step that fails leaves them as they are. A mask keeps the rows of its true
entries in every column alike, and two masks one after the other do what one of the same length
does. Positions choose columns, and a batch that is handed to a client comes back unchanged.
-/

namespace ColumnQuery

/-- The rows of the true entries of a mask, in order. -/
def trueRows (mask : List (Option Bool)) : List Nat :=
  (List.range mask.length).filter fun row => mask[row]? == some (some true)

/-- The mask that keeps what a second mask keeps of the rows that a first one keeps. -/
def throughMask : (first second : List (Option Bool)) → List (Option Bool)
  | [], _ => []
  | some true :: first, entry :: second => entry :: throughMask first second
  | _ :: first, second => some false :: throughMask first second

section Masks

private theorem trueRows_cons (entry : Option Bool) (mask : List (Option Bool)) :
    trueRows (entry :: mask) =
      (if entry = some true then [0] else []) ++ (trueRows mask).map Nat.succ := by
  have later : ((List.range mask.length).map Nat.succ).filter
      (fun row => (entry :: mask)[row]? == some (some true)) = (trueRows mask).map Nat.succ := by
    rw [List.filter_map]
    rfl
  rw [trueRows, List.length_cons, List.range_succ_eq_map, List.filter_cons, later]
  by_cases true : entry = some true <;> simp [true]

private theorem length_trueRows (mask : List (Option Bool)) :
    (trueRows mask).length = keptCount mask := by
  induction mask with
  | nil => rfl
  | cons entry mask ih =>
    rw [trueRows_cons, List.length_append, List.length_map, ih, keptCount, keptCount,
      List.countP_cons]
    by_cases true : entry = some true <;> simp [true, Nat.add_comm]

/-- Counting the true values of a mask without nulls counts the rows that it keeps, as counting the
rows does. -/
theorem countTrue_eq (mask : List (Option Bool)) : countTrue mask = keptCount mask := by
  unfold countTrue
  split
  · rename_i known
    obtain ⟨values, same⟩ : ∃ values : List Bool, mask.map id = values.map some :=
      exists_map_some (List.all_eq_true.mp known)
    rw [List.map_id] at same
    subst same
    simp [keptCount, List.count, List.countP_map, Function.comp_def, List.filterMap_map]
  · rw [List.countP_eq_length_filter]
    exact length_trueRows mask

/-- A mask keeps the items in the rows of its true entries. -/
theorem keep_eq_trueRows {α : Type} {mask : List (Option Bool)} {items : List α}
    (sameLength : mask.length = items.length) :
    (keep mask items).map some = (trueRows mask).map (items[·]?) := by
  induction mask generalizing items with
  | nil => rfl
  | cons entry mask ih =>
    cases items with
    | nil => cases sameLength
    | cons item items =>
      have rest := @ih items (by simpa using sameLength)
      rw [trueRows_cons, List.map_append, List.map_map]
      rcases entry with _ | _ | _ <;> simp [keep, rest, Function.comp_def]

@[simp] theorem length_throughMask (first second : List (Option Bool)) :
    (throughMask first second).length = first.length := by
  fun_induction throughMask first second <;> simp_all

private theorem keep_nil {α : Type} (mask : List (Option Bool)) : keep mask ([] : List α) = [] := by
  rcases mask with _ | ⟨_ | _ | _, mask⟩ <;> rfl

private theorem keep_throughMask {α : Type} {first second : List (Option Bool)}
    (sameLength : second.length = keptCount first) (items : List α) :
    keep (throughMask first second) items = keep second (keep first items) := by
  fun_induction throughMask first second generalizing items with
  | case1 second =>
    obtain rfl : second = [] := List.length_eq_zero_iff.mp sameLength
    rfl
  | case2 first entry second ih =>
    have rest := ih (by simpa [keptCount] using sameLength)
    cases items with
    | nil => simp only [keep_nil]
    | cons item items => rcases entry with _ | _ | _ <;> simp [keep, rest]
  | case3 entry first second notBoth ih =>
    rcases entry with _ | _ | _
    case some.true =>
      cases second with
      | nil => simp [keptCount] at sameLength
      | cons entry second => exact (notBoth entry second rfl rfl).elim
    all_goals
      have rest := ih (by simpa [keptCount] using sameLength)
      cases items with
      | nil => simp only [keep_nil]
      | cons item items => simp [keep, rest]

private theorem keptCount_throughMask {first second : List (Option Bool)}
    (sameLength : second.length = keptCount first) :
    keptCount (throughMask first second) = keptCount second := by
  have items := keep_throughMask sameLength (List.range first.length)
  have kept : (keep first (List.range first.length)).length = second.length := by
    rw [sameLength, length_keep (by simp)]
  have lengths := congrArg List.length items
  rwa [length_keep (by simp), length_keep kept.symm] at lengths

end Masks

/-- A filter that keeps the rows of the true entries of a mask of the right length. With masks of
other lengths it may do anything. -/
def ColumnFilter.KeepsRows (filter : ColumnFilter) : Prop :=
  ∀ mask column, mask.length = column.length → filter mask column = .ok (column.keepRows mask)

/-- The filter that refuses masks of other lengths. -/
def ColumnFilter.exact : ColumnFilter := fun mask column =>
  if mask.length = column.length then .ok (column.keepRows mask)
  else .error (.maskLength mask.length column.length)

private theorem ColumnFilter.exact_keepsRows :
    exact.KeepsRows := fun _ _ sameLength => if_pos sameLength

namespace HeldBatch

/-- One column per field, each of the type of its field and of the row count. -/
structure InShape (held : HeldBatch) : Prop where
  count : held.columns.length = held.schema.fields.length
  column : ∀ (index : Nat) (field : Field) (column : Column),
    held.schema.fields[index]? = some field → held.columns[index]? = some column →
      column.type = field.type ∧ column.length = held.rowCount

/-- What a mask does to the parts at hand. -/
structure Shrinks (filter : ColumnFilter) (held : HeldBatch) : Prop where
  success : ∀ mask, (held.shrink filter mask).1 = .ok () ↔ mask.length = held.rowCount
  schema : ∀ mask, (held.shrink filter mask).2.schema = held.schema
  rowCount : ∀ mask, mask.length = held.rowCount →
    (held.shrink filter mask).2.rowCount = (trueRows mask).length
  /-- Every column keeps the cells of the same rows. -/
  columns : ∀ mask, mask.length = held.rowCount →
    List.Forall₂ (fun whole part => part.type = whole.type ∧
        part.cells.map some = (trueRows mask).map (whole.cells[·]?))
      held.columns (held.shrink filter mask).2.columns
  twice : ∀ first second, first.length = held.rowCount →
    second.length = (trueRows first).length →
      (held.shrink filter first).2.shrink filter second =
        held.shrink filter (throughMask first second)

/-- What a choice of positions gives. -/
structure Projects (held : HeldBatch) : Prop where
  success : ∀ ordinals, (∃ chosen, held.project ordinals = .ok chosen) ↔
    ∀ ordinal ∈ ordinals, ordinal < held.columns.length
  chosen : ∀ ordinals chosen, held.project ordinals = .ok chosen →
    chosen.rowCount = held.rowCount ∧
      chosen.schema.fields.map some = ordinals.map (held.schema.fields[·]?) ∧
      chosen.columns.map some = ordinals.map (held.columns[·]?)

/-- What a client gets and gives back. -/
structure Exchanges (held : HeldBatch) : Prop where
  success : (∃ records, held.toRecordSet = .ok records) ↔
    ∀ (index : Nat) (field : Field) (column : Column), held.schema.fields[index]? = some field →
      held.columns[index]? = some column → field.nullable = false → .null ∉ column.cells
  back : ∀ records, held.toRecordSet = .ok records →
    ∃ batch, Batch.ofRecordSet records = .ok batch ∧ batch.parts = held

end HeldBatch

/-- The batch that a step computes from a well formed one. -/
def HandlingStep.result (batch : Batch) : HandlingStep → Except Error Batch
  | ofColumns schema columns => Batch.ofColumns schema columns
  | build schema columns rowCount => Batch.build schema columns rowCount
  | ofRecordSet records => Batch.ofRecordSet records
  | shrink mask => batch.shrink mask
  | project ordinals => batch.project ordinals
  | exchange => do Batch.ofRecordSet (← batch.toRecordSet)

section Parts

variable {filter : ColumnFilter} (filters : filter.KeepsRows) (batch : Batch)

private theorem HeldBatch.inShape_parts : batch.parts.InShape where
  count := batch.length_columns
  column _ _ _ isField isColumn :=
    ⟨Batch.type_of_getElem? isField isColumn,
      batch.matching.lengths _ (List.mem_of_getElem? isColumn)⟩

include filters in
private theorem HeldBatch.shrink_parts (mask : List (Option Bool)) :
    batch.parts.shrink filter mask =
      match batch.shrink mask with
      | .ok kept => (.ok (), kept.parts)
      | .error error => (.error error, batch.parts) := by
  by_cases sameLength : mask.length = batch.rowCount
  · have filtered : batch.columns.mapM (filter mask) =
        .ok (batch.columns.map (·.keepRows mask)) := by
      rw [← mapM_ok]
      exact mapM_congr fun column isColumn =>
        filters mask column (sameLength.trans (batch.matching.lengths column isColumn).symm)
    simp [shrink, Batch.shrink, Batch.parts, Batch.keepRows, sameLength, filtered, countTrue_eq]
  · simp [shrink, Batch.shrink, Batch.parts, sameLength]

include filters in
private theorem HeldBatch.shrink_parts_of_length {mask : List (Option Bool)}
    (sameLength : mask.length = batch.rowCount) :
    batch.parts.shrink filter mask = (.ok (), (batch.keepRows mask sameLength).parts) := by
  rw [shrink_parts filters, Batch.shrink, dif_pos sameLength]

private theorem Batch.keepRows_keepRows {first second : List (Option Bool)}
    (sameLength : first.length = batch.rowCount) (fits : second.length = keptCount first) :
    ((batch.keepRows first sameLength).keepRows second fits).parts =
      (batch.keepRows (throughMask first second)
        ((length_throughMask first second).trans sameLength)).parts := by
  simp only [parts, keepRows, keptCount_throughMask fits, List.map_map, HeldBatch.mk.injEq,
    true_and, and_true]
  exact List.map_congr_left fun column _ =>
    Column.ext rfl (keep_throughMask fits column.cells).symm

include filters in
private theorem HeldBatch.shrinks_parts : batch.parts.Shrinks filter where
  success mask := by
    by_cases sameLength : mask.length = batch.rowCount
    · rw [shrink_parts_of_length filters batch sameLength]
      exact iff_of_true rfl sameLength
    · rw [shrink_parts filters, Batch.shrink, dif_neg sameLength]
      exact iff_of_false nofun sameLength
  schema mask := by
    by_cases sameLength : mask.length = batch.rowCount
    · rw [shrink_parts_of_length filters batch sameLength]
      rfl
    · rw [shrink_parts filters, Batch.shrink, dif_neg sameLength]
  rowCount mask sameLength := by
    rw [shrink_parts_of_length filters batch sameLength, length_trueRows]
    rfl
  columns mask sameLength := by
    rw [shrink_parts_of_length filters batch sameLength]
    refine List.forall₂_map_right_iff.mpr (List.forall₂_same.mpr fun column isColumn => ⟨rfl, ?_⟩)
    exact keep_eq_trueRows (sameLength.trans (batch.matching.lengths column isColumn).symm)
  twice first second sameLength fits := by
    rw [length_trueRows] at fits
    rw [shrink_parts_of_length filters batch sameLength,
      shrink_parts_of_length filters (batch.keepRows first sameLength) fits,
      Batch.keepRows_keepRows batch sameLength fits]
    exact (shrink_parts_of_length filters batch _).symm

private theorem HeldBatch.projects_parts : batch.parts.Projects where
  success ordinals := by
    constructor
    · rintro ⟨chosen, success⟩ ordinal isMember
      obtain ⟨-, columns, -⟩ := Batch.project_eq_ok success
      have inBounds : ordinal < batch.columns.length := by
        simpa using isSome_of_map_some columns ordinal isMember
      exact inBounds
    · intro found
      exact Batch.exists_project fun ordinal isMember =>
        batch.length_columns ▸ found ordinal isMember
  chosen ordinals chosen success := by
    obtain ⟨fields, columns, rowCount⟩ := Batch.project_eq_ok success
    exact ⟨rowCount, fields.symm, columns.symm⟩

private theorem HeldBatch.exchanges_parts : batch.parts.Exchanges where
  success := by
    have required := batch.nullInRequired?_eq_none
    change (∃ records, batch.toRecordSet = .ok records) ↔ _
    rw [Batch.toRecordSet]
    constructor
    · rintro ⟨records, success⟩
      split at success
      · cases success
      · rename_i none
        intro index field column isField isColumn notNullable isNull
        have nullable := required.mp none index field column isField isColumn isNull
        simp [notNullable] at nullable
    · intro allowed
      have none : batch.nullInRequired? = none := required.mpr fun index field column isField
          isColumn isNull => by
        by_contra notNullable
        exact allowed index field column isField isColumn (by simpa using notNullable) isNull
      rw [none]
      exact ⟨_, rfl⟩
  back records success := by
    change batch.toRecordSet = .ok records at success
    rw [Batch.toRecordSet] at success
    split at success <;> cases success
    have columns : (batch.columns.map Column.toRaw).mapM Column.ofRaw = .ok batch.columns := by
      rw [mapM_eq_ok_iff, List.map_map]
      exact List.map_congr_left fun column _ => Column.ofRaw_toRaw column
    refine ⟨batch, ?_, rfl⟩
    rw [Batch.ofRecordSet, columns]
    exact Batch.build_eq_ok_iff.mpr ⟨rfl, rfl, rfl⟩

include filters in
/-- On the parts of a well formed batch a step does what the functions on batches do. If it fails,
the parts stay. -/
theorem HeldBatch.take_parts (step : HandlingStep) :
    take filter (some batch.parts) step = replace (some batch.parts) (step.result batch) := by
  cases step with
  | shrink mask =>
    rw [take, shrink_parts filters, HandlingStep.result]
    cases batch.shrink mask <;> rfl
  | ofColumns | build | ofRecordSet | project | exchange => rfl

end Parts

namespace HeldBatch

variable {filter : ColumnFilter}

/-- What is at hand are the parts of a well formed batch, if there is anything. -/
def Formed (current : Option HeldBatch) : Prop :=
  ∀ held, current = some held → ∃ batch : Batch, batch.parts = held

private theorem formed_none : Formed none := nofun

private theorem formed_parts (batch : Batch) : Formed (some batch.parts) := by
  rintro held ⟨⟩
  exact ⟨batch, rfl⟩

private theorem formed_replace {current : Option HeldBatch} (formed : Formed current)
    (computed : Except Error Batch) : Formed (replace current computed).2 := by
  cases computed with
  | ok batch => exact formed_parts batch
  | error error => exact formed

private theorem formed_take (filters : filter.KeepsRows) {current : Option HeldBatch}
    (formed : Formed current) (step : HandlingStep) : Formed (take filter current step).2 := by
  cases current with
  | some held =>
    obtain ⟨batch, rfl⟩ := formed held rfl
    rw [take_parts filters]
    exact formed_replace formed _
  | none =>
    cases step with
    | ofColumns | build | ofRecordSet => exact formed_replace formed_none _
    | shrink | project | exchange => exact formed_none

/-- Whatever the steps, well formed parts stay well formed. -/
theorem formed_foldl_take (filters : filter.KeepsRows) (steps : List HandlingStep)
    {current : Option HeldBatch} (formed : Formed current) :
    Formed (steps.foldl (fun held step => (take filter held step).2) current) := by
  induction steps generalizing current with
  | nil => exact formed
  | cons step steps ih => exact ih (formed_take filters formed step)

private theorem replace_of_error {current : Option HeldBatch} {computed : Except Error Batch}
    {error : Error} (failed : (replace current computed).1 = .error error) :
    (replace current computed).2 = current := by
  cases computed with
  | ok batch => cases failed
  | error error => rfl

private theorem shrink_of_error {mask : List (Option Bool)} {held : HeldBatch} {error : Error}
    (failed : (held.shrink filter mask).1 = .error error) :
    (held.shrink filter mask).2 = held := by
  unfold shrink at failed ⊢
  split
  · rfl
  · rename_i sameLength
    rw [if_neg sameLength] at failed
    -- A column that is not filtered ends the step before the others take their new places.
    cases filtered : held.columns.mapM (filter mask) with
    | error error => rfl
    | ok columns =>
      rw [filtered] at failed
      cases failed

/-- A step that fails leaves what is at hand, even if it fails after some of the columns. -/
theorem take_of_error {current : Option HeldBatch} {step : HandlingStep} {error : Error}
    (failed : (take filter current step).1 = .error error) :
    (take filter current step).2 = current := by
  cases current with
  | some held =>
    cases step with
    | shrink mask => exact congrArg some (shrink_of_error failed)
    | ofColumns | build | ofRecordSet | project | exchange => exact replace_of_error failed
  | none =>
    cases step with
    | ofColumns | build | ofRecordSet => exact replace_of_error failed
    | shrink | project | exchange => rfl

/-- Whatever steps were taken with whatever arguments, the parts at hand fit each other, and a
further step that fails leaves them, whichever way columns are filtered. A mask is taken if it has
an entry per row, and keeps the rows of its true entries in every column. Positions are taken if all
are in range, and a client gets the parts if no required field holds a null. -/
theorem handling_keeps_shape (filters : filter.KeepsRows) (steps : List HandlingStep)
    {held : HeldBatch} (reached : handle filter steps = some held) :
    held.InShape ∧
      (∀ (filter : ColumnFilter) (step : HandlingStep) (error : Error),
        (take filter (some held) step).1 = .error error →
          (take filter (some held) step).2 = some held) ∧
      held.Shrinks filter ∧ held.Projects ∧ held.Exchanges ∧
      ∃ batch : Batch, batch.parts = held ∧
        ∀ step, take filter (some held) step = replace (some held) (step.result batch) := by
  obtain ⟨batch, rfl⟩ := formed_foldl_take filters steps formed_none held reached
  exact ⟨inShape_parts batch, fun _ _ _ => take_of_error, shrinks_parts filters batch,
    projects_parts batch, exchanges_parts batch, batch, rfl, take_parts filters batch⟩

/-- Three rows are built and a position is repeated; one mask is too short, another drops a row
whose entry is null, and the parts cannot be handed over with a null in a required field. -/
theorem handling_keeps_shape_three_rows :
    let count : Field := ⟨"n", .int64, false⟩
    let flag : Field := ⟨"b", .boolean, true⟩
    let flags : Column := ⟨.boolean, [.boolean true, .null, .boolean false], rfl, by decide⟩
    let steps : List HandlingStep :=
      [.build ⟨[count, flag]⟩ [⟨.int64, [.int64 1, .null, .int64 3], rfl, by decide⟩, flags] 3,
        .ofColumns ⟨[count, flag]⟩ [flags], .project [1, 0, 1], .shrink [some true],
        .shrink [some true, some true, none], .exchange]
    let held : HeldBatch :=
      ⟨⟨[flag, count, flag]⟩, [⟨.boolean, [.boolean true, .null], rfl, by decide⟩,
        ⟨.int64, [.int64 1, .null], rfl, by decide⟩,
        ⟨.boolean, [.boolean true, .null], rfl, by decide⟩], 2⟩
    ColumnFilter.exact.KeepsRows ∧ handle .exact steps = some held ∧ held.InShape ∧
      (∀ (filter : ColumnFilter) (step : HandlingStep) (error : Error),
        (take filter (some held) step).1 = .error error →
          (take filter (some held) step).2 = some held) ∧
      held.Shrinks .exact ∧ held.Projects ∧ held.Exchanges ∧
      ∃ batch : Batch, batch.parts = held ∧
        ∀ step, take .exact (some held) step = replace (some held) (step.result batch) := by
  intro count flag flags steps held
  have reached : handle .exact steps = some held := by rfl
  exact ⟨ColumnFilter.exact_keepsRows, reached,
    handling_keeps_shape ColumnFilter.exact_keepsRows steps reached⟩

end HeldBatch

end ColumnQuery
