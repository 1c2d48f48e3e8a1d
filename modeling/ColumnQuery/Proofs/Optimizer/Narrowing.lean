import ColumnQuery.Proofs.Expr.Compilation
import ColumnQuery.Proofs.Optimizer.Validity
import Mathlib.Data.List.Induction

/-! # What pushdown changes

Pushdown keeps every node of a plan and changes at most which columns its leaf reads. These are then
the names that the nodes above the leaf use and that the leaf has, each once and in the order of
their first use, whether they are collected in one walk from the root down or all at once. The leaf
has just these columns after it is narrowed, and so narrowing it again changes nothing.
-/

namespace ColumnQuery

section Names

private theorem eraseDups_snoc (names : List String) (name : String) :
    (names ++ [name]).eraseDups =
      if name ∈ names then names.eraseDups else names.eraseDups ++ [name] := by
  rw [List.eraseDups_append]
  by_cases known : name ∈ names <;> simp [known, List.removeAll, List.eraseDups_cons]

/-- Names that are collected one by one, each only when it is new. -/
theorem foldl_requireName (names : List String) :
    names.foldl requireName [] = names.eraseDups := by
  induction names using List.reverseRecOn with
  | nil => rfl
  | append_singleton names name ih =>
    rw [List.foldl_append, ih, eraseDups_snoc, List.foldl_cons, List.foldl_nil, requireName]
    simp only [List.mem_eraseDups]

/-- Names without their repetitions stand in the order of their first occurrences. -/
theorem eraseDups_inOrder (names : List String) :
    names.eraseDups.Pairwise fun earlier later => names.idxOf earlier < names.idxOf later := by
  induction names using List.reverseRecOn with
  | nil => exact .nil
  | append_singleton names name ih =>
    have old {other : String} (isMember : other ∈ names.eraseDups) :
        (names ++ [name]).idxOf other = names.idxOf other :=
      List.idxOf_append_of_mem (List.mem_eraseDups.mp isMember)
    have kept : names.eraseDups.Pairwise fun earlier later =>
        (names ++ [name]).idxOf earlier < (names ++ [name]).idxOf later := by
      refine ih.imp_of_mem fun isEarlier isLater before => ?_
      rwa [old isEarlier, old isLater]
    rw [eraseDups_snoc]
    split
    · exact kept
    · rename_i new
      refine List.pairwise_append.mpr ⟨kept, List.pairwise_singleton .., ?_⟩
      intro other isMember last isLast
      obtain rfl := List.mem_singleton.mp isLast
      rw [old isMember, List.idxOf_append_of_notMem new]
      exact Nat.lt_add_right _ (List.idxOf_lt_length_of_mem (List.mem_eraseDups.mp isMember))

end Names

namespace Plan

private theorem columnNames_withTable (plan : Plan) (other : TableInput) :
    (plan.withTable other).columnNames = plan.columnNames := by
  induction plan with
  | input table => rfl
  | project below exprs ih | filter below predicate ih | aggregate below groups aggregates ih
  | output below ih => simp only [withTable, columnNames, ih]

private theorem definesColumns_withTable (plan : Plan) (other : TableInput) :
    (plan.withTable other).definesColumns = plan.definesColumns := by
  induction plan with
  | input | project | aggregate => rfl
  | filter below predicate ih | output below ih => simp only [withTable, definesColumns, ih]

section Walk

private theorem foldl_require (required : List String) (exprs : List Expr) :
    exprs.foldl Expr.require required = (exprs.flatMap Expr.columns).foldl requireName required :=
  List.foldl_flatMap.symm

/-- A walk that may leave the leaf as it is leaves it so if no node computes columns. Otherwise it
reaches the leaf with the names that are required from above and the names of all nodes. -/
theorem pushdownFrom_eq (plan : Plan) (required : List String) (needsAll : Bool) :
    plan.pushdownFrom required needsAll =
      if needsAll && !plan.definesColumns then .ok plan
      else plan.mapTable (TableInput.narrow (plan.columnNames.foldl requireName required)) := by
  induction plan generalizing required needsAll with
  | input table => cases needsAll <;> rfl
  | project below exprs ih =>
    simp only [pushdownFrom, ih, columnNames, definesColumns, mapTable, List.foldl_append,
      foldl_require, Bool.false_and, Bool.not_true, Bool.and_false, Bool.false_eq_true, if_false]
  | filter below predicate ih =>
    simp only [pushdownFrom, ih, columnNames, definesColumns, mapTable, List.foldl_append,
      Expr.require]
    cases needsAll && !below.definesColumns <;> rfl
  | aggregate below groups aggregates ih =>
    simp only [pushdownFrom, ih, columnNames, definesColumns, mapTable, List.foldl_append,
      List.flatMap_append, foldl_require, Bool.false_and, Bool.not_true, Bool.and_false,
      Bool.false_eq_true, if_false]
  | output below ih =>
    rw [pushdownFrom, ih, columnNames, definesColumns, mapTable]
    cases needsAll && !below.definesColumns <;> rfl

/-- One walk does what collecting all names first does. -/
theorem pushdownFrom_root (plan : Plan) : plan.pushdownFrom [] true = plan.pushdown := by
  rw [pushdownFrom_eq, pushdown, foldl_requireName]
  cases plan.definesColumns <;> rfl

end Walk

end Plan

namespace TableInput

variable {names : List String} {table narrowed : TableInput} {available : Schema}

private theorem filter_field? (available : Schema) (names : List String) :
    (names.filter fun name => (available.field? name).isSome) =
      names.filter (· ∈ available.names) := by
  refine List.filter_congr fun name _ => ?_
  rw [Bool.eq_iff_iff, decide_eq_true_iff, Option.isSome_iff_exists, Schema.exists_field?_iff]

private theorem narrow_of_read (read : table.schema = .ok available) :
    table.narrow names =
      .ok (if (names.filter (· ∈ available.names)).isEmpty then table
        else { table with projection := some (names.filter (· ∈ available.names)) }) := by
  rw [narrow, read, ← filter_field?]
  cases names <;> rfl

/-- A table whose columns cannot be found is only kept, and only if no column is asked for. -/
theorem narrow_of_unread {error : Error} (unread : table.schema = .error error)
    (success : table.narrow names = .ok narrowed) : names = [] ∧ narrowed = table := by
  rw [narrow, unread] at success
  cases names with
  | nil => exact ⟨rfl, (Except.ok.inj success).symm⟩
  | cons name names => cases success

/-- Narrowing changes at most which columns a table reads. -/
theorem projection_of_narrow (success : table.narrow names = .ok narrowed) :
    ∃ projection, narrowed = { table with projection } := by
  cases read : table.schema with
  | error error => exact ⟨table.projection, (narrow_of_unread read success).2⟩
  | ok available =>
    obtain rfl := Except.ok.inj ((narrow_of_read read).symm.trans success)
    split
    · exact ⟨table.projection, rfl⟩
    · exact ⟨_, rfl⟩

/-- A table that has none of some names is kept. -/
theorem eq_of_narrow (success : table.narrow names = .ok narrowed)
    (unused : ∀ available, table.schema = .ok available →
      ∀ name ∈ names, name ∉ available.names) : narrowed = table := by
  cases read : table.schema with
  | error error => exact (narrow_of_unread read success).2
  | ok available =>
    have none : names.filter (· ∈ available.names) = [] := by
      simpa [List.filter_eq_nil_iff] using unused available read
    rw [narrow_of_read read, none] at success
    exact (Except.ok.inj success).symm

/-- A table that reads only what it has of some names has no more of them when it is asked again. -/
theorem narrow_narrow (success : table.narrow names = .ok narrowed) :
    narrowed.narrow names = .ok narrowed := by
  cases read : table.schema with
  | error error =>
    obtain ⟨-, rfl⟩ := narrow_of_unread read success
    exact success
  | ok available =>
    have result := Except.ok.inj ((narrow_of_read read).symm.trans success)
    split at result
    · rwa [← result] at success ⊢
    · rename_i some
      subst result
      obtain ⟨schema, agrees⟩ := agreesOn_of_kept read names
      simp only [filter_field?] at agrees
      have kept : schema.names = names.filter (· ∈ available.names) :=
        Schema.names_of_select agrees.otherRead
      have again : names.filter (· ∈ schema.names) = names.filter (· ∈ available.names) := by
        refine List.filter_congr fun name isMember => ?_
        simp [kept, isMember]
      rw [narrow_of_read agrees.otherRead, again, if_neg some]

end TableInput

namespace Plan

/-- Some name that a plan uses is a column of its leaf. -/
def UsesLeaf (plan : Plan) : Prop :=
  ∃ available, plan.table.schema = .ok available ∧ ∃ name ∈ plan.columnNames, name ∈ available.names

/-- The names in a list are those that a plan uses and its leaf has, each once and in the order in
which the plan uses them first. -/
structure Selects (plan : Plan) (available : Schema) (kept : List String) : Prop where
  names : ∀ name, name ∈ kept ↔ name ∈ plan.columnNames ∧ name ∈ available.names
  once : kept.Nodup
  inOrder : kept.Pairwise fun earlier later =>
    plan.columnNames.idxOf earlier < plan.columnNames.idxOf later

private theorem selects_kept (plan : Plan) (available : Schema) :
    plan.Selects available (plan.columnNames.eraseDups.filter (· ∈ available.names)) := by
  have ordered := (eraseDups_inOrder plan.columnNames).filter (· ∈ available.names)
  refine ⟨fun name => ?_, ordered.imp fun before same => ?_, ordered⟩
  · simp [List.mem_filter]
  · exact absurd before (same ▸ Nat.lt_irrefl _)

/-- What pushdown makes of a plan. -/
structure IsPushdownOf (narrowed plan : Plan) : Prop where
  /-- Every node stays, and so do the path and the source of the leaf. -/
  sameNodes : ∃ projection, narrowed = plan.withTable { plan.table with projection }
  /-- The leaf stays if all its columns reach the result or none of its columns is used. -/
  unchanged : plan.definesColumns = false ∨ ¬plan.UsesLeaf → narrowed = plan
  /-- Otherwise it reads what is used, and nothing else. -/
  minimal : plan.definesColumns = true → ∀ available, plan.table.schema = .ok available →
    plan.UsesLeaf → ∃ kept, narrowed.table.projection = some kept ∧ plan.Selects available kept
  again : narrowed.pushdown = .ok narrowed

variable {plan narrowed : Plan}

private theorem pushdown_eq_ok_iff :
    plan.pushdown = .ok narrowed ↔
      plan.definesColumns = false ∧ narrowed = plan ∨
        plan.definesColumns = true ∧ ∃ table, plan.table.narrow plan.columnNames.eraseDups =
          .ok table ∧ narrowed = plan.withTable table := by
  rw [pushdown]
  cases plan.definesColumns with
  | false => simp [eq_comm]
  | true =>
    rw [if_pos rfl, mapTable_eq, map_eq_ok_iff]
    simp [eq_comm]

private theorem withTable_withTable (plan : Plan) (first second : TableInput) :
    (plan.withTable first).withTable second = plan.withTable second := by
  induction plan with
  | input table => rfl
  | project below exprs ih | filter below predicate ih | aggregate below groups aggregates ih
  | output below ih => simp only [withTable, ih]

/-- A plan whose leaf is narrowed is not narrowed further. -/
theorem pushdown_pushdown (pushed : plan.pushdown = .ok narrowed) :
    narrowed.pushdown = .ok narrowed := by
  rcases pushdown_eq_ok_iff.mp pushed with ⟨-, rfl⟩ | ⟨defines, table, success, rfl⟩
  · exact pushed
  · refine pushdown_eq_ok_iff.mpr (.inr ⟨?_, table, ?_, ?_⟩)
    · rw [definesColumns_withTable, defines]
    · rw [columnNames_withTable, withTable_source]
      exact TableInput.narrow_narrow success
    · rw [withTable_withTable]

/-- Pushdown, in one walk or all at once, keeps the nodes of a plan and changes at most the columns
that the leaf reads: to the names that the plan uses and the leaf has, in the order of their first
use, unless all columns of the leaf are needed or none is used. A second time it changes nothing. -/
theorem pushdown_changes_leaf (pushed : plan.pushdown = .ok narrowed) :
    plan.pushdownFrom [] true = .ok narrowed ∧ narrowed.IsPushdownOf plan := by
  refine ⟨by rw [pushdownFrom_root, pushed], ?_, ?_, ?_, pushdown_pushdown pushed⟩
  all_goals rcases pushdown_eq_ok_iff.mp pushed with ⟨whole, rfl⟩ | ⟨defines, table, success, rfl⟩
  · exact ⟨narrowed.table.projection, (withTable_table narrowed).symm⟩
  · obtain ⟨projection, rfl⟩ := TableInput.projection_of_narrow success
    exact ⟨projection, rfl⟩
  · exact fun _ => rfl
  · rintro (whole | unused)
    · simp [defines] at whole
    · have kept : table = plan.table := by
        refine TableInput.eq_of_narrow success fun available read name isMember isColumn => ?_
        exact unused ⟨available, read, name, List.mem_eraseDups.mp isMember, isColumn⟩
      rw [kept, withTable_table]
  · simp [whole]
  · rintro - available read ⟨_, sameRead, name, used, isColumn⟩
    obtain rfl := Except.ok.inj (read.symm.trans sameRead)
    have selects := plan.selects_kept available
    have isKept := (selects.names name).mpr ⟨used, isColumn⟩
    refine ⟨_, ?_, selects⟩
    have some : (plan.columnNames.eraseDups.filter (· ∈ available.names)).isEmpty = false := by
      rw [List.isEmpty_eq_false_iff]
      exact List.ne_nil_of_mem isKept
    rw [TableInput.narrow_of_read read, some] at success
    rw [withTable_source, ← Except.ok.inj success]
    rfl

/-- The columns are asked for in the order of their first use, the one of the filter last; the
name of a total and one in other letters are no columns of the table. -/
theorem pushdown_changes_leaf_totals :
    let table : TableInput :=
      ⟨"t", ⟨[⟨"a", .int64, true⟩, ⟨"b", .int64, true⟩, ⟨"c", .utf8, true⟩, ⟨"d", .int64, true⟩]⟩,
        some ["d", "c", "b"]⟩
    let above (leaf : Plan) : Plan :=
      .output (.project (.aggregate
        (.filter leaf (.binary .lt (.column "b") (.column "D"))) [.column "c"]
        [.aggregate .sum (.column "d"), .aggregate .count (.column "c")])
        [.column "sum(#d)", .column "c"])
    let narrowed := above (.input { table with projection := some ["c", "d", "b"] })
    (above (.input table)).pushdown = .ok narrowed ∧
      (above (.input table)).pushdownFrom [] true = .ok narrowed ∧
      narrowed.IsPushdownOf (above (.input table)) := by
  intro table above narrowed
  have pushed : (above (.input table)).pushdown = .ok narrowed := by rfl
  exact ⟨pushed, pushdown_changes_leaf pushed⟩

end Plan

end ColumnQuery
