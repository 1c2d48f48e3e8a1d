import ColumnQuery.Optimizer.Pushdown
import ColumnQuery.Proofs.Expr.Agreement
import ColumnQuery.Proofs.Plan.Rows
import ColumnQuery.Proofs.Schema.Lookup

/-! # Pushdown keeps the meaning of plans

Narrowing the leaf of a plan changes neither the schema nor the rows of the plan, and where the plan
has none it fails with the same error. Up to the first node that computes columns of its own, the
schemas and the rows before and after narrowing agree on every name that the plan uses; that node
computes the same columns from them, and above it nothing differs.
-/

namespace ColumnQuery

/-- What a table reads of a row. -/
def TableInput.pick (table : TableInput) (row : Row) : Row :=
  match table.projection with
  | none => row
  | some names => names.map (table.source.cellOf row)

theorem TableInput.rows_eq_map (table : TableInput) (contents : List Row) :
    table.rows contents = contents.map table.pick := by
  unfold rows
  split
  · rename_i chosen
    have whole : table.pick = id := funext fun row => by simp only [pick, chosen, id]
    rw [whole, List.map_id]
  · rename_i names chosen
    exact List.map_congr_left fun row _ => by simp only [pick, chosen]

/-- Two tables read the same fields and cells under some names. -/
structure TableInput.AgreesOn (names : List String) (table other : TableInput)
    (schema otherSchema : Schema) : Prop where
  read : table.schema = .ok schema
  otherRead : other.schema = .ok otherSchema
  fields : schema.AgreesOn names otherSchema
  cells : ∀ row, RowAgreesOn names schema (table.pick row) otherSchema (other.pick row)

namespace TableInput

theorem schema_eq_ok_iff {table : TableInput} {names : List String} {schema : Schema}
    (chosen : table.projection = some names) :
    table.schema = .ok schema ↔ names.map table.source.field? = schema.fields.map some := by
  rw [TableInput.schema, chosen]
  exact Schema.select_eq_ok_iff

/-- Under a name that a table reads, it reads what its source has there. -/
theorem read_of_found {table : TableInput} {schema : Schema} {name : String}
    (read : table.schema = .ok schema) (found : (schema.field? name).isSome) :
    schema.field? name = table.source.field? name ∧
      ∀ row, schema.cellOf (table.pick row) name = table.source.cellOf row name := by
  cases chosen : table.projection with
  | none =>
    simp only [TableInput.schema, chosen, Except.ok.injEq] at read
    subst read
    exact ⟨rfl, fun row => by simp only [pick, chosen]⟩
  | some names =>
    have selected := (schema_eq_ok_iff chosen).mp read
    have lookup : schema.field? name = _ := Schema.field?_select selected name
    by_cases isMember : name ∈ names
    · refine ⟨by rw [lookup, if_pos isMember], ?_⟩
      intro row
      simp only [pick, chosen]
      exact Schema.cellOf_select selected (table.source.cellOf row) isMember
    · rw [lookup, if_neg isMember] at found
      cases found

/-- Reading only those of some names that a table has agrees with the table on all of them. -/
theorem agreesOn_of_kept {table : TableInput} {schema : Schema} (read : table.schema = .ok schema)
    (names : List String) :
    let kept := names.filter fun name => (schema.field? name).isSome
    ∃ narrowed, table.AgreesOn names { table with projection := some kept } schema narrowed := by
  intro kept
  have readKept (name : String) (isKept : name ∈ kept) :=
    read_of_found read (List.mem_filter.mp isKept).2
  obtain ⟨fields, selected⟩ :
      ∃ fields : List Field, kept.map table.source.field? = fields.map some := by
    apply exists_map_some
    intro name isKept
    rw [← (readKept name isKept).1]
    exact (List.mem_filter.mp isKept).2
  -- a name that is not kept is found neither before nor after
  have dropped (name : String) (named : name ∈ names) (notKept : name ∉ kept) :
      schema.field? name = none ∧ (⟨fields⟩ : Schema).field? name = none := by
    refine ⟨?_, by rw [Schema.field?_select selected, if_neg notKept]⟩
    rw [← Option.not_isSome_iff_eq_none]
    exact fun found => notKept (List.mem_filter.mpr ⟨named, found⟩)
  refine ⟨⟨fields⟩, read, (schema_eq_ok_iff rfl).mpr selected, ?_, ?_⟩
  · intro name named
    by_cases isKept : name ∈ kept
    · rw [Schema.field?_select selected, if_pos isKept, (readKept name isKept).1]
    · rw [(dropped name named isKept).1, (dropped name named isKept).2]
  · intro row name named
    by_cases isKept : name ∈ kept
    · rw [(readKept name isKept).2 row]
      exact Schema.cellOf_select selected (table.source.cellOf row) isKept
    · rw [Schema.cellOf_of_not_found (dropped name named isKept).1,
        Schema.cellOf_of_not_found (dropped name named isKept).2]

/-- A narrowed table still reads what is named. -/
theorem agreesOn_of_narrow {names : List String} {table narrowed : TableInput}
    (success : table.narrow names = .ok narrowed) :
    narrowed = table ∨
      ∃ schema narrowedSchema, table.AgreesOn names narrowed schema narrowedSchema := by
  unfold narrow at success
  split at success
  · exact .inl (Except.ok.inj success).symm
  · obtain ⟨schema, read, success⟩ := bind_eq_ok_iff.mp success
    have success := Except.ok.inj success
    split at success
    · exact .inl success.symm
    · subst success
      obtain ⟨narrowedSchema, agrees⟩ := agreesOn_of_kept read names
      exact .inr ⟨schema, narrowedSchema, agrees⟩

end TableInput

/-- Schemas and rows below a node, before and after narrowing: the same, or made from the same rows
of the source by two tables that agree on some names. -/
inductive Corresponds (names : List String) :
    Except Error Schema → Except Error (List Row) →
      Except Error Schema → Except Error (List Row) → Prop where
  | same (schema : Except Error Schema) (rows : Except Error (List Row)) :
      Corresponds names schema rows schema rows
  | narrowed {schema other : Schema} {pick otherPick : Row → Row}
      (fields : schema.AgreesOn names other)
      (cells : ∀ row, RowAgreesOn names schema (pick row) other (otherPick row))
      (chosen : Except Error (List Row)) :
      Corresponds names (.ok schema) (chosen.map (List.map pick)) (.ok other)
        (chosen.map (List.map otherPick))

namespace Plan

/-- The plan with another table at its leaf. -/
def withTable (plan : Plan) (other : TableInput) : Plan :=
  match plan with
  | input _ => input other
  | project below exprs => project (below.withTable other) exprs
  | filter below predicate => filter (below.withTable other) predicate
  | aggregate below groups aggregates => aggregate (below.withTable other) groups aggregates
  | output below => output (below.withTable other)

theorem mapTable_eq (change : TableInput → Except Error TableInput) (plan : Plan) :
    plan.mapTable change = (change plan.table).map plan.withTable := by
  induction plan with
  | input table => rfl
  | project below exprs ih | filter below predicate ih | aggregate below groups aggregates ih
  | output below ih =>
    simp only [mapTable, ih, Plan.table]
    cases change below.table <;> rfl

theorem withTable_table (plan : Plan) : plan.withTable plan.table = plan := by
  induction plan with
  | input table => rfl
  | project below exprs ih | filter below predicate ih | aggregate below groups aggregates ih
  | output below ih => simp only [withTable, Plan.table, ih]

private theorem depth_withTable (plan : Plan) (other : TableInput) :
    (plan.withTable other).depth = plan.depth := by
  induction plan with
  | input table => rfl
  | project below exprs ih | filter below predicate ih | aggregate below groups aggregates ih
  | output below ih => simp only [withTable, depth, ih]

section Nodes

variable {names : List String} {below other : Plan} {arrangement : GroupArrangement}
  {contents : List Row}
  (corresponds : Corresponds names below.schema (below.rows arrangement contents) other.schema
    (other.rows arrangement contents))
include corresponds

/-- A projection of what is named computes the same. -/
theorem project_corresponds {exprs : List Expr} (named : exprs.flatMap Expr.columns ⊆ names) :
    (project other exprs).schema = (project below exprs).schema ∧
      (project other exprs).rows arrangement contents =
        (project below exprs).rows arrangement contents := by
  simp only [schema, rows]
  generalize below.schema = before, below.rows arrangement contents = rowsBefore,
    other.schema = after, other.rows arrangement contents = rowsAfter at corresponds
  cases corresponds with
  | same => exact ⟨rfl, rfl⟩
  | narrowed fields cells chosen =>
    refine ⟨fieldsOf_congr (fields.of_subset named), ?_⟩
    cases chosen with
    | error error => rfl
    | ok rows =>
      simp only [Except.map, ok_bind, List.mapM_map]
      exact mapM_congr fun row _ =>
        evaluateOn_each_congr .projection (fields.of_subset named) ((cells row).of_subset named)

/-- An aggregation of what is named computes the same. -/
theorem aggregate_corresponds {groups aggregates : List Expr}
    (named : (groups ++ aggregates).flatMap Expr.columns ⊆ names)
    (sameDepth : other.depth = below.depth) :
    (aggregate other groups aggregates).schema = (aggregate below groups aggregates).schema ∧
      (aggregate other groups aggregates).rows arrangement contents =
        (aggregate below groups aggregates).rows arrangement contents := by
  simp only [schema, rows, sameDepth]
  generalize below.schema = before, below.rows arrangement contents = rowsBefore,
    other.schema = after, other.rows arrangement contents = rowsAfter at corresponds
  cases corresponds with
  | same => exact ⟨rfl, rfl⟩
  | @narrowed schema otherSchema pick otherPick fields cells chosen =>
    refine ⟨fieldsOf_congr (fields.of_subset named), ?_⟩
    rw [List.flatMap_append] at named
    obtain ⟨groupNames, aggregateNames⟩ := List.append_subset.mp named
    cases chosen with
    | error error => rfl
    | ok rows =>
      have keys : groupKeyOn otherSchema groups ∘ otherPick = groupKeyOn schema groups ∘ pick :=
        funext fun row =>
          groupKeyOn_congr (fields.of_subset groupNames) ((cells row).of_subset groupNames)
      have members (keys : List Row) (key : Row) (expr : Expr) (isMember : expr ∈ aggregates) :
          expr.valueOnGroup otherSchema (groupMembers (keys.zip (rows.map otherPick)) key) =
            expr.valueOnGroup schema (groupMembers (keys.zip (rows.map pick)) key) := by
        have exprNames := List.Subset.trans (columns_subset isMember) aggregateNames
        rw [groupMembers_map, groupMembers_map]
        exact Expr.valueOnGroup_congr (fields.of_subset exprNames)
          (fun row => (cells row).of_subset exprNames) _
      simp only [Except.map, ok_bind, List.mapM_map, keys]
      refine congrArg _ (funext fun keys => mapM_congr fun key _ => ?_)
      rw [mapM_congr (members keys key)]

/-- A filter by what is named keeps the same rows. -/
theorem filter_corresponds {predicate : Expr} (named : predicate.columns ⊆ names) :
    Corresponds names (filter below predicate).schema
      ((filter below predicate).rows arrangement contents)
      (filter other predicate).schema ((filter other predicate).rows arrangement contents) := by
  simp only [schema, rows]
  generalize below.schema = before, below.rows arrangement contents = rowsBefore,
    other.schema = after, other.rows arrangement contents = rowsAfter at corresponds
  cases corresponds with
  | same => exact .same ..
  | @narrowed schema otherSchema pick otherPick fields cells chosen =>
    cases chosen with
    | error error => exact .narrowed fields cells (.error error)
    | ok rows =>
      have truths : predicate.truthOn otherSchema ∘ otherPick = predicate.truthOn schema ∘ pick :=
        funext fun row =>
          Expr.truthOn_congr (fields.of_subset named) ((cells row).of_subset named)
      simp only [Except.map, ok_bind, List.mapM_map, truths]
      cases rows.mapM (predicate.truthOn schema ∘ pick) with
      | error error => exact .narrowed fields cells (.error error)
      | ok mask =>
        simp only [ok_bind, pure_eq_ok, keep_map]
        exact .narrowed fields cells (.ok (keep mask rows))

end Nodes

private theorem corresponds_withTable {names : List String} {other : TableInput}
    {tableSchema otherSchema : Schema} (arrangement : GroupArrangement) (contents : List Row)
    {plan : Plan}
    (agrees : plan.table.AgreesOn names other tableSchema otherSchema)
    (named : plan.columnNames ⊆ names) :
    Corresponds names plan.schema (plan.rows arrangement contents) (plan.withTable other).schema
        ((plan.withTable other).rows arrangement contents) ∧
      (plan.definesColumns = true → (plan.withTable other).schema = plan.schema ∧
        (plan.withTable other).rows arrangement contents = plan.rows arrangement contents) := by
  induction plan with
  | input table =>
    refine ⟨?_, nofun⟩
    have leaf := Corresponds.narrowed agrees.fields agrees.cells (.ok contents)
    simp only [Plan.table] at agrees leaf
    simp only [schema, rows, withTable, agrees.read, agrees.otherRead, discard_bind, ok_bind,
      TableInput.rows_eq_map, pure_eq_ok]
    exact leaf
  | project below exprs ih =>
    obtain ⟨here, deeper⟩ := List.append_subset.mp named
    obtain ⟨sameSchema, sameRows⟩ := project_corresponds (ih agrees deeper).1 here
    refine ⟨?_, fun _ => ⟨sameSchema, sameRows⟩⟩
    rw [withTable, sameSchema, sameRows]
    exact .same ..
  | filter below predicate ih =>
    obtain ⟨here, deeper⟩ := List.append_subset.mp named
    refine ⟨filter_corresponds (ih agrees deeper).1 here, ?_⟩
    intro defines
    obtain ⟨sameSchema, sameRows⟩ := (ih agrees deeper).2 defines
    simp only [withTable, schema, rows, sameSchema, sameRows, and_self]
  | aggregate below groups aggregates ih =>
    obtain ⟨here, deeper⟩ := List.append_subset.mp named
    obtain ⟨sameSchema, sameRows⟩ :=
      aggregate_corresponds (ih agrees deeper).1 here (below.depth_withTable other)
    refine ⟨?_, fun _ => ⟨sameSchema, sameRows⟩⟩
    rw [withTable, sameSchema, sameRows]
    exact .same ..
  | output below ih =>
    simp only [withTable, schema, rows]
    exact ih agrees named

/-- Pushdown keeps the schema and the rows of a plan, errors included, whatever the table holds and
whether or not the plan is well formed. -/
theorem meaning_of_pushdown {plan narrowed : Plan} (pushed : plan.pushdown = .ok narrowed) :
    narrowed.schema = plan.schema ∧ ∀ arrangement contents,
      narrowed.rows arrangement contents = plan.rows arrangement contents := by
  unfold pushdown at pushed
  split at pushed
  · rename_i defines
    rw [mapTable_eq, map_eq_ok_iff] at pushed
    obtain ⟨other, success, rfl⟩ := pushed
    rcases TableInput.agreesOn_of_narrow success with rfl | ⟨tableSchema, otherSchema, agrees⟩
    · rw [withTable_table]
      exact ⟨rfl, fun _ _ => rfl⟩
    · have named : plan.columnNames ⊆ plan.columnNames.eraseDups :=
        fun name isMember => List.mem_eraseDups.mpr isMember
      have same (arrangement : GroupArrangement) (contents : List Row) :=
        (corresponds_withTable arrangement contents agrees named).2 defines
      exact ⟨(same .firstSeen []).1, fun arrangement contents => (same arrangement contents).2⟩
  · cases pushed
    exact ⟨rfl, fun _ _ => rfl⟩

/-- A plan that reads two of three columns, the later one first. -/
theorem meaning_of_pushdown_reordering :
    let table : TableInput :=
      ⟨"t", ⟨[⟨"a", .int64, true⟩, ⟨"b", .utf8, true⟩, ⟨"c", .int64, false⟩]⟩, none⟩
    let above (leaf : Plan) : Plan :=
      .project (.filter leaf (.binary .eq (.column "a") (.literal (.int64 1)))) [.column "c"]
    let narrowed := above (.input { table with projection := some ["c", "a"] })
    (above (.input table)).pushdown = .ok narrowed ∧
      narrowed.schema = (above (.input table)).schema ∧
      ∀ arrangement contents, narrowed.rows arrangement contents =
        (above (.input table)).rows arrangement contents := by
  intro table above narrowed
  have pushed : (above (.input table)).pushdown = .ok narrowed := by rfl
  exact ⟨pushed, meaning_of_pushdown pushed⟩

end Plan

end ColumnQuery
