import ColumnQuery.Proofs.Optimizer.Validity
import ColumnQuery.Proofs.Pipeline.KeyFiltering
import ColumnQuery.Proofs.Plan.Filtering
import ColumnQuery.Proofs.Plan.Wiring

/-! # Filtering by group keys

A predicate that names group columns only has the same value on a result row as on every row of the
group, as long as the values of these columns are not changed on their way into the key; only floats
are. So a filter on the groups can be moved below the aggregation. What comes before both, validated
or not, sends the same batches to either.
-/

namespace ColumnQuery

/-- An expression that is evaluated by row and names group columns only, of types whose values are
kept as they are in a key. -/
structure Expr.IsOverKeys (received : Schema) (names : List String) (expr : Expr) : Prop where
  rowwise : expr.containsAggregate = false
  grouped : ∀ name ∈ expr.columns, name ∈ names
  exact : ∀ name ∈ expr.columns, ∃ field, received.field? name = some field ∧
    field.type ∈ [DataType.int32, .int64, .utf8, .boolean]

/-- The cells of such columns are their own representatives. -/
theorem Expr.IsOverKeys.canonical_cellOf {received : Schema} {names : List String} {expr : Expr}
    (overKeys : expr.IsOverKeys received names) {row : Row} (fits : RowFits received.types row)
    {name : String} (isName : name ∈ expr.columns) :
    (received.cellOf row name).canonical = received.cellOf row name := by
  obtain ⟨field, found, exact⟩ := overKeys.exact name isName
  obtain ⟨ordinal, position, isField⟩ := Schema.ordinalOf?_of_field? found
  have cellFits : (received.cellOf row name).FitsIn field.type := by
    simp only [Schema.cellOf, position]
    exact fits.fits_getD (by rw [Schema.types, List.getElem?_map, isField, Option.map_some])
  cases cell : received.cellOf row name with
  | float64 x =>
    rw [cell] at cellFits
    rcases cellFits with isNull | isFloat
    · cases isNull
    · rw [← Option.some.inj isFloat] at exact
      simp at exact
  | null | boolean | int32 | int64 | utf8 => rfl

/-- A filter that hands on a batch has evaluated its predicate. -/
theorem exists_evaluate_of_drive {σ : Type} {order : DrainOrder} {sink : Sink σ} {batch : Batch}
    {own : BoundExpr} {schema : Schema} {held : σ}
    (succeeds : (drive order sink [batch] [.filter own schema] held).1 = .ok ()) :
    ∃ column, own.evaluate batch = .ok column := by
  cases made : own.evaluate batch with
  | ok column => exact ⟨column, rfl⟩
  | error fault =>
    rw [drive, push, Stage.receive, Stage.filtered, made] at succeeds
    cases succeeds

namespace Aggregation

/-- An aggregation groups by some columns of a schema and has the schema that its expressions
give. -/
structure GroupsBy (aggregation : Aggregation) (received : Schema) (names : List String)
    (aggregates : List Expr) : Prop where
  groupsBind : (names.map Expr.column).mapM (Expr.bind received) = .ok aggregation.groups
  aggregatesBind : aggregates.mapM (Expr.bindAggregate received) = .ok aggregation.aggregates
  produces : Plan.fieldsOf received (names.map Expr.column ++ aggregates) = .ok aggregation.schema

namespace GroupsBy

variable {aggregation : Aggregation} {received : Schema} {names : List String}
  {aggregates : List Expr} (groupsBy : aggregation.GroupsBy received names aggregates)
include groupsBy

private theorem length_groups : aggregation.groups.length = names.length := by
  rw [length_of_mapM groupsBy.groupsBind, List.length_map]

/-- The group columns come first in the schema of the result. -/
theorem exists_fields :
    ∃ groupFields resultFields, aggregation.schema = ⟨groupFields ++ resultFields⟩ ∧
      names.map received.field? = groupFields.map some ∧
      aggregates.mapM (Expr.toField received) = .ok resultFields := by
  have named := Plan.fieldsOf_eq_ok_iff.mp groupsBy.produces
  obtain ⟨groupFields, resultFields, whole, groupsNamed, resultsNamed⟩ := toField_append named
  refine ⟨groupFields, resultFields, by rw [← whole], ?_, mapM_eq_ok_iff.mpr resultsNamed⟩
  have looks (name : String) (field : Field) :
      (Expr.column name).toField received = .ok field ↔ received.field? name = some field := by
    rw [Expr.toField]
    cases received.field? name <;> simp
  rw [List.map_map] at groupsNamed
  exact (mapM_eq_ok_iff_of_find looks).mp (mapM_eq_ok_iff.mpr groupsNamed)

private theorem forall₂_columns :
    List.Forall₂ (fun name bound => (Expr.column name).bind received = .ok bound) names
      aggregation.groups :=
  List.forall₂_map_left_iff.mp (forall₂_of_mapM groupsBy.groupsBind)

/-- The key of a row holds its cells under the names of the group columns. -/
theorem key_eq (row : Row) :
    aggregation.key row = names.map fun name => (received.cellOf row name).canonical := by
  rw [key, BoundExpr.valuesAt, List.map_map]
  refine (map_eq_map_of_forall₂ (groupsBy.forall₂_columns.imp fun name bound binds => ?_)).symm
  obtain ⟨index, field, position, -, -, rfl⟩ := Expr.bind_column_eq_ok_iff.mp binds
  simp only [Function.comp_apply, BoundExpr.valueAt, Schema.cellOf, position]

/-- A result row has under the name of a group column the field of this column and the cell that the
rows of the group have, up to its representative. -/
theorem find_result {name : String} (isGroup : name ∈ names) :
    aggregation.schema.field? name = received.field? name ∧
      ∀ row results, aggregation.schema.cellOf (aggregation.key row ++ results) name =
        (received.cellOf row name).canonical := by
  obtain ⟨groupFields, resultFields, whole, found, -⟩ := groupsBy.exists_fields
  obtain ⟨field, isField⟩ := Option.isSome_iff_exists.mp (isSome_of_map_some found name isGroup)
  have first : (⟨groupFields⟩ : Schema).field? name = some field := by
    rw [Schema.field?_select found, if_pos isGroup, isField]
  obtain ⟨sameField, sameCell⟩ := Schema.find_append first resultFields
  rw [whole]
  refine ⟨sameField.trans isField.symm, fun row results => ?_⟩
  have length : (aggregation.key row).length = groupFields.length := by
    have count := congrArg List.length found
    rw [List.length_map, List.length_map] at count
    rw [groupsBy.key_eq, List.length_map, count]
  rw [sameCell _ _ length, groupsBy.key_eq, Schema.cellOf_select found _ isGroup]

/-- What a batch contributes shows that the operands are typed. -/
theorem typed_of_contributions {batch : Batch} (ofSchema : batch.schema = received)
    {rows : List (Row × Row)} (contributed : aggregation.contributions batch = .ok rows) :
    ∃ groupTypes resultTypes, aggregation.Typed received.types groupTypes resultTypes := by
  obtain ⟨groupFields, resultFields, whole, found, named⟩ := groupsBy.exists_fields
  obtain ⟨values, -, contributed⟩ := bind_eq_ok_iff.mp contributed
  obtain ⟨operands, evaluated, -⟩ := bind_eq_ok_iff.mp contributed
  refine ⟨groupFields.map (·.type), resultFields.map (·.type), ?_, ?_, ?_⟩
  · rw [List.forall₂_map_right_iff]
    refine forall₂_comp ?_ groupsBy.forall₂_columns.flip (forall₂_of_map_eq_map found)
    intro bound name field binds isField
    obtain ⟨index, own, -, isOwn, position, rfl⟩ := Expr.bind_column_eq_ok_iff.mp binds
    obtain rfl : own = field := Option.some.inj (isOwn.symm.trans isField)
    exact .column (by rw [Schema.types, List.getElem?_map, position, Option.map_some])
  · have evaluates : ∀ input ∈ aggregation.aggregates, ∃ column,
        input.operand.evaluate batch = .ok column := by
      intro input isInput
      obtain ⟨column, -, made⟩ := exists_result_of_mapM evaluated (List.mem_map_of_mem isInput)
      exact ⟨column, made⟩
    rw [List.forall₂_map_right_iff]
    refine forall₂_comp ?_
      ((List.forall₂_and_left _ _).mpr ⟨evaluates, (forall₂_of_mapM groupsBy.aggregatesBind).flip⟩)
      (forall₂_of_mapM named)
    rintro input entry field ⟨⟨column, made⟩, binds⟩ isField
    have accepted := Expr.accepts_of_bindAggregate binds isField
    obtain ⟨operand, rfl, operandBinds, typed⟩ := Expr.bindAggregate_eq_ok_iff.mp binds
    have bound := ofSchema ▸ Expr.isBoundTo_of_bind operandBinds
    have isType := BoundExpr.type_of_evaluate bound made
    rw [Expr.type_eq_of_bind operandBinds, typed] at isType
    have operandTyped := BoundExpr.hasType_of_evaluate bound made
    rw [ofSchema, ← Except.ok.inj isType] at operandTyped
    exact ⟨operandTyped, accepted⟩
  · rw [whole, Schema.types, List.map_append]

/-- A predicate over the group columns is true on a result row if it is on the rows of the group. -/
theorem testsKeys {predicate : Expr} (overKeys : predicate.IsOverKeys received names)
    {own inner : BoundExpr}
    (ownValue : ∀ row, own.valueAt row = predicate.valueOn aggregation.schema row)
    (innerValue : ∀ row, inner.valueAt row = predicate.valueOn received row)
    {rows : List Row} (fits : ∀ row ∈ rows, RowFits received.types row) :
    aggregation.TestsKeys rows inner.isTrueAt own.isTrueAt := by
  intro row isRow results
  have cells : RowAgreesOn predicate.columns received row aggregation.schema
      (aggregation.key row ++ results) := by
    intro name isName
    rw [(groupsBy.find_result (overKeys.grouped name isName)).2,
      overKeys.canonical_cellOf (fits row isRow) isName]
  rw [BoundExpr.isTrueAt, BoundExpr.isTrueAt, ownValue, innerValue, Expr.valueOn_congr cells]

/-- A filter over the group columns can be moved below the aggregation: if the run succeeds that
groups first then so does the other, with the same result rows. -/
theorem filter_commutes (grouped : names ≠ []) {predicate : Expr}
    (overKeys : predicate.IsOverKeys received names) {own inner : BoundExpr}
    (ownBinds : predicate.bind aggregation.schema = .ok own) (boolean : own.type = .ok .boolean)
    (innerBinds : predicate.bind received = .ok inner) {strategy : GroupStrategy}
    {order : DrainOrder} {schema : Schema} {batches : List Batch}
    (ofSchema : ∀ batch ∈ batches, batch.schema = received)
    {τ : Type} {someSink : Sink τ} {someHeld : τ}
    (succeeds : (drive order someSink batches
      [.aggregate aggregation (.empty strategy), .filter own schema] someHeld).1 = .ok ()) :
    HandOverSame order batches [.aggregate aggregation (.empty strategy), .filter own schema]
      [.filter inner received, .aggregate aggregation (.empty strategy)]
      (strategy = .ordered) := by
  have keyed : aggregation.groups.length ≠ 0 := by
    rwa [groupsBy.length_groups, Ne, List.length_eq_zero_iff]
  obtain ⟨contribute, batch, batchSchema, filters⟩ := of_drive_eq_ok succeeds
  -- the filter has evaluated its predicate on the groups, so the predicate is typed
  obtain ⟨column, made⟩ := exists_evaluate_of_drive filters
  have types : batch.columns.map (·.type) = aggregation.schema.types :=
    batch.matching.types.trans (by rw [batchSchema])
  have typed : predicate.HasType aggregation.schema .boolean := by
    have evaluation := Expr.evaluation_of_bind overKeys.rowwise types ownBinds
    rw [made] at evaluation
    cases evaluation with
    | column agree =>
      rw [Expr.type_eq_of_bind ownBinds] at boolean
      exact Expr.hasType_of_operandsAgree overKeys.rowwise agree boolean
  have innerTyped : predicate.HasType received .boolean :=
    Expr.hasType_congr typed fun name isName =>
      (groupsBy.find_result (overKeys.grouped name isName)).1.symm
  obtain ⟨_, binds, ownHasType, ownValue⟩ := Expr.bind_of_hasType typed overKeys.rowwise
  obtain rfl := Except.ok.inj (ownBinds.symm.trans binds)
  obtain ⟨_, binds, innerHasType, innerValue⟩ := Expr.bind_of_hasType innerTyped overKeys.rowwise
  obtain rfl := Except.ok.inj (innerBinds.symm.trans binds)
  cases batches with
  | nil => exact filter_commutes_of_nil keyed ownHasType succeeds
  | cons first rest =>
    obtain ⟨rows, contributed⟩ := contribute first List.mem_cons_self
    obtain ⟨groupTypes, resultTypes, aggregationTyped⟩ :=
      groupsBy.typed_of_contributions (ofSchema first List.mem_cons_self) contributed
    refine aggregationTyped.filter_commutes keyed ownHasType innerHasType ofSchema
      (groupsBy.testsKeys overKeys ownValue innerValue fun row isRow => ?_) succeeds
    obtain ⟨origin, isOrigin, isRow⟩ := List.mem_flatMap.mp isRow
    exact ofSchema origin isOrigin ▸ Batch.fits_of_mem_rows isRow

end GroupsBy

end Aggregation

theorem HandOverSame.prepend {order : DrainOrder} {batches nexts : List Batch}
    {front stages others : List Stage} {later : Nat} {inSequence : Prop}
    (driven : ∀ {σ : Type} (sink : Sink σ) (rest : List Stage), rest.length = later → ∀ held,
      drive order sink batches (front ++ rest) held = drive order sink nexts rest held)
    (length : stages.length = later) (otherLength : others.length = later)
    (same : HandOverSame order nexts stages others inSequence) :
    HandOverSame order batches (front ++ stages) (front ++ others) inSequence := by
  obtain ⟨delivered, other, schema, perm, inOrder, handed⟩ := same
  refine ⟨delivered, other, schema, perm, inOrder, fun sink total held => ?_⟩
  rw [driven sink stages length, driven sink others otherLength]
  exact handed sink total held

namespace Plan

theorem BindsTo.sends {node : Plan} {bound : BoundNode} {received schema : Schema}
    (select : Aggregation → GroupStrategy) (binds : node.BindsTo bound received)
    (produces : node.schema = .ok schema) : (bound.stageBy select).sends received = schema := by
  obtain ⟨⟨below, isBelow, produced⟩, own, runs⟩ := binds
  cases bound with
  | project | aggregate => exact Except.ok.inj (own.symm.trans produces)
  | filter =>
    cases runs
    cases isBelow
    exact Except.ok.inj (produced.symm.trans produces)

/-- The stages of a plan make batches of its schema, or fail whatever comes after. -/
theorem sendsOn_of_boundNodes (select : Aggregation → GroupStrategy) (order : DrainOrder)
    {plan : Plan} {nodes : List BoundNode} (inner : plan.hasOutput = false)
    (bound : plan.boundNodes = .ok nodes) {read schema : Schema}
    (reads : plan.table.schema = .ok read) (produces : plan.schema = .ok schema)
    {batches : List Batch} (ofSchema : ∀ batch ∈ batches, batch.schema = read) (later : Nat) :
    SendsOn order later (nodes.map (BoundNode.stageBy select)) batches schema := by
  induction plan generalizing nodes schema later with
  | input table =>
    obtain ⟨_, -, same⟩ := bind_eq_ok_iff.mp bound
    cases same
    obtain rfl : read = schema := Except.ok.inj (reads.symm.trans produces)
    exact .inl ⟨batches, ofSchema, fun _ _ _ _ => rfl⟩
  | project below _ ih | filter below _ ih | aggregate below _ _ ih =>
    obtain ⟨earlier, last, received, belowBound, binds, rfl⟩ :=
      exists_bindsTo_of_boundNodes rfl rfl bound
    obtain ⟨_, isBelow, produced⟩ := binds.receives
    cases isBelow
    rw [List.map_append, ← binds.sends select produces]
    exact (ih inner belowBound reads produced _).append fun middles ofReceived =>
      (last.stageBy select).sendsOn order later ofReceived
  | output => cases inner

/-- The aggregation of a bound node groups by the columns that the node names. -/
theorem BindsTo.exists_groupsBy {below : Plan} {names : List String} {aggregates : List Expr}
    {bound : BoundNode} {received : Schema}
    (binds : (aggregate below (names.map .column) aggregates).BindsTo bound received) :
    ∃ aggregation, bound = .aggregate aggregation ∧
      aggregation.GroupsBy received names aggregates := by
  obtain ⟨⟨_, isBelow, produced⟩, produces, runs⟩ := binds
  cases isBelow
  cases bound with
  | project | filter => cases runs
  | aggregate aggregation =>
    cases runs with
    | aggregate groupsBind aggregatesBind =>
      rw [Plan.schema, produced] at produces
      exact ⟨_, rfl, groupsBind, aggregatesBind, produces⟩

/-- A predicate over group columns is bound below the aggregation as it is above. -/
theorem BindsTo.exists_filter {below other : Plan} {predicate : Expr} {aggregation : Aggregation}
    {received : Schema} {names : List String} {aggregates : List Expr} {last : BoundNode}
    (groupsBy : aggregation.GroupsBy received names aggregates)
    (overKeys : predicate.IsOverKeys received names)
    (binds : (filter other predicate).BindsTo last aggregation.schema)
    (produced : below.schema = .ok received) :
    ∃ own inner, last = .filter own aggregation.schema ∧
      predicate.bind aggregation.schema = .ok own ∧ own.type = .ok .boolean ∧
      predicate.bind received = .ok inner ∧
      (filter below predicate).BindsTo (.filter inner received) received := by
  obtain ⟨⟨_, isBelow, receives⟩, produces, runs⟩ := binds
  cases isBelow
  cases last with
  | project | aggregate => cases runs
  | filter own schema =>
    obtain rfl := Except.ok.inj (receives.symm.trans produces)
    cases runs with
    | filter ownBinds boolean =>
      have known : ∀ name ∈ predicate.columns, name ∈ received.names := by
        intro name isName
        obtain ⟨field, found, -⟩ := overKeys.exact name isName
        exact Schema.exists_field?_iff.mp ⟨field, found⟩
      obtain ⟨inner, innerBinds⟩ := (Expr.exists_bind_iff predicate).mpr known
      have agrees : received.AgreesOn predicate.columns aggregation.schema := fun name isName =>
        (groupsBy.find_result (overKeys.grouped name isName)).1
      have innerBoolean : inner.type = .ok .boolean := by
        rw [Expr.type_eq_of_bind innerBinds, ← Expr.type_congr agrees,
          ← Expr.type_eq_of_bind ownBinds, boolean]
      exact ⟨own, inner, rfl, ownBinds, boolean, innerBinds, ⟨below, rfl, produced⟩, produced,
        .filter innerBinds innerBoolean⟩

/-- A filter over group columns only can be moved below the aggregation. What was an aggregation
followed by a filter compiles to the two the other way round, and whenever the first succeeds the
second does as well and hands over the same result rows, in the same sequence if the groups are kept
ordered. -/
theorem key_filtering_commutes (select : Aggregation → GroupStrategy) {below : Plan}
    {received : Schema} (produced : below.schema = .ok received) {names : List String}
    (grouped : names ≠ []) {aggregates : List Expr} {predicate : Expr}
    (overKeys : predicate.IsOverKeys received names) {scan : Scan}
    (compiled : (output (filter (aggregate below (names.map .column) aggregates) predicate)).compile
      (.choosing select) = .ok scan) :
    ∃ chain otherChain aggregation, scan.children = [chain] ∧
      (output (aggregate (filter below predicate) (names.map .column) aggregates)).compile
        (.choosing select) = .ok { scan with children := [otherChain] } ∧
      otherChain.output = chain.output ∧
      otherChain.stages.getLast? = some (.aggregate aggregation (.empty (select aggregation))) ∧
      ∀ (order : DrainOrder) (batches : List Batch),
        (∀ batch ∈ batches, batch.schema = scan.schema) →
        ∀ {σ : Type} (sink : Sink σ) (held : σ),
          (drive order sink batches chain.stages held).1 = .ok () →
          HandOverSame order batches chain.stages otherChain.stages
            (select aggregation = .ordered) := by
  obtain ⟨_, nodes, same, noOutput, bound⟩ := exists_boundNodes_of_compile compiled
  cases same
  have belowOutput : below.hasOutput = false := noOutput
  obtain ⟨read, result, reads, produces, whole⟩ := compile_of_bindsTo select noOutput bound
  obtain rfl := Except.ok.inj (compiled.symm.trans whole)
  obtain ⟨front, last, groups, frontBound, filterBinds, rfl⟩ :=
    exists_bindsTo_of_boundNodes rfl rfl bound
  obtain ⟨earlier, middle, taken, earlierBound, aggregateBinds, rfl⟩ :=
    exists_bindsTo_of_boundNodes rfl rfl frontBound
  obtain rfl : received = taken := (aggregateBinds.receives_eq ⟨below, rfl, produced⟩).symm
  obtain ⟨aggregation, rfl, groupsBy⟩ := aggregateBinds.exists_groupsBy
  obtain rfl := filterBinds.receives_eq ⟨_, rfl, aggregateBinds.produces⟩
  obtain ⟨own, inner, rfl, ownBinds, boolean, innerBinds, innerFilter⟩ :=
    filterBinds.exists_filter groupsBy overKeys produced
  -- a filter keeps the schema, so the same aggregation is bound above it
  have otherAggregate :
      (aggregate (filter below predicate) (names.map .column) aggregates).BindsTo
        (.aggregate aggregation) received :=
    ⟨⟨filter below predicate, rfl, produced⟩, aggregateBinds.produces,
      .aggregate groupsBy.groupsBind groupsBy.aggregatesBind⟩
  have otherBound := otherAggregate.boundNodes_eq rfl (innerFilter.boundNodes_eq rfl earlierBound)
  have otherOutput :
      (aggregate (filter below predicate) (names.map .column) aggregates).hasOutput = false :=
    noOutput
  obtain ⟨otherRead, otherResult, otherReads, otherProduces, otherCompiled⟩ :=
    compile_of_bindsTo select otherOutput otherBound
  obtain rfl : read = otherRead := Except.ok.inj (reads.symm.trans otherReads)
  obtain rfl : result = otherResult := Except.ok.inj (produces.symm.trans otherProduces)
  refine ⟨_, _, aggregation, rfl, otherCompiled, rfl, by simp [BoundNode.stageBy],
    fun order batches ofSchema σ sink held succeeds => ?_⟩
  -- the stages before both make the same batches for either, or the first run has failed
  simp only [List.map_append, List.append_assoc, List.singleton_append] at succeeds ⊢
  rcases sendsOn_of_boundNodes select order belowOutput earlierBound reads produced ofSchema 2 with
    ⟨nexts, sent, driven⟩ | failed
  · rw [driven sink _ rfl] at succeeds
    exact .prepend driven rfl rfl
      (groupsBy.filter_commutes grouped overKeys ownBinds boolean innerBinds sent succeeds)
  · exact absurd succeeds (failed sink _ rfl held)

section Orders

/-- How often each item was ordered in each number. -/
def itemCounts : Aggregation where
  groups := [.column 0 .utf8, .column 1 .int64]
  aggregates := [⟨.count, .column 0 .utf8, .utf8⟩]
  schema := ⟨[⟨"item", .utf8, false⟩, ⟨"count", .int64, true⟩, ⟨"count(#item)", .int64, true⟩]⟩

/-- How often ink was ordered in each number, taken from the same for all items. -/
def groupsThenInk : Plan :=
  filter (aggregate (input ⟨"orders", ordersSchema, none⟩) (["item", "count"].map .column)
    [.aggregate .count (.column "item")]) inkOrdered

/-- The same, taken from the orders of ink. -/
def inkThenGroups : Plan :=
  aggregate (filter (input ⟨"orders", ordersSchema, none⟩) inkOrdered)
    (["item", "count"].map .column) [.aggregate .count (.column "item")]

/-- Both runs hand over the two groups of ink, that of unknown size first. -/
theorem key_filtering_commutes_orders :
    ∃ scan chain otherChain, (output groupsThenInk).compile .standard = .ok scan ∧
      scan.children = [chain] ∧
      (output inkThenGroups).compile .standard = .ok { scan with children := [otherChain] } ∧
      ∃ delivered other : Batch,
        delivered.rows = [[.utf8 "ink", .null, .int64 1], [.utf8 "ink", .int64 5, .int64 1]] ∧
        other.rows = delivered.rows ∧
        ∀ {σ : Type} (sink : Sink σ), sink.IsTotal → ∀ held,
          drive .opening sink [firstOrders, laterOrders] chain.stages held =
              (.ok (), sink.keptAfter [delivered] held) ∧
            drive .opening sink [firstOrders, laterOrders] otherChain.stages held =
              (.ok (), sink.keptAfter [other] held) := by
  have produced : (input ⟨"orders", ordersSchema, none⟩).schema = .ok ordersSchema := rfl
  have overKeys : inkOrdered.IsOverKeys ordersSchema ["item", "count"] := by
    refine ⟨rfl, by decide, fun name isName => ?_⟩
    rw [List.mem_singleton.mp isName]
    exact ⟨⟨"item", .utf8, false⟩, rfl, by decide⟩
  have compiled : (output groupsThenInk).compile .standard =
      .ok ⟨"orders", none, ordersSchema, [⟨[.aggregate itemCounts (.empty .ordered),
        .filter (.binary .eq (.column 0 .utf8) (.literal (.utf8 "ink"))) itemCounts.schema],
        itemCounts.schema⟩]⟩ := by
    decide +kernel
  obtain ⟨chain, otherChain, aggregation, one, otherCompiled, -, last, same⟩ :=
    key_filtering_commutes StrategyRegistry.byArity produced (by decide) overKeys compiled
  have ordered : StrategyRegistry.byArity aggregation = .ordered := by
    have known : (output inkThenGroups).compile .standard =
        .ok ⟨_, _, _, [⟨[_, .aggregate _ (.empty .ordered)], _⟩]⟩ := rfl
    cases otherCompiled.symm.trans known
    exact (congrArg GroupTable.strategy (Stage.aggregate.inj (Option.some.inj last)).2).symm
  cases one
  have ofSchema : ∀ batch ∈ [firstOrders, laterOrders], batch.schema = ordersSchema := by
    intro batch isMember
    simp only [List.mem_cons, List.not_mem_nil, or_false] at isMember
    rcases isMember with rfl | rfl <;> rfl
  obtain ⟨delivered, other, -, -, inOrder, handed⟩ :=
    same .opening _ ofSchema Sink.gather [] (by decide +kernel)
  have gathers : Sink.gather.IsTotal := ⟨fun _ _ => rfl, fun _ => rfl⟩
  have gathered := congrArg (·.2.map Batch.rows) (handed .gather gathers []).1
  have rows : [delivered.rows] =
      [[[.utf8 "ink", .null, .int64 1], [.utf8 "ink", .int64 5, .int64 1]]] :=
    gathered.symm.trans (by decide +kernel)
  exact ⟨_, _, otherChain, compiled, rfl, otherCompiled, delivered, other,
    List.singleton_inj.mp rows, inOrder ordered, handed⟩

end Orders

end Plan

end ColumnQuery
