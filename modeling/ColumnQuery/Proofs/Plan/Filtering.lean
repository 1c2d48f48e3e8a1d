import ColumnQuery.Proofs.Pipeline.Answers
import ColumnQuery.Proofs.Plan.Execution

/-! # Filters in a row

A filter keeps the rows on which its predicate is true and drops those on which it is false or null.
The value of a predicate on a row does not depend on the other rows, so filters in a row keep the
rows on which all their predicates are true, in whatever order the filters come. Three-valued `AND`
and `OR` agree with this: a conjunction is true exactly where both operands are, a disjunction
exactly where one of them is, also where the other is null.
-/

namespace ColumnQuery

/-- A predicate is true on a row, and neither false nor null. -/
def Expr.isTrueOn (schema : Schema) (row : Row) (predicate : Expr) : Bool :=
  predicate.truthOn schema row = .ok (some true)

/-- An expression that can be filtered by. -/
def Expr.IsPredicate (schema : Schema) (predicate : Expr) : Prop :=
  predicate.containsAggregate = false ∧ predicate.HasType schema .boolean

/-- For each batch of a schema that a chain receives it hands on one batch of the rows that pass a
test, in order. -/
def Chain.Sifts (chain : Chain) (schema : Schema) (test : Row → Bool) : Prop :=
  ∀ batches : List Batch, (∀ batch ∈ batches, batch.schema = schema) →
    ∃ delivered : List Batch,
      List.Forall₂ (fun batch next => next.schema = schema ∧ next.rows = batch.rows.filter test)
        batches delivered ∧
      ∀ {σ : Type} (sink : Sink σ), sink.IsTotal → ∀ held,
        chain.answers sink held (batches.map .receive) =
          delivered.inits.tail.map fun soFar => (.ok (), sink.keptAfter soFar held)

namespace Operator

/-- A conjunction is true where both operands are. -/
theorem isTrue_conjunction (left right : Scalar) :
    (Column.truthOf (conjunction left right) == some true) =
      (Column.truthOf left == some true && Column.truthOf right == some true) := by
  rcases left with _ | (_ | _) | _ | _ | _ | _ <;>
    rcases right with _ | (_ | _) | _ | _ | _ | _ <;> rfl

/-- A disjunction is true where one of the operands is. -/
theorem isTrue_disjunction (left right : Scalar) :
    (Column.truthOf (disjunction left right) == some true) =
      (Column.truthOf left == some true || Column.truthOf right == some true) := by
  rcases left with _ | (_ | _) | _ | _ | _ | _ <;>
    rcases right with _ | (_ | _) | _ | _ | _ | _ <;> rfl

end Operator

namespace Expr

variable {schema : Schema} {left right : Expr}

private theorem IsPredicate.isTrueOn {predicate : Expr} (isPredicate : predicate.IsPredicate schema)
    (row : Row) :
    predicate.isTrueOn schema row =
      (Column.truthOf (predicate.valueOn schema row) == some true) := by
  rw [Bool.eq_iff_iff, Expr.isTrueOn, decide_eq_true_iff,
    truthOn_of_hasType isPredicate.2 isPredicate.1, Except.ok.injEq, beq_iff_eq]

private theorem isPredicate_logical {op : Operator} (logical : op.isLogical = true)
    (leftPredicate : left.IsPredicate schema) (rightPredicate : right.IsPredicate schema) :
    (binary op left right).IsPredicate schema :=
  ⟨Bool.or_eq_false_iff.mpr ⟨leftPredicate.1, rightPredicate.1⟩,
    .logical logical leftPredicate.2 rightPredicate.2⟩

private theorem isTrueOn_and (leftPredicate : left.IsPredicate schema)
    (rightPredicate : right.IsPredicate schema) (row : Row) :
    (binary .and left right).isTrueOn schema row =
      (left.isTrueOn schema row && right.isTrueOn schema row) := by
  rw [(isPredicate_logical rfl leftPredicate rightPredicate).isTrueOn, leftPredicate.isTrueOn,
    rightPredicate.isTrueOn]
  exact Operator.isTrue_conjunction _ _

private theorem isTrueOn_or (leftPredicate : left.IsPredicate schema)
    (rightPredicate : right.IsPredicate schema) (row : Row) :
    (binary .or left right).isTrueOn schema row =
      (left.isTrueOn schema row || right.isTrueOn schema row) := by
  rw [(isPredicate_logical rfl leftPredicate rightPredicate).isTrueOn, leftPredicate.isTrueOn,
    rightPredicate.isTrueOn]
  exact Operator.isTrue_disjunction _ _

end Expr

private theorem tail_inits_cons {α : Type} (item : α) (items : List α) :
    (item :: items).inits.tail = [item] :: items.inits.tail.map (item :: ·) := by
  cases items <;> simp

/-- A bound predicate has the value that a predicate has by name. -/
structure Expr.IsSiftedBy (schema : Schema) (predicate : Expr) (own : BoundExpr) : Prop where
  isPredicate : predicate.IsPredicate schema
  binds : predicate.bindPredicate schema = .ok own
  typed : own.HasType schema.types .boolean
  value : ∀ row, own.valueAt row = predicate.valueOn schema row

private theorem Expr.IsPredicate.exists_isSiftedBy {schema : Schema} {predicate : Expr}
    (isPredicate : predicate.IsPredicate schema) : ∃ own, predicate.IsSiftedBy schema own := by
  obtain ⟨own, binds, typed, value⟩ := Expr.bind_of_hasType isPredicate.2 isPredicate.1
  refine ⟨own, isPredicate, ?_, typed, value⟩
  simp only [Expr.bindPredicate, binds, ok_bind, BoundExpr.type_of_hasType typed, if_true,
    pure_eq_ok]

section Chain

variable {schema : Schema} {predicates : List Expr} {owns : List BoundExpr}

/-- Filters in a row hand on one batch for each, of the rows on which all predicates are true. -/
theorem push_filters (sifted : List.Forall₂ (Expr.IsSiftedBy schema) predicates owns)
    (batch : Batch) (ofSchema : batch.schema = schema) :
    ∃ next : Batch, next.schema = schema ∧
      next.rows = batch.rows.filter (fun row => predicates.all (·.isTrueOn schema row)) ∧
      ∀ {σ : Type} (sink : Sink σ), sink.IsTotal → ∀ held,
        push sink (owns.map (Stage.filter · schema)) batch held =
          (.ok (), owns.map (Stage.filter · schema), sink.keptAfter [next] held) := by
  induction sifted generalizing batch with
  | nil =>
    refine ⟨batch, ofSchema, by simp, fun sink total held => ?_⟩
    rw [List.map_nil, push, total.accept_eq]
    rfl
  | @cons predicate own predicates owns first _ ih =>
    obtain ⟨middle, made, middleSchema, middleRows⟩ :=
      Stage.filtered_of_typed (ofSchema ▸ first.typed : own.HasType batch.schema.types .boolean)
    obtain ⟨next, nextSchema, nextRows, pushed⟩ := ih middle (middleSchema.trans ofSchema)
    refine ⟨next, nextSchema, ?_, fun sink total held => ?_⟩
    · rw [nextRows, middleRows, List.filter_filter]
      refine List.filter_congr fun row _ => ?_
      rw [List.all_cons, first.isPredicate.isTrueOn, first.value, Bool.and_comm]
    · rw [List.map_cons, push, Stage.receive, made]
      simp only [Except.map, pushed sink total held]

private theorem sifts_filters (sifted : List.Forall₂ (Expr.IsSiftedBy schema) predicates owns)
    (output : Schema) :
    Chain.Sifts ⟨owns.map (Stage.filter · schema), output⟩ schema
      (fun row => predicates.all (·.isTrueOn schema row)) := by
  intro batches ofSchema
  induction batches with
  | nil => exact ⟨[], .nil, fun _ _ _ => rfl⟩
  | cons batch batches ih =>
    obtain ⟨next, nextSchema, rows, pushed⟩ :=
      push_filters sifted batch (ofSchema batch List.mem_cons_self)
    obtain ⟨delivered, each, answered⟩ :=
      ih fun other later => ofSchema other (List.mem_cons_of_mem _ later)
    refine ⟨next :: delivered, .cons ⟨nextSchema, rows⟩ each, fun sink total held => ?_⟩
    simp only [List.map_cons, Chain.answers, Chain.respond, Chain.push, pushed sink total held,
      answered sink total, tail_inits_cons, List.map_map]
    rfl

private theorem nodesTyped_filters
    (sifted : List.Forall₂ (Expr.IsSiftedBy schema) predicates owns) :
    NodesTyped schema (owns.map (BoundNode.filter · schema)) schema := by
  induction sifted with
  | nil => exact .nil
  | cons first _ ih => exact .cons (.filter first.typed) ih

end Chain

namespace Plan

variable {schema : Schema}

/-- Filters over a plan, the first of them next to it. -/
def filtered (below : Plan) (predicates : List Expr) : Plan := predicates.foldl filter below

private theorem table_filtered (below : Plan) (predicates : List Expr) :
    (below.filtered predicates).table = below.table := by
  induction predicates generalizing below with
  | nil => rfl
  | cons predicate predicates ih => exact ih (filter below predicate)

private theorem boundNodes_filtered {below : Plan} {front : List BoundNode}
    (derives : Derives below schema) (bound : below.boundNodes = .ok front) {predicates : List Expr}
    {owns : List BoundExpr}
    (sifted : List.Forall₂ (Expr.IsSiftedBy schema) predicates owns) :
    Derives (below.filtered predicates) schema ∧
      (below.filtered predicates).boundNodes =
        .ok (front ++ owns.map (BoundNode.filter · schema)) := by
  induction sifted generalizing below front with
  | nil => exact ⟨derives, by rw [List.map_nil, List.append_nil]; exact bound⟩
  | @cons predicate own predicates owns first _ ih =>
    have filters : (filter below predicate).boundNodes =
        .ok (front ++ [BoundNode.filter own schema]) := by
      simp only [boundNodes, bound, schema_of_derives derives, first.binds, ok_bind, pure_eq_ok]
    have rest := ih (.filter derives first.isPredicate.1 first.isPredicate.2) filters
    rwa [List.append_assoc] at rest

/-- A plan compiles to a chain that sifts the batches of its table by a test. -/
def Sifts (plan : Plan) (schema : Schema) (test : Row → Bool) : Prop :=
  ∃ scan chain, (output plan).compile .standard = .ok scan ∧ scan.schema = schema ∧
    scan.children = [chain] ∧ chain.Sifts schema test

/-- Filters in a row over a table compile to a chain that sifts by all their predicates. -/
theorem sifts_filtered {table : TableInput} (read : table.schema = .ok schema)
    {predicates : List Expr} (valid : ∀ predicate ∈ predicates, predicate.IsPredicate schema) :
    ((input table).filtered predicates).Sifts schema
      (fun row => predicates.all (·.isTrueOn schema row)) := by
  obtain ⟨owns, sifted⟩ := exists_forall₂ fun predicate isMember =>
    (valid predicate isMember).exists_isSiftedBy
  have leaf : (input table).boundNodes = .ok [] := by
    rw [boundNodes, discard_bind, read]
    rfl
  obtain ⟨derives, bound⟩ := boundNodes_filtered (derives_of_read read) leaf sifted
  rw [List.nil_append] at bound
  have leafRead : ((input table).filtered predicates).table.schema = .ok schema := by
    rw [table_filtered]
    exact read
  have compiled := compile_of_boundNodes StrategyRegistry.byArity derives bound leafRead
    (nodesTyped_filters sifted)
  rw [List.map_map] at compiled
  exact ⟨_, _, compiled, rfl, rfl, sifts_filters sifted schema⟩

private theorem sifts_one {table : TableInput} (read : table.schema = .ok schema) {predicate : Expr}
    (valid : predicate.IsPredicate schema) :
    (filter (input table) predicate).Sifts schema (predicate.isTrueOn schema ·) := by
  have sifts := sifts_filtered read (List.forall_mem_singleton.mpr valid)
  simp only [List.all_cons, List.all_nil, Bool.and_true] at sifts
  exact sifts

private theorem sifts_two {table : TableInput} (read : table.schema = .ok schema)
    {first second : Expr} (firstValid : first.IsPredicate schema)
    (secondValid : second.IsPredicate schema) :
    (filter (filter (input table) first) second).Sifts schema
      (fun row => first.isTrueOn schema row && second.isTrueOn schema row) := by
  have sifts := sifts_filtered read
    (List.forall_mem_cons.mpr ⟨firstValid, List.forall_mem_singleton.mpr secondValid⟩)
  simp only [List.all_cons, List.all_nil, Bool.and_true] at sifts
  exact sifts

private theorem isPredicate_of_validate {table : TableInput} (read : table.schema = .ok schema)
    {predicate : Expr} (accepted : (output (filter (input table) predicate)).validate = .ok ()) :
    predicate.IsPredicate schema := by
  obtain ⟨own, derives⟩ := validate_output.mp accepted
  cases derives with
  | filter leaf rowwise boolean =>
    obtain rfl : schema = own := Except.ok.inj (read.symm.trans (schema_of_derives leaf))
    exact ⟨rowwise, boolean⟩

/-- Two predicates that are accepted over a table are so together. One filter after the other, in
either order, hands on the same rows for each batch as a single filter by the conjunction: those on
which both predicates are true. A filter by the disjunction hands on those on which one is true,
which are the rows that the two filters keep by themselves. -/
theorem filters_compose {table : TableInput} (read : table.schema = .ok schema)
    {left right : Expr} (leftAccepted : (output (filter (input table) left)).validate = .ok ())
    (rightAccepted : (output (filter (input table) right)).validate = .ok ()) :
    let both := fun row => left.isTrueOn schema row && right.isTrueOn schema row
    let either := fun row => left.isTrueOn schema row || right.isTrueOn schema row
    (filter (input table) left).Sifts schema (left.isTrueOn schema ·) ∧
      (filter (input table) right).Sifts schema (right.isTrueOn schema ·) ∧
      (filter (filter (input table) left) right).Sifts schema both ∧
      (filter (filter (input table) right) left).Sifts schema both ∧
      (filter (input table) (.binary .and left right)).Sifts schema both ∧
      (filter (input table) (.binary .or left right)).Sifts schema either := by
  intro both either
  have leftValid := isPredicate_of_validate read leftAccepted
  have rightValid := isPredicate_of_validate read rightAccepted
  have swapped : both = fun row => right.isTrueOn schema row && left.isTrueOn schema row :=
    funext fun row => Bool.and_comm _ _
  have conjunction : both = ((Expr.binary .and left right).isTrueOn schema ·) :=
    funext fun row => (Expr.isTrueOn_and leftValid rightValid row).symm
  have disjunction : either = ((Expr.binary .or left right).isTrueOn schema ·) :=
    funext fun row => (Expr.isTrueOn_or leftValid rightValid row).symm
  refine ⟨sifts_one read leftValid, sifts_one read rightValid,
    sifts_two read leftValid rightValid, ?_, ?_, ?_⟩
  · rw [swapped]
    exact sifts_two read rightValid leftValid
  · rw [conjunction]
    exact sifts_one read (Expr.isPredicate_logical rfl leftValid rightValid)
  · rw [disjunction]
    exact sifts_one read (Expr.isPredicate_logical rfl leftValid rightValid)

section Orders

/-- An order of several items; of an order of unknown size it is unknown. -/
def severalOrdered : Expr := .binary .gt (.column "count") (.literal (.int64 1))

def inkOrdered : Expr := .binary .eq (.column "item") (.literal (.utf8 "ink"))

/-- An order of ink, of unknown size, is kept by the disjunction and by no conjunction. -/
theorem filters_compose_orders :
    let table : TableInput := ⟨"orders", ordersSchema, none⟩
    let orders := firstOrders.rows ++ laterOrders.rows
    let both := fun row =>
      severalOrdered.isTrueOn ordersSchema row && inkOrdered.isTrueOn ordersSchema row
    let either := fun row =>
      severalOrdered.isTrueOn ordersSchema row || inkOrdered.isTrueOn ordersSchema row
    table.schema = .ok ordersSchema ∧
      (output (filter (input table) severalOrdered)).validate = .ok () ∧
      (output (filter (input table) inkOrdered)).validate = .ok () ∧
      orders.map (fun row => severalOrdered.truthOn ordersSchema row) =
        [.ok (some false), .ok (some true), .ok (some true), .ok none] ∧
      orders.filter both = [[.utf8 "ink", .int64 5]] ∧
      orders.filter either =
        [[.utf8 "ink", .int64 5], [.utf8 "pen", .int64 2], [.utf8 "ink", .null]] ∧
      (filter (filter (input table) severalOrdered) inkOrdered).Sifts ordersSchema both ∧
      (filter (filter (input table) inkOrdered) severalOrdered).Sifts ordersSchema both ∧
      (filter (input table) (.binary .and severalOrdered inkOrdered)).Sifts ordersSchema both ∧
      (filter (input table) (.binary .or severalOrdered inkOrdered)).Sifts ordersSchema either := by
  intro table orders both either
  have read : table.schema = .ok ordersSchema := rfl
  have several : (output (filter (input table) severalOrdered)).validate = .ok () := by
    decide +kernel
  have ink : (output (filter (input table) inkOrdered)).validate = .ok () := by decide +kernel
  obtain ⟨-, -, sifts⟩ := filters_compose read several ink
  exact ⟨read, several, ink, by decide +kernel, by decide +kernel, by decide +kernel, sifts⟩

end Orders

end Plan

end ColumnQuery
