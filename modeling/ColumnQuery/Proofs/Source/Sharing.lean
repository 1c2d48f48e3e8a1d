import ColumnQuery.Proofs.Source.Memory

/-! # A table that is shared

Clients append to a table in memory and ask for its version while scans read it, and so may the
consumers of a scan. Whoever calls, and in whatever order, the table is the one that the accepted
appends make, in the order in which they were accepted.
-/

namespace ColumnQuery

/-- A call of a shared table, with its answer. -/
inductive TableCall where
  | appended (batches : List Batch) (answer : Except Error Nat)
  | viewed (version : Nat)

namespace TableCall

/-- The batches that a call has added to its table. -/
def accepted? : TableCall → Option (List Batch)
  | appended batches (.ok _) => some batches
  | appended _ (.error _) | viewed _ => none

/-- The version that a call has given its table. -/
def stamp? : TableCall → Option Nat
  | appended _ (.ok version) => some version
  | appended _ (.error _) | viewed _ => none

/-- The batches of the accepted appends, in order. -/
def accepted (calls : List TableCall) : List (List Batch) := calls.filterMap accepted?

/-- A call has the answer of a table that has accepted so many appends before. -/
def IsRight (name : String) (schema : Schema) (count : Nat) : TableCall → Prop
  | appended batches answer =>
    answer =
      if batches.all fun batch => batch.schema.sameColumns schema then .ok (count + 1)
      else .error (.tableSchemaMismatch name)
  | viewed version => version = count

/-- Every call has the answer that is right after the calls before it. -/
inductive Answered (name : String) (schema : Schema) : List TableCall → Prop where
  | nil : Answered name schema []
  | snoc {calls : List TableCall} {call : TableCall} (before : Answered name schema calls)
      (right : call.IsRight name schema (accepted calls).length) :
      Answered name schema (calls ++ [call])

theorem accepted_append (calls later : List TableCall) :
    accepted (calls ++ later) = accepted calls ++ accepted later := List.filterMap_append

@[simp] theorem accepted_ok (batches : List Batch) (version : Nat) :
    accepted [.appended batches (.ok version)] = [batches] := rfl

@[simp] theorem accepted_viewed (version : Nat) : accepted [.viewed version] = [] := rfl

variable {name : String} {schema : Schema} {calls : List TableCall}

/-- Accepted appends are answered with the versions from 1 on. -/
theorem Answered.stamps (answered : Answered name schema calls) :
    calls.filterMap stamp? = List.range' 1 (accepted calls).length := by
  induction answered with
  | nil => rfl
  | @snoc calls call before right ih =>
    rw [List.filterMap_append, ih, accepted_append, List.length_append]
    cases call with
    | viewed version => exact List.append_nil _
    | appended batches answer =>
      cases answer with
      | error error => exact List.append_nil _
      | ok version =>
        rw [IsRight] at right
        split at right <;> cases right
        rw [accepted_ok, List.length_singleton, List.range'_concat, Nat.one_mul, Nat.add_comm 1]
        rfl

/-- A version that was seen is the number of the appends that were accepted by then. -/
theorem Answered.viewed_le (answered : Answered name schema calls) {version : Nat}
    (viewed : .viewed version ∈ calls) : version ≤ (accepted calls).length := by
  induction answered with
  | nil => cases viewed
  | @snoc calls call before right ih =>
    rw [accepted_append, List.length_append]
    rcases List.mem_append.mp viewed with earlier | last
    · exact Nat.le_add_right_of_le (ih earlier)
    · obtain rfl := List.mem_singleton.mp last
      exact Nat.le_add_right_of_le (Nat.le_of_eq right)

end TableCall

namespace MemoryTable

/-- The table that some appends make, one after the other. -/
def numbered (name : String) (schema : Schema) (appends : List (List Batch)) : MemoryTable where
  name := name
  schema := schema
  version := appends.length
  partitions := (appends.zipIdx 1).map fun (batches, version) => ⟨version, batches⟩

variable (name : String) (schema : Schema) (appends : List (List Batch))

private theorem append_numbered (batches : List Batch) :
    (numbered name schema appends).append batches =
      if batches.all fun batch => batch.schema.sameColumns schema then
        .ok (numbered name schema (appends ++ [batches]))
      else .error (.tableSchemaMismatch name) := by
  simp [append, numbered, List.zipIdx_append, Nat.add_comm]

private theorem filter_zipIdx {α : Type} (items : List α) (first last : Nat) :
    ((items.zipIdx first).filter fun item => item.2 ≤ last).map (·.1) =
      items.take (last + 1 - first) := by
  induction items generalizing first with
  | nil => simp
  | cons item rest ih =>
    rw [List.zipIdx_cons]
    by_cases seen : first ≤ last
    · obtain ⟨further, rfl⟩ := Nat.exists_eq_add_of_le seen
      have left : first + further + 1 - first = further + 1 := by omega
      have later : first + further + 1 - (first + 1) = further := by omega
      simp [ih, left, later]
    · have nothing : last + 1 - first = 0 := by omega
      have later : last + 1 - (first + 1) = 0 := by omega
      simp [seen, ih, nothing, later]

/-- Who reads at a snapshot sees just the appends up to it. -/
theorem visible_numbered (snapshot : Nat) :
    (numbered name schema appends).visible snapshot = appends.take snapshot := by
  have taken := filter_zipIdx appends 1 snapshot
  rw [Nat.add_sub_cancel] at taken
  rw [← taken]
  simp [visible, numbered, List.filter_map, Function.comp_def]

end MemoryTable

/-- A table in memory with the calls that it has had, by whomever. -/
structure SharedTable (σ : Type) where
  table : MemoryTable
  calls : List TableCall
  /-- What the callers keep for themselves. -/
  held : σ

namespace SharedTable

variable {σ : Type}

def empty (name : String) (schema : Schema) (held : σ) : SharedTable σ :=
  ⟨.empty name schema, [], held⟩

/-- Append batches. The answer is the new version of the table. -/
def append (shared : SharedTable σ) (batches : List Batch) : Except Error Nat × SharedTable σ :=
  let added := shared.table.append batches
  let answer := added.map (·.version)
  (answer,
    { shared with
      table := added.toOption.getD shared.table
      calls := shared.calls ++ [.appended batches answer] })

def view (shared : SharedTable σ) : Nat × SharedTable σ :=
  (shared.table.version, { shared with calls := shared.calls ++ [.viewed shared.table.version] })

/-- What callers may do with a shared table. -/
inductive Calls (shared : SharedTable σ) : SharedTable σ → Prop where
  | none : Calls shared shared
  | append {next : SharedTable σ} (before : Calls shared next) (batches : List Batch) :
      Calls shared (next.append batches).2
  | view {next : SharedTable σ} (before : Calls shared next) : Calls shared next.view.2
  | keep {next : SharedTable σ} (before : Calls shared next) (held : σ) :
      Calls shared { next with held }

/-- A shared table is what its accepted appends make of it, and its answers were right. -/
structure Sound (name : String) (schema : Schema) (shared : SharedTable σ) : Prop where
  grown : shared.table = .numbered name schema (TableCall.accepted shared.calls)
  answered : TableCall.Answered name schema shared.calls

variable {name : String} {schema : Schema} {shared next : SharedTable σ}

theorem sound_empty (held : σ) : Sound name schema (empty name schema held) := ⟨rfl, .nil⟩

/-- A rejected append leaves the table as it is. -/
theorem table_append_of_error {batches : List Batch} {error : Error}
    (rejected : (shared.append batches).1 = .error error) :
    (shared.append batches).2.table = shared.table := by
  simp only [append] at rejected ⊢
  cases added : shared.table.append batches with
  | ok grown => simp [added, Except.map] at rejected
  | error => rfl

theorem Sound.append (sound : Sound name schema shared) (batches : List Batch) :
    Sound name schema (shared.append batches).2 := by
  obtain ⟨grown, answered⟩ := sound
  unfold SharedTable.append
  rw [grown, MemoryTable.append_numbered]
  split
  · rename_i same
    refine ⟨?_, .snoc answered ?_⟩
    · rw [TableCall.accepted_append]
      rfl
    · simp [TableCall.IsRight, same, MemoryTable.numbered, Except.map]
  · rename_i differ
    refine ⟨?_, .snoc answered ?_⟩
    · rw [TableCall.accepted_append]
      exact congrArg (MemoryTable.numbered name schema) (List.append_nil _).symm
    · simp [TableCall.IsRight, differ, Except.map]

theorem Sound.view (sound : Sound name schema shared) : Sound name schema shared.view.2 := by
  obtain ⟨grown, answered⟩ := sound
  refine ⟨?_, .snoc answered ?_⟩
  · simp [SharedTable.view, grown, TableCall.accepted_append]
  · simp [TableCall.IsRight, grown, MemoryTable.numbered]

theorem Sound.calls (sound : Sound name schema shared) (calls : Calls shared next) :
    Sound name schema next := by
  induction calls with
  | none => exact sound
  | append _ batches ih => exact ih.append batches
  | view _ ih => exact ih.view
  | keep _ _ ih => exact ⟨ih.grown, ih.answered⟩

/-- Calls are only ever added. -/
theorem Calls.isPrefix (calls : Calls shared next) : shared.calls <+: next.calls := by
  induction calls with
  | none => exact List.prefix_refl _
  | append _ _ ih | view _ ih => exact ih.trans (List.prefix_append _ _)
  | keep _ _ ih => exact ih

end SharedTable

end ColumnQuery
