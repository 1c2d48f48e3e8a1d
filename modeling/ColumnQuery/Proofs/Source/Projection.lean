import ColumnQuery.Plan.Basic
import ColumnQuery.Proofs.Batch.Build
import ColumnQuery.Proofs.Column.Building
import ColumnQuery.Proofs.Delivery.Loads
import ColumnQuery.Proofs.Source.Binding
import ColumnQuery.Proofs.Source.Memory
import ColumnQuery.Proofs.Source.Reading
import ColumnQuery.Source.Basic

/-! # The columns that a scan delivers

A plan means by a name the first column of exactly that name. A source delivers the first column
whose name differs at most in the case of ASCII letters, and a file finds its own columns in that
way even when it is asked for all of them. So a scan delivers what the plan means except where two
names of a schema differ in case only, or a file has a name twice. Of the reader of a file it
matters only that it is faithful.
-/

namespace ColumnQuery

/-- A source that was not given a schema: its schema is that of its batches or of its file. -/
inductive Source.Undeclared : Source → Prop where
  | memory {name : String} {schema : Schema} {partitions : List (List Batch)} {table : MemoryTable}
      (built : MemoryTable.ofPartitions name schema partitions = .ok table) :
      Undeclared (.memory table)
  | file {path : String} {stored : StoredTable} {table : FileTable} (formed : stored.WellFormed)
      (opened : FileTable.openAt path none (.table stored) = .ok table) :
      Undeclared (.file table (.table stored))

/-- A source hands a batch to some consumer at some instant of a scan, in whatever order the
producer and the workers take their steps. The row groups of a file go through a reader. -/
inductive Source.Delivers {World : Type} (reader : GroupReader) (consumers : Consumers World)
    (batchSize : Nat) (projection : Option (List String)) (cancelled : Bool) (world : World) :
    Source → Batch → Prop where
  | memory {table : MemoryTable} {snapshot : Nat} {load : List Batch → Except Error (List Batch)}
      {state : Delivery.State (List Batch) World} {worker : Nat} {batch : Batch}
      (prepared : table.loader projection = .ok load)
      (reachable : Delivery.Reachable { consumers with load }
        (Delivery.start { consumers with load } (table.visible snapshot) world cancelled) state)
      (handed : (worker, batch) ∈ state.handed) :
      Delivers reader consumers batchSize projection cancelled world (.memory table) batch
  | file {table : FileTable} {content : FileContent} {groups : List RowGroup}
      {load : RowGroup → Except Error (List Batch)} {state : Delivery.State RowGroup World}
      {worker : Nat} {batch : Batch}
      (prepared : table.prepareThrough reader content batchSize projection = .ok (groups, load))
      (reachable : Delivery.Reachable { consumers with load }
        (Delivery.start { consumers with load } groups world cancelled) state)
      (handed : (worker, batch) ∈ state.handed) :
      Delivers reader consumers batchSize projection cancelled world (.file table content) batch

/-- A batch as a run of rows. -/
def Batch.run (batch : Batch) : RowGroup := ⟨batch.rowCount, batch.columns.map Column.toRaw⟩

/-- The rows of a source with all their columns, in the runs in which a scan delivers them. How a
row group is cut into runs is up to the reader, which may look at the columns that it is to read. -/
def Source.runs (reader : GroupReader) (batchSize : Nat) (read : List Nat) :
    Source → List RowGroup
  | memory table => table.partitions.flatMap fun partition => partition.batches.map Batch.run
  | file _ (.table stored) => stored.groups.flatMap fun group =>
      group.cutInto 0 ((reader group read batchSize).map (·.rowCount))
  | file _ _ => []

/-- The column at a position of a run of rows. -/
def RowGroup.read (run : RowGroup) (ordinal : Option Nat) : Option (Except Error Column) :=
  (ordinal.bind (run.columns[·]?)).map Column.ofRaw

/-- The position of the column that a plan means at a position of a scan. -/
def Schema.meant? (schema : Schema) (projection : Option (List String)) (position : Nat) :
    Option Nat :=
  match projection with
  | none => some position
  | some names => names[position]?.bind schema.ordinalOf?

/-- A batch shows what a plan means by a scan of a run of rows. -/
structure RowGroup.Shows (run : RowGroup) (schema : Schema) (projection : Option (List String))
    (selected : Schema) (batch : Batch) : Prop where
  names : batch.schema.names = selected.names
  types : batch.schema.types = selected.types
  rowCount : batch.rowCount = run.rowCount
  values : ∀ position < selected.fields.length,
    batch.columns[position]?.map .ok = run.read (schema.meant? projection position)

/-- A source finds the columns that are meant. By name it finds the columns of exactly these names;
if a file is asked for all columns, it finds under the name of each a column of the same values. -/
def Source.FindsMeant (source : Source) (projection : Option (List String)) (run : RowGroup) :
    Prop :=
  match projection, source with
  | some names, source =>
    ∀ name ∈ names, source.schema.sourceOrdinal? name = source.schema.ordinalOf? name
  | none, memory _ => True
  | none, file table _ => ∀ position field, table.schema.fields[position]? = some field →
      run.read (table.schema.sourceOrdinal? field.name) = run.read (some position)

/-- The positions in the schema of a source under which a scan delivers columns, and the positions
of the columns that it reads for them. -/
def Source.Scans (source : Source) (projection : Option (List String)) (shown read : List Nat) :
    Prop :=
  match projection, source with
  | some names, source => source.schema.resolve names = .ok shown ∧ read = shown
  | none, memory table => shown = List.range table.schema.fields.length ∧ read = shown
  | none, file table _ => shown = List.range table.schema.fields.length ∧
      table.schema.resolve table.schema.names = .ok read

/-- A batch that delivers columns of a run of rows under fields of a schema. -/
structure RowGroup.Gives (run : RowGroup) (schema : Schema) (shown read : List Nat)
    (batch : Batch) : Prop where
  names : batch.schema.names.map some = shown.map fun ordinal => schema.names[ordinal]?
  types : batch.schema.types.map some = shown.map fun ordinal => schema.types[ordinal]?
  rowCount : batch.rowCount = run.rowCount
  columns : batch.columns.map (some ∘ .ok) = read.map fun ordinal => run.read (some ordinal)

/-- The positions that a plan means by the columns of a scan. -/
structure Schema.Means (schema : Schema) (projection : Option (List String)) (selected : Schema)
    (meant : List Nat) : Prop where
  fields : selected.fields.map some = meant.map (schema.fields[·]?)
  positions : ∀ position < selected.fields.length,
    schema.meant? projection position = meant[position]?

theorem Schema.Means.length {schema selected : Schema} {projection : Option (List String)}
    {meant : List Nat} (means : schema.Means projection selected meant) :
    selected.fields.length = meant.length := by
  simpa using congrArg List.length means.fields

private theorem Schema.means_of_all (schema : Schema) :
    schema.Means none schema (List.range schema.fields.length) where
  fields := (map_getElem?_range schema.fields).symm
  positions position bound := by simp [meant?, bound]

private theorem Schema.means_of_names {schema selected : Schema} {names : List String}
    (accepted : schema.select names = .ok selected) :
    ∃ meant, schema.Means (some names) selected meant ∧
      names.map schema.ordinalOf? = meant.map some := by
  obtain ⟨meant, positions, fields⟩ := positions_of_select accepted
  refine ⟨meant, ⟨fields.symm, fun position bound => ?_⟩, positions⟩
  · have atPosition := congrArg (·[position]?) positions
    simp only [List.getElem?_map] at atPosition
    cases named : names[position]? with
    | none =>
      rw [named] at atPosition
      cases missing : meant[position]? with
      | none => simp [meant?, named]
      | some ordinal => simp [missing] at atPosition
    | some name =>
      rw [named] at atPosition
      cases found : meant[position]? with
      | none => simp [found] at atPosition
      | some ordinal => simpa [meant?, named, found] using atPosition

theorem Schema.Means.names {schema selected : Schema} {projection : Option (List String)}
    {meant : List Nat} (means : schema.Means projection selected meant) :
    selected.names.map some = meant.map fun ordinal => schema.names[ordinal]? := by
  have := congrArg (List.map (Option.map Field.name)) means.fields
  simpa [Schema.names, Function.comp_def] using this

theorem Schema.Means.types {schema selected : Schema} {projection : Option (List String)}
    {meant : List Nat} (means : schema.Means projection selected meant) :
    selected.types.map some = meant.map fun ordinal => schema.types[ordinal]? :=
  (Schema.types_of_positions means.fields.symm).symm

section Gives

variable {source : Source} {run : RowGroup} {projection : Option (List String)}
  {selected : Schema} {meant shown read : List Nat} {batch : Batch}

/-- What a batch shows, compared list by list with what is meant. -/
theorem RowGroup.shows_iff_of_means (means : source.schema.Means projection selected meant)
    (gives : run.Gives source.schema shown read batch) (count : read.length = meant.length) :
    run.Shows source.schema projection selected batch ↔
      batch.schema.names = selected.names ∧ batch.schema.types = selected.types ∧
        read.map (fun ordinal => run.read (some ordinal)) =
          meant.map fun ordinal => run.read (some ordinal) := by
  have length := means.length
  have atPosition {position : Nat} (bound : position < meant.length) :
      ∃ column own other, batch.columns[position]? = some column ∧ read[position]? = some own ∧
        meant[position]? = some other ∧ run.read (some own) = some (.ok column) := by
    have columns := congrArg (·[position]?) gives.columns
    have isRead : position < read.length := by omega
    have isColumn : position < batch.columns.length := by
      have := congrArg List.length gives.columns
      simp only [List.length_map] at this
      omega
    refine ⟨_, _, _, List.getElem?_eq_getElem isColumn, List.getElem?_eq_getElem isRead,
      List.getElem?_eq_getElem bound, ?_⟩
    simp only [List.getElem?_map, List.getElem?_eq_getElem isColumn,
      List.getElem?_eq_getElem isRead, Option.map_some, Option.some.injEq] at columns
    exact columns.symm
  constructor
  · rintro ⟨names, types, -, values⟩
    refine ⟨names, types, List.ext_getElem? fun position => ?_⟩
    by_cases bound : position < meant.length
    · obtain ⟨column, own, other, atColumn, atRead, atMeant, gives⟩ := atPosition bound
      have value := values position (by omega)
      rw [means.positions position (by omega), atColumn, atMeant] at value
      simp only [List.getElem?_map, atRead, atMeant, Option.map_some, gives, ← value]
    · rw [List.getElem?_eq_none, List.getElem?_eq_none] <;> simp <;> omega
  · rintro ⟨names, types, columns⟩
    refine ⟨names, types, gives.rowCount, ?_⟩
    intro position bound
    obtain ⟨column, own, other, atColumn, atRead, atMeant, gives⟩ := atPosition (length ▸ bound)
    have same := congrArg (·[position]?) columns
    simp only [List.getElem?_map, atRead, atMeant, Option.map_some, Option.some.injEq] at same
    rw [means.positions position bound, atMeant, atColumn, ← same, gives]
    rfl

/-- By name, a scan shows what is meant just when it finds the columns of exactly these names. -/
theorem RowGroup.shows_iff_of_names {names : List String}
    (accepted : source.schema.select names = .ok selected)
    (resolved : source.schema.resolve names = .ok shown)
    (gives : run.Gives source.schema shown shown batch) :
    run.Shows source.schema (some names) selected batch ↔
      ∀ name ∈ names, source.schema.sourceOrdinal? name = source.schema.ordinalOf? name := by
  obtain ⟨meant, means, positions⟩ := Schema.means_of_names accepted
  have found := Schema.resolve_eq_ok_iff.mp resolved
  have count : shown.length = meant.length := by
    have own := congrArg List.length found
    have other := congrArg List.length positions
    simp only [List.length_map] at own other
    omega
  rw [shows_iff_of_means means gives count]
  constructor
  · rintro ⟨sameNames, -, -⟩ name isMember
    obtain ⟨index, atIndex⟩ := List.mem_iff_getElem?.mp isMember
    have position := congrArg (·[index]?) found
    have shownName := congrArg (·[index]?) gives.names
    rw [sameNames, Schema.names_of_select accepted] at shownName
    simp only [List.getElem?_map, atIndex, Option.map_some] at position shownName
    obtain ⟨ordinal, atShown, isFound⟩ := Option.map_eq_some_iff.mp position.symm
    rw [atShown, Option.map_some, Option.some.injEq, Schema.names, List.getElem?_map] at shownName
    obtain ⟨field, isField, named⟩ := Option.map_eq_some_iff.mp shownName.symm
    exact (Schema.sourceOrdinal?_eq_ordinalOf?_iff isFound.symm isField).mpr named
  · intro exactly
    have same : shown = meant := by
      rw [← map_some_inj, ← found, ← positions]
      exact List.map_congr_left exactly
    subst same
    exact ⟨map_some_inj.mp (gives.names.trans means.names.symm),
      map_some_inj.mp (gives.types.trans means.types.symm), rfl⟩

/-- Of all columns, a scan shows what is meant just when it reads the same values for each. -/
theorem RowGroup.shows_iff_of_all
    (gives : run.Gives source.schema (List.range source.schema.fields.length) read batch)
    (count : read.length = source.schema.fields.length) :
    run.Shows source.schema none source.schema batch ↔
      read.map (fun ordinal => run.read (some ordinal)) =
        (List.range source.schema.fields.length).map fun ordinal => run.read (some ordinal) := by
  have means := source.schema.means_of_all
  rw [shows_iff_of_means means gives (by simpa using count)]
  have names := map_some_inj.mp (gives.names.trans means.names.symm)
  have types := map_some_inj.mp (gives.types.trans means.types.symm)
  exact ⟨fun shows => shows.2.2, fun columns => ⟨names, types, columns⟩⟩

end Gives

section Memory

private theorem Batch.read_run (batch : Batch) (ordinal : Nat) :
    batch.run.read (some ordinal) = batch.columns[ordinal]?.map .ok := by
  simp only [RowGroup.read, run, Option.bind_some, List.getElem?_map, Option.map_map]
  exact congrArg (Option.map · _) (funext Column.ofRaw_toRaw)

/-- A whole batch delivers every column under its own field. -/
theorem Batch.gives_all {batch : Batch} {schema : Schema}
    (same : batch.schema.sameColumns schema = true) :
    batch.run.Gives schema (List.range schema.fields.length) (List.range schema.fields.length)
      batch := by
  obtain ⟨names, types⟩ := Schema.sameColumns_iff.mp same
  have count : batch.columns.length = schema.fields.length := by
    have := congrArg List.length (batch.matching.types.trans types)
    simpa [Schema.types] using this
  refine ⟨?_, ?_, rfl, ?_⟩
  · rw [names, ← map_getElem?_range, Schema.names, List.length_map]
  · rw [types, ← map_getElem?_range, Schema.types, List.length_map]
  · have columns :=
      map_getElem?_range (batch.columns.map (Except.ok : Column → Except Error Column))
    simpa [Batch.read_run, ← count, Function.comp_def, eq_comm] using columns

/-- A projected batch delivers the columns at some positions under the fields at these positions. -/
theorem Batch.gives_projected {batch projected : Batch} {schema : Schema} {ordinals : List Nat}
    (same : batch.schema.sameColumns schema = true)
    (success : batch.project ordinals = .ok projected) :
    batch.run.Gives schema ordinals ordinals projected := by
  obtain ⟨names, types⟩ := Schema.sameColumns_iff.mp same
  obtain ⟨fields, columns, rowCount⟩ := project_eq_ok success
  refine ⟨?_, ?_, rowCount, ?_⟩
  · have := congrArg (List.map (Option.map Field.name)) fields
    rw [← names]
    simpa [Schema.names, Function.comp_def, eq_comm] using this
  · have := congrArg (List.map (Option.map Field.type)) fields
    rw [← types]
    simpa [Schema.types, Function.comp_def, eq_comm] using this
  · have := congrArg (List.map (Option.map (Except.ok : Column → Except Error Column))) columns
    simpa [Batch.read_run, Function.comp_def, eq_comm] using this

end Memory

section File

/-- A file that is opened with its own schema finds its columns by their names. -/
theorem FileTable.ordinals_of_opened {path : String} {stored : StoredTable} {table : FileTable}
    (opened : openAt path none (.table stored) = .ok table) :
    table.schema = stored.schema ∧
      stored.schema.resolve stored.schema.names = .ok table.ordinals := by
  obtain ⟨same, read, opened⟩ := bind_eq_ok_iff.mp opened
  cases read
  obtain ⟨_, _, opened⟩ := bind_eq_ok_iff.mp opened
  obtain ⟨ordinals, resolved, opened⟩ := bind_eq_ok_iff.mp opened
  obtain ⟨_, _, opened⟩ := bind_eq_ok_iff.mp opened
  obtain ⟨_, _, opened⟩ := bind_eq_ok_iff.mp opened
  cases opened
  exact ⟨rfl, resolved⟩

/-- What is loaded of a run of a row group are the columns of a piece of it. -/
theorem FileTable.gives_of_takeRun {schema shownSchema : Schema} {shown read : List Nat}
    {width : Nat} {run piece : RowGroup} {batch : Batch}
    (fields : schema.project shown = .ok shownSchema) (part : run.PartOf piece (fileOrder read))
    (taken : takeRun shownSchema read width run = .ok batch) :
    piece.Gives schema shown read batch := by
  obtain ⟨columns, found, built⟩ := bind_eq_ok_iff.mp taken
  obtain ⟨rfl, rfl, rowCount⟩ := Batch.build_eq_ok_iff.mp built
  have shownFields := Schema.project_eq_ok_iff.mp fields
  refine ⟨?_, ?_, rowCount.trans part.rowCount, ?_⟩
  · have := congrArg (List.map (Option.map Field.name)) shownFields
    simpa [Schema.names, Function.comp_def, eq_comm] using this
  · have := congrArg (List.map (Option.map Field.type)) shownFields
    simpa [Schema.types, Function.comp_def, eq_comm] using this
  · have columnsFound := congrArg (List.map some) (mapM_eq_ok_iff.mp found)
    rw [List.map_map, List.map_map] at columnsFound
    rw [← columnsFound]
    apply List.map_congr_left
    intro ordinal isRead
    have isOrdinal := getElem?_placeIn (ascending_fileOrder read) (mem_fileOrder.mpr isRead)
    obtain ⟨column, -, isColumn⟩ := exists_result_of_mapM found isRead
    rw [Function.comp_apply, takeColumn, part.columns _ ordinal isOrdinal]
    rw [takeColumn, part.columns _ ordinal isOrdinal] at isColumn
    cases stored : piece.columns[ordinal]? with
    | none => simp [stored] at isColumn
    | some whole => simp [RowGroup.read, stored]

/-- A batch that is loaded of a row group delivers a run of its rows. -/
theorem FileTable.gives_of_loadThrough {reader : GroupReader} {schema shownSchema : Schema}
    {shown read : List Nat} {batchSize : Nat} {group : RowGroup} {batches : List Batch}
    {batch : Batch} (fields : schema.project shown = .ok shownSchema)
    (readAs : group.ReadAs (fileOrder read) batchSize (reader group read batchSize))
    (loaded : loadThrough reader shownSchema read batchSize group = .ok batches)
    (isMember : batch ∈ batches) :
    ∃ run ∈ group.cutInto 0 ((reader group read batchSize).map (·.rowCount)),
      run.Gives schema shown read batch := by
  obtain ⟨run, isRun, taken⟩ := exists_of_mem_mapM loaded isMember
  obtain ⟨piece, isPiece, part⟩ := exists_of_mem_forall₂ readAs.forall₂_cutInto.flip isRun
  exact ⟨piece, isPiece, gives_of_takeRun fields part taken⟩

/-- By name, a file reads the very columns that it shows. -/
theorem FileTable.ordinals_getD {schema : Schema} {names : List String}
    {positions ordinals : List Nat} (resolved : schema.resolve names = .ok positions)
    (own : schema.resolve schema.names = .ok ordinals) :
    (positions.map fun position => ordinals.getD position 0) = positions := by
  have found := Schema.resolve_eq_ok_iff.mp resolved
  have ownFound := Schema.resolve_eq_ok_iff.mp own
  refine (List.map_congr_left fun position isMember => ?_).trans (List.map_id positions)
  have : some position ∈ names.map schema.sourceOrdinal? :=
    found ▸ List.mem_map_of_mem isMember
  obtain ⟨name, -, isFound⟩ := List.mem_map.mp this
  obtain ⟨bound, _⟩ := List.findIdx?_eq_some_iff_getElem.mp isFound
  have isField := List.getElem?_eq_getElem bound
  have atPosition := congrArg (·[position]?) ownFound
  simp only [Schema.names, List.getElem?_map, isField, Option.map_some,
    Schema.sourceOrdinal?_name isFound isField] at atPosition
  obtain ⟨ordinal, isOrdinal, same⟩ := Option.map_eq_some_iff.mp atPosition.symm
  cases same
  simp [List.getD, isOrdinal]

/-- Asked for all columns, a file reads for each the column that it finds under its name. -/
theorem FileTable.getD_range {schema : Schema} {ordinals : List Nat}
    (own : schema.resolve schema.names = .ok ordinals) :
    ((List.range schema.fields.length).map fun position => ordinals.getD position 0) =
      ordinals := by
  have count : schema.fields.length = ordinals.length := by
    have := congrArg List.length (Schema.resolve_eq_ok_iff.mp own)
    simpa [Schema.names] using this
  apply List.ext_getElem?
  intro index
  by_cases bound : index < ordinals.length <;> simp [count, bound]

end File

/-- A file that finds its own columns by their names reads columns that it finds by some names. -/
theorem FileTable.scans_of_positions {table : FileTable} (content : FileContent)
    (own : table.schema.resolve table.schema.names = .ok table.ordinals)
    {projection : Option (List String)} {positions : List Nat}
    (resolved : table.positions projection = .ok positions) :
    let read := positions.map fun position => table.ordinals.getD position 0
    ∃ names, (Source.file table content).Scans projection positions read ∧
      table.schema.resolve names = .ok read := by
  cases projection with
  | none =>
    cases resolved
    rw [getD_range own]
    exact ⟨table.schema.names, ⟨rfl, own⟩, own⟩
  | some names =>
    have resolved : table.schema.resolve names = .ok positions := resolved
    rw [ordinals_getD resolved own]
    exact ⟨names, ⟨resolved, rfl⟩, resolved⟩

/-- A faithful reader reads some columns of each row group of a file that is opened. -/
theorem FileTable.readAs_of_resolve {stored : StoredTable} (formed : stored.WellFormed)
    {reader : GroupReader} (faithful : reader.IsFaithful) {batchSize : Nat}
    (positive : 0 < batchSize) {names : List String} {read : List Nat}
    (resolved : stored.schema.resolve names = .ok read) {group : RowGroup}
    (isGroup : group ∈ stored.groups) :
    group.ReadAs (fileOrder read) batchSize (reader group read batchSize) := by
  have inside (ordinal : Nat) (isMember : ordinal ∈ read) : ordinal < group.columns.length := by
    have found : some ordinal ∈ names.map stored.schema.sourceOrdinal? :=
      Schema.resolve_eq_ok_iff.mp resolved ▸ List.mem_map_of_mem isMember
    obtain ⟨name, -, isFound⟩ := List.mem_map.mp found
    obtain ⟨bound, -⟩ := List.findIdx?_eq_some_iff_getElem.mp isFound
    have width := congrArg List.length (formed.types group isGroup)
    simp only [Schema.types, List.length_map] at width
    exact width ▸ bound
  exact faithful group read (fileOrder read) batchSize (formed.even group isGroup) positive inside
    (ascending_fileOrder read) fun ordinal => mem_fileOrder

section Delivered

variable {source : Source} (undeclared : source.Undeclared) {reader : GroupReader}
  (faithful : reader.IsFaithful) {batchSize : Nat} (positive : 0 < batchSize)
include undeclared faithful positive

private theorem Source.exists_gives {World : Type} {consumers : Consumers World}
    {projection : Option (List String)} {cancelled : Bool} {world : World} {batch : Batch}
    (delivered : source.Delivers reader consumers batchSize projection cancelled world batch) :
    ∃ shown read, source.Scans projection shown read ∧
      ∃ run ∈ source.runs reader batchSize read, run.Gives source.schema shown read batch := by
  cases delivered with
  | @memory table snapshot load state worker batch prepared reachable handed =>
    cases undeclared with
    | memory built =>
    obtain ⟨batches, isVisible, loaded, success, isMember⟩ :=
      Delivery.loads_of_handed reachable handed
    obtain ⟨partition, isPartition, rfl⟩ := List.mem_map.mp isVisible
    have isPartition := (List.mem_filter.mp isPartition).1
    have uniform := MemoryTable.uniform_of_built built partition isPartition
    have isRun {whole : Batch} (isBatch : whole ∈ partition.batches) :
        whole.run ∈ table.partitions.flatMap fun partition => partition.batches.map Batch.run :=
      List.mem_flatMap.mpr ⟨partition, isPartition, List.mem_map_of_mem isBatch⟩
    obtain ⟨ordinals, resolved, same⟩ := bind_eq_ok_iff.mp prepared
    cases same
    cases projection with
    | none =>
      cases resolved
      cases success
      exact ⟨_, _, ⟨rfl, rfl⟩, batch.run, isRun isMember, Batch.gives_all (uniform batch isMember)⟩
    | some names =>
      have resolved : (table.schema.resolve names).map some = .ok ordinals := resolved
      obtain ⟨shown, named, rfl⟩ := map_eq_ok_iff.mp resolved
      obtain ⟨whole, isBatch, projected⟩ := exists_of_mem_mapM success isMember
      exact ⟨shown, shown, ⟨named, rfl⟩, whole.run, isRun isBatch,
        Batch.gives_projected (uniform whole isBatch) projected⟩
  | @file table content groups load state worker batch prepared reachable handed =>
    cases undeclared with
    | @file path stored _ formed opened =>
    obtain ⟨schema, own⟩ := FileTable.ordinals_of_opened opened
    rw [← schema] at own
    obtain ⟨_, found, prepared⟩ := bind_eq_ok_iff.mp prepared
    cases found
    obtain ⟨positions, resolved, prepared⟩ := bind_eq_ok_iff.mp prepared
    obtain ⟨shownSchema, fields, same⟩ := bind_eq_ok_iff.mp prepared
    cases same
    obtain ⟨group, isGroup, batches, success, isMember⟩ :=
      Delivery.loads_of_handed reachable handed
    obtain ⟨names, scans, named⟩ := FileTable.scans_of_positions (.table stored) own resolved
    have readAs := FileTable.readAs_of_resolve formed faithful positive (schema ▸ named) isGroup
    obtain ⟨run, isRun, gives⟩ := FileTable.gives_of_loadThrough fields readAs success isMember
    exact ⟨positions, _, scans, run, List.mem_flatMap.mpr ⟨group, isGroup, isRun⟩, gives⟩

end Delivered

private theorem RowGroup.reads_same_iff {run : RowGroup} {schema : Schema} {read : List Nat}
    (found : schema.names.map schema.sourceOrdinal? = read.map some) :
    (read.map (fun ordinal => run.read (some ordinal)) =
        (List.range schema.fields.length).map fun ordinal => run.read (some ordinal)) ↔
      ∀ position field, schema.fields[position]? = some field →
        run.read (schema.sourceOrdinal? field.name) = run.read (some position) := by
  have columns : read.map (fun ordinal => run.read (some ordinal)) =
      schema.fields.map fun field => run.read (schema.sourceOrdinal? field.name) := by
    have := congrArg (List.map run.read) found
    simpa [Schema.names, Function.comp_def, eq_comm] using this
  rw [columns, List.ext_getElem?_iff]
  constructor
  · intro same position field isField
    obtain ⟨bound, rfl⟩ := List.getElem?_eq_some_iff.mp isField
    simpa [bound] using same position
  · intro same position
    cases isField : schema.fields[position]? with
    | none => simp [List.getElem?_eq_none_iff.mp isField]
    | some field =>
      obtain ⟨bound, rfl⟩ := List.getElem?_eq_some_iff.mp isField
      simpa [bound] using same position _ isField

/-- A batch that a scan delivers holds the columns that the source finds, ignoring case. It shows
what a plan means by the scan just where these are the columns that are meant. -/
theorem Source.shows_iff_findsMeant {source : Source} (undeclared : source.Undeclared)
    {reader : GroupReader} (faithful : reader.IsFaithful) {batchSize : Nat}
    (positive : 0 < batchSize) {table : TableInput} {selected : Schema}
    (planned : table.source = source.schema) (accepted : table.schema = .ok selected)
    {World : Type} {consumers : Consumers World} {cancelled : Bool} {world : World} {batch : Batch}
    (delivered :
      source.Delivers reader consumers batchSize table.projection cancelled world batch) :
    ∃ shown read, source.Scans table.projection shown read ∧
      ∃ run ∈ source.runs reader batchSize read, run.Gives source.schema shown read batch ∧
        (run.Shows source.schema table.projection selected batch ↔
          source.FindsMeant table.projection run) := by
  obtain ⟨shown, read, scans, run, isRun, gives⟩ :=
    exists_gives undeclared faithful positive delivered
  refine ⟨shown, read, scans, run, isRun, gives, ?_⟩
  clear delivered
  obtain ⟨path, _, projection⟩ := table
  subst planned
  cases projection with
  | some names =>
    obtain ⟨resolved, rfl⟩ := scans
    exact RowGroup.shows_iff_of_names accepted resolved gives
  | none =>
    cases accepted
    cases source with
    | memory table =>
      obtain ⟨rfl, rfl⟩ := scans
      rw [RowGroup.shows_iff_of_all gives (by simp [schema])]
      simp only [FindsMeant, schema]
    | file table content =>
      obtain ⟨rfl, resolved⟩ := scans
      have found := Schema.resolve_eq_ok_iff.mp resolved
      have count : read.length = table.schema.fields.length := by
        have := congrArg List.length found
        simpa [Schema.names, eq_comm] using this
      rw [RowGroup.shows_iff_of_all gives count]
      exact RowGroup.reads_same_iff found

section Letters

/-- Two columns whose names differ in case only. -/
def lettersSchema : Schema := ⟨[⟨"a", .int64, true⟩, ⟨"A", .int64, true⟩]⟩

def lettersBatch : Batch where
  schema := lettersSchema
  columns := [⟨.int64, [.int64 1], DataType.isSupported_int64, by decide⟩,
    ⟨.int64, [.int64 2], DataType.isSupported_int64, by decide⟩]
  rowCount := 1
  matching := ⟨rfl, by decide⟩

def lettersTable : MemoryTable := ⟨"t", lettersSchema, 1, [⟨1, [lettersBatch]⟩]⟩

/-- Asked for the second column, the table delivers the first. -/
def lettersDelivered : Batch where
  schema := ⟨[⟨"a", .int64, true⟩]⟩
  columns := [⟨.int64, [.int64 1], DataType.isSupported_int64, by decide⟩]
  rowCount := 1
  matching := ⟨rfl, by decide⟩

private theorem lettersTable_built :
    MemoryTable.ofPartitions "t" lettersSchema [[lettersBatch]] = .ok lettersTable := rfl

private theorem lettersTable_delivers :
    (Source.memory lettersTable).Delivers .cutting ⟨1, fun _ _ _ => (.ok (), ()), fun _ => false⟩ 1
      (some ["A"]) false () lettersDelivered := by
  have resolved : lettersSchema.resolve ["A"] = .ok [0] := by decide +kernel
  have prepared : lettersTable.loader (some ["A"]) = .ok (MemoryTable.load (some [0])) := by
    change (do return MemoryTable.load (← (some <$> lettersSchema.resolve ["A"]))) = _
    rw [resolved]
    rfl
  let delivery : Delivery (List Batch) Unit :=
    ⟨⟨1, fun _ _ _ => (.ok (), ()), fun _ => false⟩, MemoryTable.load (some [0])⟩
  have sent := Delivery.Reachable.step (.start)
    (rfl : delivery.step? (delivery.start (lettersTable.visible 1) () false) .send = some _)
  have waiting := sent.step (rfl : delivery.step? _ (.request 0) = some _)
  have received := waiting.step (rfl : delivery.step? _ (.receive 0) = some _)
  have handed := received.step (rfl : delivery.step? _ (.hand 0) = some _)
  have isMember : (0, lettersDelivered) ∈ [(0, lettersDelivered)] := List.mem_cons_self
  exact .memory prepared handed isMember

/-- A scan of the column `A` that the schema describes delivers the column `a` instead. -/
theorem scan_shows_other_column :
    (Source.memory lettersTable).Undeclared ∧
      lettersSchema.select ["A"] = .ok ⟨[⟨"A", .int64, true⟩]⟩ ∧
      (Source.memory lettersTable).Delivers .cutting
        ⟨1, fun _ _ _ => (.ok (), ()), fun _ => false⟩ 1 (some ["A"]) false () lettersDelivered ∧
      ∀ read, ∀ run ∈ (Source.memory lettersTable).runs .cutting 1 read,
        ¬run.Shows lettersSchema (some ["A"]) ⟨[⟨"A", .int64, true⟩]⟩ lettersDelivered := by
  refine ⟨.memory lettersTable_built, rfl, lettersTable_delivers, ?_⟩
  intro read run _ shows
  exact absurd shows.names (by decide)

/-- The scan finds the column `a`, and so it does not show the column that is meant. -/
theorem shows_iff_findsMeant_letters :
    (Source.memory lettersTable).Undeclared ∧ GroupReader.cutting.IsFaithful ∧
      (TableInput.mk "t" lettersSchema (some ["A"])).schema = .ok ⟨[⟨"A", .int64, true⟩]⟩ ∧
      ∃ shown read, (Source.memory lettersTable).Scans (some ["A"]) shown read ∧
        ∃ run ∈ (Source.memory lettersTable).runs .cutting 1 read,
          run.Gives lettersSchema shown read lettersDelivered ∧
          (run.Shows lettersSchema (some ["A"]) ⟨[⟨"A", .int64, true⟩]⟩ lettersDelivered ↔
            (Source.memory lettersTable).FindsMeant (some ["A"]) run) :=
  have planned : (TableInput.mk "t" lettersSchema (some ["A"])).source = lettersSchema := rfl
  ⟨.memory lettersTable_built, GroupReader.cutting_isFaithful, rfl,
    Source.shows_iff_findsMeant (.memory lettersTable_built) GroupReader.cutting_isFaithful
      Nat.one_pos planned rfl lettersTable_delivers⟩

end Letters

end ColumnQuery
