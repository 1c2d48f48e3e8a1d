import ColumnQuery.Proofs.Batch.Build
import ColumnQuery.Proofs.Column.Building
import ColumnQuery.Proofs.Source.Batches
import ColumnQuery.Proofs.Source.Binding
import ColumnQuery.Proofs.Source.Reading

/-! # Scans of files

A scan goes through three lists of columns: those that were asked for, those that were declared, and
those of the file. Whatever they are and however the file is read, the batches that it delivers hold
under each column that was asked for the rows of the column of the file that the declared column is
bound to, row group by row group.
-/

namespace ColumnQuery

/-- The cells of a column of a batch, none if there is no such column. -/
def Batch.cellsAt (batch : Batch) (position : Nat) : List Scalar :=
  batch.columns[position]?.elim [] (·.cells)

/-- Batches of a schema that hold, in its order, the columns of some row groups at some ordinals. -/
structure Carries (schema : Schema) (ordinals : List Nat) (size : Nat) (groups : List RowGroup)
    (batches : List Batch) : Prop where
  schema : ∀ batch ∈ batches, batch.schema = schema
  sizes : ∀ batch ∈ batches, 0 < batch.rowCount ∧ batch.rowCount ≤ size
  cells : ∀ index ordinal, ordinals[index]? = some ordinal →
    batches.flatMap (·.cellsAt index) = groups.flatMap (·.cellsAt ordinal)
  /-- Row group by row group, also when there are no columns. -/
  rowCounts : ∃ blocks : List (List Batch), blocks.flatten = batches ∧
    blocks.map (fun block => (block.map (·.rowCount)).sum) = groups.map (·.rowCount)

theorem Carries.flatten {schema : Schema} {ordinals : List Nat} {size : Nat}
    {groups : List RowGroup} {blocks : List (List Batch)}
    (each : List.Forall₂ (fun group => Carries schema ordinals size [group]) groups blocks) :
    Carries schema ordinals size groups blocks.flatten := by
  induction each with
  | nil => exact ⟨nofun, nofun, fun _ _ _ => rfl, [], rfl, rfl⟩
  | @cons group block groups blocks first rest ih =>
    obtain ⟨own, same, counts⟩ := first.rowCounts
    obtain ⟨others, rest, otherCounts⟩ := ih.rowCounts
    refine ⟨?_, ?_, fun index ordinal isOrdinal => ?_, own ++ others, ?_, ?_⟩
    · simpa only [List.flatten_cons, List.forall_mem_append] using ⟨first.schema, ih.schema⟩
    · simpa only [List.flatten_cons, List.forall_mem_append] using ⟨first.sizes, ih.sizes⟩
    · rw [List.flatten_cons, List.flatMap_append, first.cells index ordinal isOrdinal,
        ih.cells index ordinal isOrdinal, List.flatMap_singleton, List.flatMap_cons]
    · rw [List.flatten_append, same, rest, List.flatten_cons]
    · rw [List.map_append, counts, otherCounts]
      rfl

/-- A run of a row group has at its place the part of a column of the row group. -/
structure RowGroup.Lends (group run : RowGroup) (order : List Nat) (ordinal : Nat)
    (column : Column) : Prop where
  found : run.columns[placeIn order ordinal]? = some column.toRaw
  type : group.columns[ordinal]?.map (·.type) = some column.type
  length : column.length = run.rowCount

section Loading

variable {group : RowGroup} {order : List Nat} {size : Nat} {runs : List RowGroup}

/-- A column that is read is a column of its own in every run. -/
theorem RowGroup.ReadAs.exists_column (readAs : group.ReadAs order size runs) {run : RowGroup}
    (isRun : run ∈ runs) {place ordinal : Nat} (isOrdinal : order[place]? = some ordinal)
    {type : DataType} (isType : group.columns[ordinal]?.map (·.type) = some type)
    (supported : type.isSupported = true)
    (typed : ∀ cell ∈ group.cellsAt ordinal, cell.FitsIn type) :
    ∃ column : Column, run.columns[place]? = some column.toRaw ∧ column.type = type ∧
      column.length = run.rowCount := by
  have types := congrArg (·[place]?) (readAs.types run isRun)
  simp only [List.getElem?_map, isOrdinal, Option.map_some, isType] at types
  obtain ⟨raw, found, same⟩ := Option.map_eq_some_iff.mp types
  cases same
  -- The runs of a column together are the column, so what fits there fits in each of them.
  have typed (cell : Scalar) (isCell : cell ∈ raw.cells) : cell.FitsIn raw.type := by
    apply typed
    rw [← readAs.cells place ordinal isOrdinal]
    exact List.mem_flatMap.mpr ⟨run, isRun, by rwa [RowGroup.cellsAt, found]⟩
  exact ⟨⟨raw.type, raw.cells, supported, typed⟩, found, rfl,
    readAs.even run isRun raw (List.mem_of_getElem? found)⟩

variable {ordinals : List Nat} {schema : Schema}
  (typed : ∀ column ∈ group.columns, column.type.isSupported = true →
    ∀ cell ∈ column.cells, cell.FitsIn column.type)
  (types : ordinals.map (fun ordinal => group.columns[ordinal]?.map (·.type)) =
    schema.types.map some)
  (supported : ∀ field ∈ schema.fields, field.type.isSupported = true)
include typed types supported

/-- Every column that is asked for is taken from its place. -/
theorem RowGroup.ReadAs.exists_taken (readAs : group.ReadAs (fileOrder ordinals) size runs)
    (width : Nat) {run : RowGroup} (isRun : run ∈ runs) {ordinal : Nat}
    (isMember : ordinal ∈ ordinals) :
    ∃ column, FileTable.takeColumn (fileOrder ordinals) width run ordinal = .ok column ∧
      group.Lends run (fileOrder ordinals) ordinal column := by
  obtain ⟨type, isType⟩ := Option.isSome_iff_exists.mp (isSome_of_map_some types ordinal isMember)
  obtain ⟨whole, found, rfl⟩ := Option.map_eq_some_iff.mp isType
  have isSupported : whole.type.isSupported = true := by
    have isField : some whole.type ∈ schema.types.map some :=
      types ▸ List.mem_map.mpr ⟨ordinal, isMember, isType⟩
    obtain ⟨_, isField, ⟨⟩⟩ := List.mem_map.mp isField
    obtain ⟨field, isField, same⟩ := List.mem_map.mp isField
    exact same ▸ supported field isField
  have fits (cell : Scalar) (isCell : cell ∈ group.cellsAt ordinal) : cell.FitsIn whole.type := by
    rw [RowGroup.cellsAt, found] at isCell
    exact typed whole (List.mem_of_getElem? found) isSupported cell isCell
  have isOrdinal := getElem?_placeIn (ascending_fileOrder ordinals) (mem_fileOrder.mpr isMember)
  obtain ⟨column, isRead, type, length⟩ :=
    readAs.exists_column isRun isOrdinal isType isSupported fits
  refine ⟨column, ?_, isRead, type ▸ isType, length⟩
  rw [FileTable.takeColumn, isRead]
  exact Column.ofRaw_toRaw column

/-- A run gives a batch of the columns at the places of the ordinals. -/
theorem RowGroup.ReadAs.exists_batch (readAs : group.ReadAs (fileOrder ordinals) size runs)
    (width : Nat) {run : RowGroup} (isRun : run ∈ runs) :
    ∃ batch, FileTable.takeRun schema ordinals width run = .ok batch ∧ batch.schema = schema ∧
      batch.rowCount = run.rowCount ∧ ∀ index ordinal, ordinals[index]? = some ordinal →
        batch.cellsAt index = run.cellsAt (placeIn (fileOrder ordinals) ordinal) := by
  obtain ⟨columns, success, each⟩ := exists_mapM fun ordinal isMember =>
    readAs.exists_taken typed types supported width isRun isMember
  have columnTypes : columns.map (·.type) = schema.types := by
    have same : schema.types.map some = columns.map (some ∘ Column.type) :=
      types.symm.trans (map_eq_map_of_forall₂ (each.imp fun _ _ lends => lends.type))
    rw [← List.map_map] at same
    exact (map_some_inj.mp same).symm
  have lengths (column : Column) (isColumn : column ∈ columns) : column.length = run.rowCount := by
    obtain ⟨_, -, lends⟩ := exists_of_mem_forall₂ each isColumn
    exact lends.length
  refine ⟨⟨schema, columns, run.rowCount, columnTypes, lengths⟩,
    bind_eq_ok_iff.mpr ⟨columns, success, Batch.build_eq_ok_iff.mpr ⟨rfl, rfl, rfl⟩⟩, rfl, rfl,
    fun index ordinal isOrdinal => ?_⟩
  obtain ⟨column, isColumn, lends⟩ := exists_getElem?_of_forall₂ each isOrdinal
  simp only [Batch.cellsAt, RowGroup.cellsAt, isColumn, lends.found, Column.toRaw, Option.elim_some]

/-- What is loaded of a row group are its columns at the ordinals. -/
theorem FileTable.exists_loaded {reader : GroupReader} (faithful : reader.IsFaithful)
    (even : group.IsEven) (positive : 0 < size) :
    ∃ batches, loadThrough reader schema ordinals size group = .ok batches ∧
      Carries schema ordinals size [group] batches := by
  have inside (ordinal : Nat) (isMember : ordinal ∈ ordinals) : ordinal < group.columns.length := by
    simpa using isSome_of_map_some types ordinal isMember
  have readAs := faithful group ordinals (fileOrder ordinals) size even positive inside
    (ascending_fileOrder ordinals) fun ordinal => mem_fileOrder
  obtain ⟨batches, loaded, each⟩ := exists_mapM fun run isRun =>
    readAs.exists_batch typed types supported group.columns.length isRun
  refine ⟨batches, loaded, fun batch isBatch => ?_, fun batch isBatch => ?_,
    fun index ordinal isOrdinal => ?_, [batches], List.flatten_singleton, ?_⟩
  · obtain ⟨_, -, same, -⟩ := exists_of_mem_forall₂ each isBatch
    exact same
  · obtain ⟨run, isRun, -, rowCount, -⟩ := exists_of_mem_forall₂ each isBatch
    exact rowCount ▸ readAs.sizes run isRun
  · have place := getElem?_placeIn (ascending_fileOrder ordinals)
      (mem_fileOrder.mpr (List.mem_of_getElem? isOrdinal))
    have cells := map_eq_map_of_forall₂ (each.imp fun _ _ all =>
      (all.2.2 index ordinal isOrdinal).symm)
    rw [List.flatMap_singleton, ← readAs.cells _ _ place, List.flatMap, ← cells, List.flatMap]
  · have rowCounts := map_eq_map_of_forall₂ (each.imp fun _ _ all => all.2.1.symm)
    rw [List.map_singleton, ← rowCounts, readAs.rowCount, List.map_singleton]

end Loading

namespace FileTable.Bound

variable {path : String} {declared : Schema} {stored : StoredTable} {table : FileTable}
  (bound : table.Bound path declared stored.schema)
include bound

/-- The columns that are read for some positions are those that the fields there are bound to. -/
theorem columns_of_fields {positions : List Nat} {fields : List Field}
    (chosen : positions.map (declared.fields[·]?) = fields.map some) :
    List.Forall₂ (fun field ordinal => ∃ column,
        stored.schema.FirstNamed field.name ordinal column ∧ column.type = field.type)
      fields (positions.map fun position => table.ordinals.getD position 0) := by
  induction positions generalizing fields with
  | nil =>
    obtain rfl : fields = [] := List.map_eq_nil_iff.mp chosen.symm
    exact .nil
  | cons position positions ih =>
    cases fields with
    | nil => cases chosen
    | cons field fields =>
      obtain ⟨isField, others⟩ := List.cons.inj chosen
      obtain ⟨ordinal, isOrdinal, first⟩ := exists_getElem?_of_forall₂ bound.ordinals isField
      obtain rfl : table.ordinals.getD position 0 = ordinal := by
        rw [List.getD_eq_getElem?_getD, isOrdinal, Option.getD_some]
      exact .cons first (ih others)

/-- All row groups are loaded with the columns of some declared fields. -/
theorem exists_loaded {reader : GroupReader} (faithful : reader.IsFaithful)
    (formed : stored.WellFormed) {positions : List Nat} {selected : Schema}
    (chosen : positions.map (declared.fields[·]?) = selected.fields.map some) {size : Nat}
    (positive : 0 < size) :
    let ordinals := positions.map fun position => table.ordinals.getD position 0
    ∃ blocks, stored.groups.mapM (loadThrough reader selected ordinals size) = .ok blocks ∧
      Carries selected ordinals size stored.groups blocks.flatten := by
  intro ordinals
  have columns := bound.columns_of_fields chosen
  have supported (field : Field) (isField : field ∈ selected.fields) :
      field.type.isSupported = true := by
    have isChosen : some field ∈ positions.map (declared.fields[·]?) :=
      chosen ▸ List.mem_map_of_mem isField
    obtain ⟨position, -, found⟩ := List.mem_map.mp isChosen
    exact bound.supported field (List.mem_of_getElem? found)
  have types (group : RowGroup) (isGroup : group ∈ stored.groups) :
      ordinals.map (fun ordinal => group.columns[ordinal]?.map (·.type)) =
        selected.types.map some := by
    have same : selected.fields.map (some ∘ Field.type) =
        ordinals.map fun ordinal => group.columns[ordinal]?.map (·.type) := by
      refine map_eq_map_of_forall₂ (columns.imp fun field ordinal bound => ?_)
      obtain ⟨column, first, type⟩ := bound
      rw [← List.getElem?_map, formed.types group isGroup, Schema.types, List.getElem?_map,
        first.isField, Option.map_some, type]
      rfl
    rw [← same, Schema.types, List.map_map]
  obtain ⟨blocks, loaded, each⟩ := exists_mapM fun group isGroup =>
    FileTable.exists_loaded (formed.typed group isGroup) (types group isGroup) supported faithful
      (formed.even group isGroup) positive
  exact ⟨blocks, loaded, .flatten each⟩

end FileTable.Bound

section Scan

variable {World : Type}

/-- A single consumer that takes every batch and never asks for cancellation. -/
structure Consumers.IsAccepting (consumers : Consumers World) : Prop where
  one : consumers.width = 1
  accepts : ∀ batch world, (consumers.handOver 0 batch world).1 = .ok ()
  unstopped : ∀ world, consumers.stops world = false

/-- The world after some batches have been handed to the first consumer. -/
def Consumers.after (consumers : Consumers World) (batches : List Batch) (world : World) : World :=
  batches.foldl (fun world batch => (consumers.handOver 0 batch world).2) world

private theorem Consumers.IsAccepting.feed_eq {consumers : Consumers World}
    (accepting : consumers.IsAccepting) (batches : List Batch) (world : World) :
    consumers.feed batches world = (.ok (), consumers.after batches world) := by
  induction batches generalizing world with
  | nil => rfl
  | cons batch batches ih =>
    have accepted := accepting.accepts batch world
    rw [feed]
    split
    · rename_i next handed
      rw [ih, after, after, List.foldl_cons, handed]
    · rename_i fault next refused
      rw [refused] at accepted
      cases accepted

/-- What a scan takes from a file: the declared fields at the positions that it asks for, and the
columns of the file under the names of these fields. -/
structure Schema.Chooses (declared stored : Schema) (projection : Option (List String))
    (positions : List Nat) (selected : Schema) (ordinals : List Nat) : Prop where
  asked : declared.Asks projection positions
  fields : positions.map (declared.fields[·]?) = selected.fields.map some
  columns : List.Forall₂ (fun field ordinal =>
    ∃ column, stored.FirstNamed field.name ordinal column) selected.fields ordinals

/-- How a scan of a file ends that is delivered to an accepting consumer: it fails before the first
batch if it asks for a name that is not declared, and delivers its columns otherwise. -/
structure StoredTable.ScansTo (stored : StoredTable) (declared : Schema)
    (projection : Option (List String)) (size : Nat) (consumers : Consumers World) (world : World)
    (report : Delivery.Report World) : Prop where
  refuses : declared.Lacks projection →
    (∃ error, report.outcome = .error (.error error)) ∧ report.world = world
  delivers : ¬declared.Lacks projection → report.outcome = .ok () ∧
    ∃ positions selected ordinals batches,
      declared.Chooses stored.schema projection positions selected ordinals ∧
        Carries selected ordinals size stored.groups batches ∧
        report.world = consumers.after batches world

private theorem Schema.exists_selected {declared : Schema} {projection : Option (List String)}
    {positions : List Nat} (asked : declared.Asks projection positions) :
    ∃ selected, declared.project positions = .ok selected := by
  have present (position : Nat) (isMember : position ∈ positions) :
      declared.fields[position]?.isSome := by
    cases projection with
    | none =>
      cases asked
      simpa using isMember
    | some names =>
      obtain ⟨name, -, field, first⟩ := exists_of_mem_forall₂ asked isMember
      exact Option.isSome_iff_exists.mpr ⟨field, first.isField⟩
  obtain ⟨fields, chosen⟩ := exists_map_some present
  exact ⟨⟨fields⟩, project_eq_ok_iff.mpr chosen⟩

private theorem FileTable.Bound.scansTo {path : String} {declared : Schema} {stored : StoredTable}
    {table : FileTable} (bound : table.Bound path declared stored.schema) {reader : GroupReader}
    (faithful : reader.IsFaithful) (formed : stored.WellFormed)
    (projection : Option (List String)) {size : Nat} (positive : 0 < size)
    {consumers : Consumers World} (accepting : consumers.IsAccepting) (world : World) :
    stored.ScansTo declared projection size consumers world
      (table.pushThrough reader (.table stored) consumers size projection false world) := by
  obtain rfl := bound.schema
  constructor
  · intro lacks
    cases failed : table.positions projection with
    | ok positions => exact absurd lacks (exists_positions_iff.mp ⟨positions, failed⟩)
    | error error =>
      have prepared : table.prepareThrough reader (.table stored) size projection =
          .error error := by
        simp only [prepareThrough, StoredTable.read, failed, ok_bind, error_bind]
      rw [pushThrough, prepared]
      exact ⟨⟨error, rfl⟩, rfl⟩
  · intro known
    obtain ⟨positions, resolved⟩ := exists_positions_iff.mpr known
    have asked := positions_eq_ok_iff.mp resolved
    obtain ⟨selected, projected⟩ := Schema.exists_selected asked
    have chosen := Schema.project_eq_ok_iff.mp projected
    obtain ⟨blocks, loaded, carries⟩ := bound.exists_loaded faithful formed chosen positive
    have prepared : table.prepareThrough reader (.table stored) size projection =
        .ok (stored.groups, loadThrough reader selected
          (positions.map fun position => table.ordinals.getD position 0) size) := by
      simp only [prepareThrough, StoredTable.read, resolved, projected, ok_bind, pure_eq_ok]
    -- One worker takes the row groups in order, and an accepting consumer refuses no batch of them.
    let delivery : Delivery RowGroup World := { consumers with
      load := loadThrough reader selected
        (positions.map fun position => table.ordinals.getD position 0) size }
    have ran := delivery.run_of_loaded accepting.one accepting.unstopped loaded world
    obtain ⟨outcome, left⟩ := Prod.mk.inj (ran.trans (accepting.feed_eq blocks.flatten world))
    have columns := (bound.columns_of_fields chosen).imp fun _ _ =>
      Exists.imp fun _ both => both.1
    rw [pushThrough, prepared]
    exact ⟨outcome, positions, selected, _, blocks.flatten, ⟨asked, chosen, columns⟩, carries, left⟩

/-- A file can be opened when the declared fields, or its own, are bound to its columns. Whatever a
scan asks for then and however row groups are cut into runs, it delivers the columns that the fields
under the requested names are bound to, if there are such fields. So does the reader that cuts runs
of equal length. -/
theorem FileTable.scan_delivers_columns {reader : GroupReader} (faithful : reader.IsFaithful)
    {stored : StoredTable} (formed : stored.WellFormed) (path : String)
    (declared : Option Schema) :
    ((∃ table, openAt path declared (.table stored) = .ok table) ↔
      (declared.getD stored.schema).BindsTo stored.schema) ∧
    ∀ table, openAt path declared (.table stored) = .ok table →
      ∀ (projection : Option (List String)) (size : Nat), 0 < size →
        ∀ {World : Type} (consumers : Consumers World) (world : World), consumers.IsAccepting →
          stored.ScansTo (declared.getD stored.schema) projection size consumers world
            (table.pushThrough reader (.table stored) consumers size projection false
              world) ∧
          stored.ScansTo (declared.getD stored.schema) projection size consumers world
            (table.push (.table stored) consumers size projection false world) := by
  simp only [openAt_table, bind_eq_ok_iff_bound]
  refine ⟨exists_bound_iff, fun table bound projection size positive World consumers world
    accepting => ?_⟩
  rw [push_eq_pushThrough]
  exact ⟨bound.scansTo faithful formed projection positive accepting world,
    bound.scansTo GroupReader.cutting_isFaithful formed projection positive accepting world⟩

/-- Two declared columns are asked for in other letters, one of them twice, of a file that has them
in the other order, a second column of the name in other letters, and one that cannot be held. -/
theorem FileTable.scan_delivers_columns_letters :
    let stored : StoredTable :=
      ⟨⟨[⟨"id", .int64, false⟩, ⟨"day", .date32, true⟩, ⟨"Name", .utf8, true⟩,
          ⟨"NAME", .int64, true⟩]⟩,
        [⟨3, [⟨.int64, [.int64 1, .int64 2, .int64 3]⟩, ⟨.date32, [.null, .null, .null]⟩,
            ⟨.utf8, [.utf8 "a", .null, .utf8 "c"]⟩, ⟨.int64, [.null, .null, .int64 9]⟩]⟩,
          ⟨1, [⟨.int64, [.int64 4]⟩, ⟨.date32, [.null]⟩, ⟨.utf8, [.utf8 "d"]⟩,
            ⟨.int64, [.int64 8]⟩]⟩]⟩
    let declared : Schema := ⟨[⟨"name", .utf8, true⟩, ⟨"ID", .int64, true⟩]⟩
    let table : FileTable := ⟨"t", declared, [2, 0]⟩
    let consumers : Consumers (List Batch) :=
      ⟨1, fun _ batch batches => (.ok (), batches ++ [batch]), fun _ => false⟩
    let names := ["Id", "NAME", "id"]
    GroupReader.cutting.IsFaithful ∧ stored.WellFormed ∧ consumers.IsAccepting ∧
      FileTable.openAt "t" (some declared) (.table stored) = .ok table ∧
      declared.BindsTo stored.schema ∧
      stored.ScansTo declared (some names) 2 consumers []
        (table.pushThrough .cutting (.table stored) consumers 2 (some names) false []) := by
  intro stored declared table consumers names
  have formed : stored.WellFormed := ⟨by decide, by decide, by decide⟩
  have accepting : consumers.IsAccepting := ⟨rfl, fun _ _ => rfl, fun _ => rfl⟩
  have resolved : stored.schema.resolve declared.names = .ok [2, 0] := by
    simp only [Schema.resolve, Schema.sourceOrdinal?, sameIgnoringCase_eq_toList]
    rfl
  have opened : FileTable.openAt "t" (some declared) (.table stored) = .ok table := by
    rw [openAt_table, Option.getD_some, bind, resolved]
    rfl
  have results :=
    scan_delivers_columns GroupReader.cutting_isFaithful formed "t" (some declared)
  exact ⟨GroupReader.cutting_isFaithful, formed, accepting, opened, results.1.mp ⟨table, opened⟩,
    (results.2 table opened (some names) 2 (by decide) consumers [] accepting).1⟩

end Scan

end ColumnQuery
