import DeviceColumns.Proofs.Arrays.Contents
import DeviceColumns.Proofs.Custody.Runs

/-!
What an exported table means. Schemas and arrays are made independently of each other; read together
they say of each row what the table said. Lengths of arrays are signed 64-bit words, so this is so
for all row counts that such a word can have.
-/

namespace DeviceColumns

set_option autoImplicit false

open DeviceColumns.Action

/-- The node says of each row under the type of the field what the column said under its own, and its
slots are those that the type asks for. -/
structure Column.ExportedAs (column : Column) (before : Heap) (field : Field) (node : ArrayNode)
    (after : Heap) : Prop where
  length : node.length = column.rows
  nullCount : node.nullCount = column.nullCount
  bare : node.children = []
  cells : ∃ cells, column.cells? before = some cells ∧ cells.length = column.rows ∧
    node.cells? field.type after = some cells
  validity : ∃ valid, column.view.validity before = .ok valid ∧ node.validity after = .ok valid ∧
    ∀ bits ∈ valid, bits.length = column.rows
  unmasked : node.part 0 = none ↔ column.mask = none
  fits : ∃ encoding, field.type.encoding? = some encoding ∧
    node.slots.length = encoding.slotCount ∧
    (∀ mask ∈ node.part 0, Bitmask.pieces column.rows 8 ≤ mask.length) ∧
    ∀ data ∈ node.part 1, encoding.size column.rows ≤ data.length
  untyped : field.type = .null → node.nullCount = node.length

theorem ArrayNode.word_eq {count : Nat} (small : count < 2 ^ 63) : word count = count := by
  unfold word
  exact Int.bmod_eq_of_le (by omega) (by omega)

namespace Column

variable {column : Column} {names : NameTree} {field : Field} {node : ArrayNode}
  {before after : Heap} {bytes maskBytes : Bytes}

theorem Flat.field_type (flat : column.Flat) (named : column.view.field names = .ok field) :
    column.type.toArrow = .ok field.type := by
  obtain untyped | wide := flat.kind
  · have null : column.view.field names = .ok (.plain names.name .null true) := by
      rw [view_eq, View.field]
      simp [View.isUntyped, untyped]
    rw [null] at named
    cases named
    rw [ColumnType.toArrow, untyped]
    rfl
  · have same : column.view.type = column.type := by rw [view_eq]
    rw [← same] at wide ⊢
    obtain ⟨arrow, mapped, rfl⟩ := View.field_leaf wide named
    exact mapped

theorem Carried.cells (carried : column.Carried before node after)
    (length : node.length = column.rows) {arrow : ArrowType} {own : Encoding}
    (known : column.type.encoding? = some own) (mapped : column.type.toArrow = .ok arrow)
    (holds : before.Holds column.data bytes) (sized : bytes.length = own.size column.rows) :
    ∃ cells theirs, column.cells? before = some cells ∧ cells.length = column.rows ∧
      node.cells? arrow after = some cells ∧ arrow.encoding? = some theirs ∧
      ∀ data ∈ node.part 1, theirs.size column.rows ≤ data.length := by
  obtain ⟨theirs, understood, agree⟩ := ColumnType.cells_converted known mapped
  obtain ⟨enough, same⟩ := agree column.rows bytes sized
  have moved := carried.data bytes holds (sized.trans (ColumnType.encoding?_size known _))
  refine ⟨own.cells column.rows bytes, theirs, ?_, ColumnType.length_cells known sized, ?_,
    understood, fun data member => ?_⟩
  · have whole := holds.read (Nat.le_of_eq sized.symm)
    rw [← sized, List.take_length] at whole
    simp [cells?, known, Encoding.read, ← sized, whole, Except.map, Except.toOption]
  · have read := moved.read enough
    simp [ArrayNode.cells?, understood, Encoding.read, length, read, same, Except.map,
      Except.toOption]
  · rw [moved.length data member]
    exact enough

/-- A mask is only there if there are rows, so it has bytes, and then it has an address. -/
theorem Flat.mask_filled {mask : Buffer} (flat : column.Flat) (present : column.mask = some mask)
    (holds : before.Holds column.mask bytes) :
    Bitmask.pieces column.rows 8 ≤ bytes.length ∧ ∃ address, mask.address = some address := by
  obtain ⟨inhabited, size⟩ := flat.mask mask present
  have room := Bitmask.pieces_le_allocationSize column.rows
  have filled : bytes.length = Bitmask.allocationSize column.rows :=
    (holds.length mask present).symm.trans size
  refine ⟨filled ▸ room, Option.ne_none_iff_exists'.mp fun nowhere => ?_⟩
  have empty := holds.absent (by rw [present]; exact nowhere)
  rw [empty, List.length_nil] at filled
  simp only [Bitmask.pieces] at room
  omega

theorem Carried.validity (carried : column.Carried before node after) (flat : column.Flat)
    (shaped : column.Shaped node) (length : node.length = column.rows)
    (holds : before.Holds column.mask bytes) :
    ∃ valid, column.view.validity before = .ok valid ∧ node.validity after = .ok valid ∧
      (∀ bits ∈ valid, bits.length = column.rows) ∧ (node.part 0 = none ↔ column.mask = none) ∧
      ∀ mask ∈ node.part 0, Bitmask.pieces column.rows 8 ≤ mask.length := by
  have moved := carried.mask bytes holds
  have masked := shaped.masked
  cases present : column.mask with
  | none =>
      have missing : node.part 0 = none := by
        rw [masked, present]
        rfl
      refine ⟨none, ?_, ?_, by simp, by simp [missing], by simp [missing]⟩
      · rw [view_eq, View.validity, present]
        rfl
      · rw [ArrayNode.validity, missing]
  | some mask =>
      obtain ⟨enough, address, place⟩ := flat.mask_filled present holds
      have kept : node.part 0 = some mask := by
        simp [masked, present, slot, Option.filter, place]
      have before := holds.read enough
      have after := moved.read enough
      rw [present, Option.bind_some, place, Option.getD_some] at before
      rw [kept, Option.bind_some, place, Option.getD_some] at after
      refine ⟨some ((Bitmask.unpack (bytes.take (Bitmask.pieces column.rows 8))).take column.rows),
        ?_, ?_, ?_, by simp [kept], ?_⟩
      · simp [view_eq, View.validity, present, place, before]
      · simp [ArrayNode.validity, kept, Buffer.pointer, place, length, after, Except.map]
      · rintro _ ⟨⟩
        rw [List.length_take, Bitmask.length_unpack, List.length_take, Nat.min_eq_left enough]
        simp only [Bitmask.pieces]
        omega
      · rw [kept]
        rintro _ ⟨⟩
        rwa [holds.length mask present]

theorem Carried.exportedAs (carried : column.Carried before node after) (flat : column.Flat)
    (shaped : column.Shaped node) (named : column.view.field names = .ok field)
    (small : column.rows < 2 ^ 63) (holds : before.Holds column.data bytes)
    (sized : bytes.length = (column.data.map Buffer.length).getD 0)
    (maskHolds : before.Holds column.mask maskBytes) :
    column.ExportedAs before field node after := by
  have mapped := flat.field_type named
  have length : node.length = column.rows := by rw [shaped.length, ArrayNode.word_eq small]
  have nulls : node.nullCount = column.nullCount := by
    rw [shaped.nullCount, ArrayNode.word_eq (Nat.lt_of_le_of_lt flat.nulls small)]
  obtain ⟨own, known⟩ := ColumnType.encoding?_known flat.kind mapped
  obtain ⟨cells, theirs, said, counted, decoded, understood, fits⟩ := carried.cells length known mapped
    holds (by rw [sized, flat.data, ColumnType.encoding?_size known])
  obtain ⟨valid, validBefore, validAfter, validRows, unmasked, maskFits⟩ :=
    carried.validity flat shaped length maskHolds
  refine ⟨length, nulls, shaped.bare, ⟨cells, said, counted, decoded⟩,
    ⟨valid, validBefore, validAfter, validRows⟩, unmasked,
    ⟨theirs, understood, ?_, maskFits, fits⟩, fun untyped => ?_⟩
  · rw [shaped.slots, ColumnType.slotCount_eq mapped understood]
  · have null : column.type.logical = .empty := ColumnType.toArrow_null (untyped ▸ mapped)
    rw [nulls, length, (flat.untyped null).2]

end Column

/-- The array has a child and the schema a field for each column, and each child means under its
field what the column meant. -/
structure Table.ExportedAs (table : Table) (before : Heap) (schema : Schema) (array : ArrayNode)
    (after : Heap) : Prop where
  length : array.length = table.rows
  nullCount : array.nullCount = 0
  fields : schema.fields.length = table.columns.length
  children : array.children.length = table.columns.length
  each : ∀ (index : Nat) column field child, table.columns[index]? = some column →
    schema.fields[index]? = some field → array.children[index]? = some child →
      child.length = table.rows ∧ column.ExportedAs before field child after

namespace Table

variable {table remaining : Table} {names : List NameTree} {schema : Schema}
  {exported : DeviceArray} {resource : Resource} {machine after : Machine}

theorem Built.exportedAs {scope : Scope} {count : Nat} {held : Holdings} (built : table.Built)
    (small : table.rows < 2 ^ 63) (sound : resource.Sound count)
    (custody : Custody scope count (held + .ofBuffers (Column.buffersOfAll table.columns)) machine)
    (careful : scope.careful) (described : table.view.schema names = .ok schema)
    (ran : table.toDeviceArray resource machine = (.ok exported, remaining, after)) :
    table.ExportedAs machine.heap schema exported.array after.heap := by
  have exports := toDeviceArray_export table resource machine
  rw [ran] at exports
  cases exports with
  | @completed nodes _ converted =>
  obtain ⟨matching, fields, fieldsNamed, rfl⟩ := TableView.schema_ok described
  obtain ⟨listed, named⟩ := View.fieldsOf_getElem? matching fieldsNamed
  obtain ⟨⟨counted, carried⟩, -⟩ :=
    converted.carried sound custody.createEvent careful built.flat
  simp only [view, Column.viewAll_eq, List.length_map, List.getElem?_map] at listed named
  constructor
  · rw [ArrayNode.length_make, ArrayNode.word_eq small]
  · rw [ArrayNode.nullCount_make]
    rfl
  · exact listed
  · exact counted
  · intro index column field child found fieldFound childFound
    have member := List.mem_of_getElem? found
    have even : column.rows = table.rows := built.even column member
    obtain ⟨shaped, carried⟩ := carried index column child found childFound
    obtain ⟨tree, -, described⟩ := named index column.view field (by rw [found]; rfl) fieldFound
    obtain ⟨bytes, holds, sized⟩ := custody.holds careful fun buffer here =>
      Column.buffers_subset member (column.data_inside buffer here)
    obtain ⟨maskBytes, maskHolds, -⟩ := custody.holds careful fun buffer here =>
      Column.buffers_subset member (column.mask_inside buffer here)
    have exportedAs := carried.exportedAs (built.flat column member) shaped described
      (even ▸ small) holds sized maskHolds
    exact ⟨even ▸ exportedAs.length, exportedAs⟩

end Table

namespace Session

/-- In any careful run, whatever else has happened in it: once a table of values, booleans and nulls
has a schema and has been exported, schema and array together mean what the table meant before. -/
theorem CarefulRun.export_means {session : Session} {raw : List Nat} {touched : List LedgerId}
    (run : CarefulRun session raw touched) {subject via : String} {table remaining : Table}
    (found : session.find? subject = some (.table table)) (built : table.Built)
    (small : table.rows < 2 ^ 63) {object : Object} {resource : Resource}
    (given : session.find? via = some object) (provides : object.resource? = some resource)
    {names : List NameTree} {schema : Schema}
    (described : table.view.schema names = .ok schema) {exported : DeviceArray} {after : Machine}
    (ran : table.toDeviceArray resource session.machine = (.ok exported, remaining, after)) :
    table.ExportedAs session.machine.heap schema exported.array after.heap := by
  obtain ⟨count, sound⟩ := run.sound
  have custody : Custody ⟨raw, touched, True⟩ count
      ((session.forget subject).holdings + .ofBuffers (Column.buffersOfAll table.columns))
      session.machine := by
    apply sound.custody.of_eq
    rw [zero_add, holdingsWithout, holdings_of_find? sound.distinct found, add_comm]
    rfl
  exact built.exportedAs small (sound.object_sound given resource provides) custody trivial described
    ran

/-- Decimals that are widened, booleans that are packed, and nulls. -/
def sampleRequests : List Request := [
  .values "a" ⟨.decimal32, -2⟩ .i32 [1999, -5] (some [true, false]) "mr",
  .booleans "b" [true, false] none "mr",
  .nulls "n" 2,
  .table "t" ["a", "b", "n"]]

def sampleDecimals : Column := ⟨⟨.decimal32, -2⟩, 2,
  some ⟨some 0x100000000080, 8, ⟨[trackedLedger]⟩⟩,
  some ⟨some 0x100000000000, 64, ⟨[trackedLedger]⟩⟩, 1, []⟩

def sampleBooleans : Column :=
  ⟨⟨.bool8, 0⟩, 2, some ⟨some 0x100000000100, 2, ⟨[trackedLedger]⟩⟩, none, 0, []⟩

def sampleTable : Table := ⟨.host, [sampleDecimals, sampleBooleans, .ofNulls 2]⟩

def sampleAfter (steps : Nat) : Session :=
  (sampleRequests.take steps).foldl (fun session request => (session.perform request).2) .initial

def sample : Session := sampleAfter 4

theorem sample_built : sampleTable.Built := by
  have decimals : (Column.ofValues ⟨.decimal32, -2⟩ .i32 [1999, -5] (some [true, false])
      ⟨[trackedLedger]⟩ Session.initial.machine).1 = .ok sampleDecimals := rfl
  have booleans : (Column.ofBools [true, false] none ⟨[trackedLedger]⟩
      (sampleAfter 1).machine).1 = .ok sampleBooleans := rfl
  have each : ∀ column ∈ sampleTable.columns, column.Built :=
    List.forall_mem_cons.mpr ⟨.values (Prod.ext decimals rfl), List.forall_mem_cons.mpr
      ⟨.booleans (Prod.ext booleans rfl), List.forall_mem_singleton.mpr (.nulls 2)⟩⟩
  exact .made each (show Table.ofColumns .host sampleTable.columns Machine.initial =
    (.ok sampleTable, Machine.initial) from rfl)

theorem CarefulRun.export_means_mixed :
    ∃ schema exported remaining after,
      sampleTable.view.schema [.leaf "a", .leaf "b", .leaf "n"] = .ok schema ∧
      sampleTable.toDeviceArray ⟨[trackedLedger]⟩ sample.machine =
        (.ok exported, remaining, after) ∧
      sampleTable.ExportedAs sample.machine.heap schema exported.array after.heap := by
  have decimals := CarefulRun.initial.step (.values "a" ⟨.decimal32, -2⟩ .i32 [1999, -5]
    (some [true, false]) "mr") (by decide)
  have booleans := decimals.step (.booleans "b" [true, false] none "mr") (by decide)
  have nulls := booleans.step (.nulls "n" 2) (by decide)
  have run : CarefulRun sample _ _ := nulls.step (.table "t" ["a", "b", "n"]) (by decide)
  have exports : (sampleTable.toDeviceArray ⟨[trackedLedger]⟩ sample.machine).1.isOk = true := by
    decide +kernel
  rcases ran : sampleTable.toDeviceArray ⟨[trackedLedger]⟩ sample.machine with
    ⟨fault | exported, remaining, after⟩
  · rw [ran] at exports
    contradiction
  · have found : sample.find? "t" = some (.table sampleTable) := rfl
    have given : sample.find? "mr" = some (.resource ⟨[trackedLedger]⟩) := rfl
    have described : sampleTable.view.schema [.leaf "a", .leaf "b", .leaf "n"] =
        .ok ⟨[.plain "a" (.decimal128 9 2) true, .plain "b" .boolean false,
          .plain "n" .null true], []⟩ := rfl
    exact ⟨_, exported, remaining, after, described, rfl,
      run.export_means found sample_built (by decide) given rfl described ran⟩

def wideTable : Table := ⟨.host, [.ofNulls (2 ^ 63)]⟩

def wide : Session :=
  ((initial.perform (.nulls "n" (2 ^ 63))).2.perform (.table "t" ["n"])).2

/-- Nulls take up no memory, so a column can have more rows than a signed word counts; the length of
its array is negative. -/
theorem CarefulRun.export_overflows :
    CarefulRun wide [] [] ∧ wide.find? "t" = some (.table wideTable) ∧ wideTable.Built ∧
      wideTable.view.schema [.leaf "n"] = .ok ⟨[.plain "n" .null true], []⟩ ∧
      ∃ exported remaining after,
        wideTable.toDeviceArray .device wide.machine = (.ok exported, remaining, after) ∧
        exported.array.length = -2 ^ 63 ∧ exported.array.length ≠ wideTable.rows := by
  have run : CarefulRun wide [] [] :=
    (CarefulRun.initial.step (.nulls "n" (2 ^ 63)) (by decide)).step (.table "t" ["n"]) (by decide)
  have built : wideTable.Built :=
    .made (List.forall_mem_singleton.mpr (.nulls (2 ^ 63)))
      (show Table.ofColumns .host wideTable.columns Machine.initial =
        (.ok wideTable, Machine.initial) from rfl)
  have length : ArrayNode.word (2 ^ 63) = -2 ^ 63 := by decide
  refine ⟨run, rfl, built, rfl, _, _, _, rfl, ?_, ?_⟩
  · rw [ArrayNode.length_make]
    exact length
  · have rows : wideTable.rows = 2 ^ 63 := rfl
    rw [ArrayNode.length_make, rows, length]
    decide

end Session

end DeviceColumns
