import DeviceColumns.Proofs.Sharing.Layout
import DeviceColumns.Proofs.Transport.RoundTrip

/-!
Shared tables come back. Schema, handle trees and opening descend the same column together; a list
is the one place where they part, as its offsets have a handle tree but no field.
-/

namespace DeviceColumns

set_option autoImplicit false

open DeviceColumns.Action SharedTable

namespace SharedTable

variable {later : Heap}

theorem checkSpan_enough {role : BufferRole} {name : String} {descriptor : Option Descriptor}
    {needed : Option Nat} (enough : ∀ found bytes, descriptor = some found → needed = some bytes →
      bytes ≤ found.size.toNat) : checkSpan role name descriptor needed = .ok () := by
  cases descriptor with
  | none => rfl
  | some found =>
      cases needed with
      | none => rfl
      | some bytes => exact if_pos (enough found bytes rfl rfl)

theorem openColumn_succeeds (name : String) {arrow : ArrowType} {type : ColumnType}
    {rows : UInt64} (nullCount : UInt64) {data validity : Option Descriptor} {trees : List HandleTree}
    {dataOpened maskOpened : Option Mapping × Option Nat} {parts : List View × List SharedColumn}
    (typed : columnType arrow = .ok type)
    (dataSpan : checkSpan .data name data (type.logical.width?.map (rows.toNat * ·)) = .ok ())
    (maskSpan : checkSpan .validity name validity (some (Bitmask.pieces rows.toNat 8)) = .ok ())
    (dataOpens : Succeeds later (openBuffer? data) dataOpened)
    (maskOpens : Succeeds later (openBuffer? validity) maskOpened)
    (matching : (childTypes arrow).length = trees.length)
    (partsOpen : Succeeds later (openColumns (childTypes arrow) trees) parts) :
    Succeeds later (openColumn name arrow ⟨rows, nullCount, data, validity, trees⟩)
      (⟨type, rows.toNat, dataOpened.2, maskOpened.2, nullCount.toNat, parts.1⟩,
        ⟨name, dataOpened.1, maskOpened.1, parts.2⟩) := by
  unfold openColumn
  rw [if_pos matching]
  apply (Succeeds.ofExcept typed).bind
  apply (Succeeds.ofExcept dataSpan).bind
  apply (Succeeds.ofExcept maskSpan).bind
  apply dataOpens.bind
  apply (maskOpens.undoOnFailure _).bind
  apply (partsOpen.undoOnFailure _).bind
  exact .pure _

end SharedTable

namespace View

variable {heap later : Heap} {view : View}

/-- The view can be shared, and what is shared of it opens, under a field of the given name and
type, as the recorded view. -/
def Opens (heap later : Heap) (view : View) (names : NameTree) (arrow : ArrowType) : Prop :=
  ∃ tree, (∀ strict, view.handles heap strict = .ok tree) ∧
    Succeeds later (openColumn names.name arrow tree) (view.recorded, view.owner heap names)

/-- Several views can be shared and opened together. -/
def OpenTogether (heap later : Heap) (views : List View) (names : List NameTree)
    (types : List (String × ArrowType)) : Prop :=
  types.length = views.length ∧ ∃ trees, trees.length = views.length ∧
    (∀ strict, handlesOfAll heap strict views = .ok trees) ∧
    Succeeds later (openColumns types trees) (recordedAll views, ownersOf heap views names)

/-- A descriptor has a word for the size of its buffer, so it does not matter whether the size was
reckoned in a word before. -/
theorem describe?_dataBytes (heap : Heap) (strict : Bool) (view : View) (address : Option Nat) :
    describe? heap strict address (view.dataBytes?.getD 0) =
      describe? heap strict address (view.rows * view.type.logical.width?.getD 0) := by
  have same : UInt64.ofNat (view.dataBytes?.getD 0) =
      UInt64.ofNat (view.rows * view.type.logical.width?.getD 0) := by
    apply UInt64.toNat_inj.mp
    cases wide : view.type.logical.width? with
    | none => simp [dataBytes?, wide]
    | some width => simp [dataBytes?, wide, Bytes.lengthOf]
  cases address with
  | none => rfl
  | some found => simp only [describe?, describe, same]

theorem handles_ok {strict : Bool} {data mask : Option Descriptor} {trees : List HandleTree}
    (described : describe? heap strict view.data
      (view.rows * view.type.logical.width?.getD 0) = .ok data)
    (validity : describe? heap strict view.mask view.maskBytes = .ok mask)
    (below : handlesOfAll heap strict view.children = .ok trees) :
    view.handles heap strict =
      .ok ⟨UInt64.ofNat view.rows, UInt64.ofNat view.nullCount, data, mask, trees⟩ := by
  rw [← describe?_dataBytes] at described
  cases view
  unfold handles
  simp only [dataBytes?, maskBytes] at described validity below
  simp only [described, validity, below, bind, Except.bind, pure, Except.pure]

/-- A column can be shared and opened if its parts can. -/
theorem Placed.opens (placed : view.Placed heap) (formed : heap.WellFormed)
    (formedLater : later.WellFormed) (kept : view.Kept heap later) {names : NameTree}
    {arrow : ArrowType} (typed : columnType arrow = .ok view.type.recorded)
    (parts : OpenTogether heap later view.children (partNames view.type names)
      (childTypes arrow)) : view.Opens heap later names arrow := by
  obtain ⟨matching, trees, counted, handled, partsOpen⟩ := parts
  obtain ⟨data, dataDescribed, dataSized, dataOpens⟩ :=
    describe?_opens formed formedLater placed.data kept.1
  obtain ⟨mask, maskDescribed, maskSized, maskOpens⟩ :=
    describe?_opens formed formedLater placed.mask kept.2
  have rows : (UInt64.ofNat view.rows).toNat = view.rows := UInt64.toNat_ofNat_of_lt placed.rows
  have nulls : (UInt64.ofNat view.nullCount).toNat = view.nullCount :=
    UInt64.toNat_ofNat_of_lt placed.nulls
  refine ⟨⟨UInt64.ofNat view.rows, UInt64.ofNat view.nullCount, data, mask, trees⟩, ?_, ?_⟩
  · intro strict
    exact handles_ok (dataDescribed strict) (maskDescribed strict) (handled strict)
  · rw [recorded_eq, owner_eq]
    have dataSpan : ∀ found bytes, data = some found →
        view.type.recorded.logical.width?.map ((UInt64.ofNat view.rows).toNat * ·) = some bytes →
        bytes ≤ found.size.toNat := by
      intro found bytes here needed
      obtain ⟨width, wide, rfl⟩ := Option.map_eq_some_iff.mp needed
      have same : view.type.logical.width? = some width := wide
      rw [dataSized found here, same, rows]
      exact Nat.le_refl _
    have maskSpan : ∀ found bytes, mask = some found →
        some (Bitmask.pieces (UInt64.ofNat view.rows).toNat 8) = some bytes →
        bytes ≤ found.size.toNat := by
      rintro found bytes here ⟨⟩
      rw [maskSized found here, rows]
      exact Bitmask.pieces_le_allocationSize view.rows
    have opens := openColumn_succeeds names.name (UInt64.ofNat view.nullCount) typed
      (checkSpan_enough dataSpan) (checkSpan_enough maskSpan) dataOpens maskOpens
      (matching.trans counted.symm) partsOpen
    rwa [rows, nulls] at opens

namespace OpenTogether

variable {names : NameTree} {arrow : ArrowType} {views : List View} {more : List NameTree}
  {types : List (String × ArrowType)}

theorem nil (names : List NameTree) : OpenTogether heap later [] names [] :=
  ⟨rfl, [], rfl, fun _ => rfl, .pure _⟩

theorem cons (first : view.Opens heap later names arrow)
    (rest : OpenTogether heap later views more types) :
    OpenTogether heap later (view :: views) (names :: more) ((names.name, arrow) :: types) := by
  obtain ⟨tree, handled, opens⟩ := first
  obtain ⟨matching, trees, counted, othersHandled, othersOpen⟩ := rest
  refine ⟨congrArg (· + 1) matching, tree :: trees, congrArg (· + 1) counted, fun strict => ?_, ?_⟩
  · rw [handlesOfAll, handled strict, othersHandled strict]
    rfl
  · unfold openColumns
    apply opens.bind
    apply (othersOpen.undoOnFailure _).bind
    exact .pure _

theorem ofFields {fields : List Field}
    (each : ∀ view ∈ views, ∀ names field, view.field names = .ok field →
      field.name = names.name ∧ view.Opens heap later names field.type)
    (matching : more.length = views.length) (named : fieldsOf views more = .ok fields) :
    OpenTogether heap later views more (fields.map fun field => (field.name, field.type)) := by
  induction views generalizing more fields with
  | nil =>
      rw [fieldsOf] at named
      · cases named
        exact nil more
      · simp
  | cons view views induction =>
      cases more with
      | nil => cases matching
      | cons names more =>
          obtain ⟨field, rest, here, others, rfl⟩ := fieldsOf_cons named
          obtain ⟨same, opens⟩ := each view List.mem_cons_self names field here
          have together := induction
            (fun other member => each other (List.mem_cons_of_mem view member))
            (Nat.succ.inj matching) others
          rw [List.map_cons, same]
          exact cons opens together

end OpenTogether

/-- Columns of such shapes can be shared, and opened while their blocks live on. -/
theorem Rebuildable.opens (rebuildable : view.Rebuildable) (formed : heap.WellFormed)
    (formedLater : later.WellFormed) (placed : ∀ node ∈ view.nodes, node.Placed heap)
    (kept : ∀ node ∈ view.nodes, node.Kept heap later) :
    ∀ names field, view.field names = .ok field →
      field.name = names.name ∧ view.Opens heap later names field.type := by
  induction rebuildable with
  | @leaf view wide bare =>
      intro names field named
      obtain ⟨arrow, mapped, rfl⟩ := field_leaf wide named
      obtain ⟨typed, flat⟩ := ColumnType.columnType_toArrow wide mapped
      have parts : OpenTogether heap later view.children (partNames view.type names)
          (childTypes arrow) := by
        rw [bare, flat]
        exact OpenTogether.nil _
      exact ⟨rfl,
        (forall_nodes placed).1.opens formed formedLater (forall_nodes kept).1 typed parts⟩
  | @list view offsets element kind parts indices _ _ first second =>
      intro names field named
      obtain ⟨item, itemNamed, rfl⟩ := field_list kind parts named
      obtain ⟨own, below⟩ := forall_nodes kept
      obtain ⟨ownPlaced, belowPlaced⟩ := forall_nodes placed
      rw [parts] at below belowPlaced
      have typed : columnType (.list item) = .ok view.type.recorded := by
        rw [ColumnType.recorded, kind]
        rfl
      -- The offsets have no field in the schema; as a column of their own they would have this one.
      have offsetsNamed : offsets.field (.leaf "offsets") =
          .ok (.plain "offsets" .int32 offsets.mask.isSome) := by
        rw [field_wide (by rw [indices]; rfl), ColumnType.toArrow, indices]
        rfl
      have offsetsOpen :=
        (first (belowPlaced offsets (by simp)) (below offsets (by simp)) _ _ offsetsNamed).2
      obtain ⟨same, elementOpens⟩ :=
        second (belowPlaced element (by simp)) (below element (by simp)) _ _ itemNamed
      have parts : OpenTogether heap later view.children (partNames view.type names)
          (childTypes (.list item)) := by
        rw [parts, partNames, kind, childTypes, same]
        exact .cons offsetsOpen (.cons elementOpens (.nil []))
      exact ⟨rfl, ownPlaced.opens formed formedLater own typed parts⟩
  | @struct view kind inhabited _ induction =>
      intro names field named
      obtain ⟨matching, fields, fieldsNamed, rfl⟩ := field_struct kind inhabited named
      obtain ⟨own, below⟩ := forall_nodes kept
      obtain ⟨ownPlaced, belowPlaced⟩ := forall_nodes placed
      have typed : columnType (.struct fields) = .ok view.type.recorded := by
        rw [ColumnType.recorded, kind]
        rfl
      have parts : OpenTogether heap later view.children (partNames view.type names)
          (childTypes (.struct fields)) := by
        rw [partNames, kind, childTypes]
        exact .ofFields (fun child member =>
          induction child member (belowPlaced child member) (below child member)) matching fieldsNamed
      exact ⟨rfl, ownPlaced.opens formed formedLater own typed parts⟩

end View

variable {heap later : Heap}

theorem SharedTable.ofMessage_succeeds {message : Message} {device : Device}
    {views : List View} {owners : List SharedColumn}
    (coded : message.deviceCode = Int32.ofInt device.kind.code)
    (matching : message.schema.fields.length = message.columns.length)
    (opens : Succeeds later (openColumns
      (message.schema.fields.map fun field => (field.name, field.type)) message.columns)
      (views, owners)) :
    Succeeds later (ofMessage message) ⟨⟨device, views⟩, owners⟩ := by
  have code : message.deviceCode.toInt = device.kind.code := by
    rw [coded]
    cases device
    rfl
  have served : Device.ofDescriptor? device.kind message.deviceId.toInt = some device := by
    cases device
    rfl
  unfold ofMessage
  simp only [code, DeviceKind.ofCode?_code]
  apply Triple.pass
  simp only [served]
  apply Triple.pass
  rw [if_neg (not_not_intro matching)]
  apply opens.bind
  exact .pure _

namespace TableView

variable {table : TableView} {names : List NameTree} {schema : Schema}

theorem toMessage_rebuilds (formed : heap.WellFormed) (formedLater : later.WellFormed)
    (rebuildable : ∀ column ∈ table.columns, column.Rebuildable)
    (placed : ∀ node ∈ View.nodesOfAll table.columns, node.Placed heap)
    (kept : ∀ node ∈ View.nodesOfAll table.columns, node.Kept heap later)
    (named : table.schema names = .ok schema) :
    ∃ message, message.version = Message.currentVersion ∧
      (∀ strict, table.toMessage names strict heap = .ok message) ∧
      Succeeds later (SharedTable.ofMessage message)
        ⟨⟨table.device, View.recordedAll table.columns⟩,
          View.ownersOf heap table.columns names⟩ := by
  obtain ⟨matching, fields, fieldsNamed, rfl⟩ := schema_ok named
  obtain ⟨fieldsCounted, trees, treesCounted, handled, opens⟩ := View.OpenTogether.ofFields
    (fun column member => (rebuildable column member).opens formed formedLater
      (fun node below => placed node (View.mem_nodesOfAll.mpr ⟨column, member, below⟩))
      fun node below => kept node (View.mem_nodesOfAll.mpr ⟨column, member, below⟩))
    matching fieldsNamed
  have shareable := View.checkShareableAll_ok fun column member =>
    (rebuildable column member).checkShareable
  rw [List.length_map] at fieldsCounted
  refine ⟨⟨Message.currentVersion, Int32.ofInt table.device.kind.code,
    Int64.ofInt table.device.id, ⟨fields, []⟩, trees⟩, rfl, fun strict => ?_, ?_⟩
  · simp only [toMessage, shareable, named, handled strict, bind, Except.bind, pure, Except.pure]
  · exact SharedTable.ofMessage_succeeds rfl (fieldsCounted.trans treesCounted.symm) opens

theorem toMessage_opens (formed : heap.WellFormed) (formedLater : later.WellFormed)
    (conforms : ∀ column ∈ table.columns, column.Conforms heap)
    (kept : ∀ node ∈ View.nodesOfAll table.columns, node.Kept heap later)
    (named : table.schema names = .ok schema) :
    ∃ message, message.version = Message.currentVersion ∧
      (∀ strict, table.toMessage names strict heap = .ok message) ∧
      Succeeds later (SharedTable.ofMessage message)
        ⟨⟨table.device, View.recordedAll table.columns⟩,
          View.ownersOf heap table.columns names⟩ := by
  refine toMessage_rebuilds formed formedLater
    (fun column member => (conforms column member).rebuildable) (fun node member => ?_) kept named
  obtain ⟨column, among, below⟩ := View.mem_nodesOfAll.mp member
  exact (conforms column among).placed node below

/-- A table whose columns have the layout and whose names fit can be shared, in either mode. While
the blocks live on, its bytes open as the same table, up to the scale of types that have none, with
one owner for each column at all depths, which bears its name. -/
theorem share_opens {session after : Session} (reached : session.Reached)
    (reachedAfter : after.Reached)
    (conforms : ∀ column ∈ table.columns, column.Conforms session.machine.heap)
    (kept : ∀ node ∈ View.nodesOfAll table.columns,
      node.Kept session.machine.heap after.machine.heap)
    (named : table.schema names = .ok schema) :
    ∃ bytes, (∀ strict, table.share names strict session.machine.heap = .ok bytes) ∧
      (Bytes.Addressable bytes → ∃ final, SharedTable.ofBytes bytes after.machine =
        (.ok ⟨⟨table.device, View.recordedAll table.columns⟩,
          View.ownersOf session.machine.heap table.columns names⟩, final)) := by
  obtain ⟨message, current, made, opens⟩ :=
    toMessage_opens reached.wellFormed reachedAfter.wellFormed conforms kept named
  refine ⟨message.encode, fun strict => ?_, fun sized => ?_⟩
  · rw [share, made strict]
    rfl
  · have decoded := Message.decode_current current sized
    obtain ⟨opened, final, ran, equal, _⟩ := opens.returns rfl
    subst equal
    refine ⟨final, ?_⟩
    rw [SharedTable.ofBytes, decoded]
    exact ran

def nestedBlocks : List Request := [
  .allocate "element" 8 "plain", .allocate "offsets" 12 "plain", .allocate "mask" 64 "plain",
  .allocate "amounts" 8 "plain", .allocate "spare" 4 "plain"]

def nestedBefore : Session := (Session.runFrom nestedBlocks .initial).2

def nestedAfter : Session :=
  (Session.runFrom [.deallocate (.relative "spare" 0) 4 "plain", .allocate "other" 1 "plain"]
    nestedBefore).2

/-- The elements start behind the base of their block, and their type has a scale. -/
def nestedTable : TableView :=
  ⟨.host, [⟨⟨.struct, 0⟩, 2, none, none, 0, [
    ⟨⟨.list, 0⟩, 2, none, some 0x100000000100, 0, [
      ⟨⟨.int32, 0⟩, 3, some 0x100000000080, none, 0, []⟩,
      ⟨⟨.uint16, 3⟩, 3, some 0x100000000002, none, 0, []⟩]⟩,
    ⟨⟨.decimal32, -2⟩, 2, some 0x100000000180, none, 0, []⟩]⟩]⟩

def nestedNames : List NameTree := [⟨"s", [⟨"l", [.leaf "v"]⟩, .leaf "d"]⟩]

theorem share_opens_nested :
    ∃ bytes, (∀ strict, nestedTable.share nestedNames strict nestedBefore.machine.heap = .ok bytes) ∧
      ∃ final, SharedTable.ofBytes bytes nestedAfter.machine =
        (.ok ⟨⟨.host, View.recordedAll nestedTable.columns⟩,
          View.ownersOf nestedBefore.machine.heap nestedTable.columns nestedNames⟩, final) := by
  have before : nestedBefore.Reached :=
    ((((Session.Reached.initial.step (.allocate "element" 8 "plain")).step
      (.allocate "offsets" 12 "plain")).step (.allocate "mask" 64 "plain")).step
      (.allocate "amounts" 8 "plain")).step (.allocate "spare" 4 "plain")
  have after : nestedAfter.Reached :=
    (before.step (.deallocate (.relative "spare" 0) 4 "plain")).step (.allocate "other" 1 "plain")
  have conforms : ∀ column ∈ nestedTable.columns, column.Conforms nestedBefore.machine.heap := by
    simp only [nestedTable, List.forall_mem_singleton]
    refine .struct (by decide +kernel) rfl rfl (by simp)
      (List.forall_mem_cons.mpr ⟨?_, List.forall_mem_singleton.mpr ?_⟩)
    · exact .list (by decide +kernel) rfl rfl rfl rfl (.leaf (by decide +kernel) rfl rfl)
        (.leaf (by decide +kernel) rfl rfl)
    · exact .leaf (by decide +kernel) rfl rfl
  have kept : ∀ node ∈ View.nodesOfAll nestedTable.columns,
      node.Kept nestedBefore.machine.heap nestedAfter.machine.heap := by decide +kernel
  have named : nestedTable.schema nestedNames = .ok ⟨[.plain "s" (.struct [
      .plain "l" (.list (.plain "v" .uint16 false)) true,
      .plain "d" (.decimal128 9 2) false]) false], []⟩ := rfl
  have short : ((nestedTable.share nestedNames true
      nestedBefore.machine.heap).toOption.getD []).length < 2 ^ 64 := by decide +kernel
  obtain ⟨bytes, shared, opens⟩ := share_opens before after conforms kept named
  rw [shared true] at short
  exact ⟨bytes, shared, opens short⟩

end TableView

end DeviceColumns
