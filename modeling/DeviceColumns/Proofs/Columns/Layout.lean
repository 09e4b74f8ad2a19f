import DeviceColumns.Proofs.Columns.Strings

/-!
The layout of constructed columns. Constructors count rows, nulls and children each in their own way;
what they make has nevertheless the same layout at every node, however they are combined, and keeps
it for as long as the blocks of the column keep what they store.
-/

namespace DeviceColumns

set_option autoImplicit false

namespace Column

mutual

def nodes : Column → List Column
  | ⟨type, rows, data, mask, nullCount, children⟩ =>
      ⟨type, rows, data, mask, nullCount, children⟩ :: nodesOfAll children

def nodesOfAll : List Column → List Column
  | [] => []
  | column :: rest => column.nodes ++ nodesOfAll rest

end

/-- The data and the children that columns of the type have. -/
def HasParts (column : Column) : Prop :=
  match column.type.logical with
  | .empty => column.mask = none ∧ column.nullCount = column.rows
  | .string => column.data.isSome = true ∧ ∃ offsets, column.children = [offsets] ∧
      offsets.type.logical = .int32 ∧ offsets.rows = column.rows + 1
  | .list => column.data = none ∧ ∃ offsets element, column.children = [offsets, element] ∧
      offsets.type.logical = .int32 ∧ offsets.rows = column.rows + 1
  | .struct => column.data = none ∧ ∀ field ∈ column.children, field.rows = column.rows
  | .dictionary32 => column.data = none ∧ ∃ indices keys, column.children = [indices, keys] ∧
      indices.type.logical.isInteger = true ∧ indices.rows = column.rows
  | fixed => column.children = [] ∧ ∃ width data, fixed.width? = some width ∧
      column.data = some data ∧ data.length = width * column.rows

/-- The layout of one node: the parts that its type asks for, and a mask, if there is one, of whole
words that marks exactly the nulls among the rows and nothing behind them. -/
structure LaidOut (column : Column) (heap : Heap) : Prop where
  parts : column.HasParts
  stored : ∃ bytes, heap.Holds column.data bytes
  masked : ∀ mask ∈ column.mask, 0 < column.rows ∧
    mask.length = Bitmask.allocationSize column.rows ∧
    ∃ bytes, heap.Holds column.mask bytes ∧
      (∀ bit ∈ (Bitmask.unpack bytes).drop column.rows, bit = false) ∧
      column.nullCount = ((Bitmask.unpack bytes).take column.rows).count false
  unmasked : column.mask = none → column.type.logical ≠ .empty → column.nullCount = 0

/-- Columns that constructors have made, and that still have what they were made of. Children were
constructed before they became part of another column. -/
inductive Constructed : Column → Heap → Prop where
  | values {type : ColumnType} {host : HostType} {values : List Int}
      {validity : Option (List Bool)} {resource : Resource} {machine after : Machine}
      {column : Column} (formed : machine.heap.WellFormed)
      (made : ofValues type host values validity resource machine = (.ok column, after)) :
      Constructed column after.heap
  | booleans {values : List Bool} {validity : Option (List Bool)} {resource : Resource}
      {machine after : Machine} {column : Column} (formed : machine.heap.WellFormed)
      (made : ofBools values validity resource machine = (.ok column, after)) :
      Constructed column after.heap
  | nulls (rows : Nat) (heap : Heap) : Constructed (ofNulls rows) heap
  | strings {values : List (Option String)} {resource : Resource} {machine after : Machine}
      {column : Column} (formed : machine.heap.WellFormed)
      (made : ofStrings values resource machine = (.ok column, after)) :
      Constructed column after.heap
  | lists {offsets : List Int} {element : Column} {validity : Option (List Bool)}
      {resource : Resource} {machine after : Machine} {column : Column}
      (formed : machine.heap.WellFormed) (constructed : Constructed element machine.heap)
      (made : ofLists offsets element validity resource machine = (.ok column, after)) :
      Constructed column after.heap
  | fields {rows : Nat} {fields : List Column} {validity : Option (List Bool)}
      {resource : Resource} {machine after : Machine} {column : Column}
      (formed : machine.heap.WellFormed)
      (constructed : ∀ field ∈ fields, Constructed field machine.heap)
      (made : ofFields rows fields validity resource machine = (.ok column, after)) :
      Constructed column after.heap
  | dictionary {indices keys : Column} {validity : Option (List Bool)} {resource : Resource}
      {machine after : Machine} {column : Column} (formed : machine.heap.WellFormed)
      (indexed : Constructed indices machine.heap) (keyed : Constructed keys machine.heap)
      (made : ofDictionary indices keys validity resource machine = (.ok column, after)) :
      Constructed column after.heap
  | later {column : Column} {heap after : Heap} (constructed : Constructed column heap)
      (preserves : heap.Preserves column.buffers after) : Constructed column after

variable {column : Column} {heap later : Heap}

theorem nodes_eq (column : Column) : column.nodes = column :: nodesOfAll column.children := by
  cases column
  rfl

theorem mem_nodesOfAll {node : Column} {columns : List Column} :
    node ∈ nodesOfAll columns ↔ ∃ column ∈ columns, node ∈ column.nodes := by
  induction columns with
  | nil => simp [nodesOfAll]
  | cons first rest induction => simp [nodesOfAll, induction]

theorem forall_nodes_iff {Fits : Column → Prop} :
    (∀ node ∈ column.nodes, Fits node) ↔
      Fits column ∧ ∀ child ∈ column.children, ∀ node ∈ child.nodes, Fits node := by
  rw [nodes_eq, List.forall_mem_cons]
  refine and_congr_right fun _ => ⟨fun all child member node below => ?_, fun all node below => ?_⟩
  · exact all node (mem_nodesOfAll.mpr ⟨child, member, below⟩)
  · obtain ⟨child, member, inside⟩ := mem_nodesOfAll.mp below
    exact all child member node inside

/-- The bits of a mask are those of the validity, followed by clear ones. -/
theorem laidOut_of_marks {validity : Option (List Bool)} (parts : column.HasParts)
    (stored : ∃ bytes, heap.Holds column.data bytes)
    (marks : heap.Marks column.mask column.nullCount column.rows validity) :
    column.LaidOut heap := by
  refine ⟨parts, stored, fun mask present => ?_, fun absent _ => ?_⟩
  · rw [present] at marks ⊢
    obtain ⟨valid, -, sized, inhabited, holds, nulls⟩ := marks.marked
    have enough : valid.length ≤ 8 * Bitmask.allocationSize column.rows := by
      rw [sized]
      exact (Bitmask.le_pieces _).trans
        (Nat.mul_le_mul_left 8 (Bitmask.pieces_le_allocationSize _))
    have length := holds.length mask rfl
    rw [Bitmask.length_packInto] at length
    refine ⟨Nat.pos_of_ne_zero inhabited, length, _, holds, ?_, ?_⟩
    · rw [← sized]
      exact fun bit => Bitmask.clear_behind
    · have bits := Bitmask.take_unpack_packInto enough
      rw [sized] at bits
      rw [bits, nulls]
  · rw [absent] at marks
    exact marks.unmasked.1

theorem ofNulls_laidOut (rows : Nat) (heap : Heap) : (ofNulls rows).LaidOut heap where
  parts := ⟨rfl, rfl⟩
  stored := ⟨[], heap.holds_none⟩
  masked := by simp [ofNulls]
  unmasked := fun _ typed => absurd rfl typed

/-- Types with a width are none of those with parts of their own. -/
theorem hasParts_fixed {width : Nat} {data : Buffer}
    (wide : column.type.logical.width? = some width) (bare : column.children = [])
    (present : column.data = some data) (length : data.length = width * column.rows) :
    column.HasParts := by
  unfold HasParts
  split
  case h_6 => exact ⟨bare, width, data, wide, present, length⟩
  all_goals
    rw [‹column.type.logical = _›] at wide
    cases wide

theorem Stores.laidOut {type : ColumnType} {host : HostType} {values : List Int}
    {validity : Option (List Bool)} (stores : column.Stores type host values validity heap) :
    column.LaidOut heap := by
  obtain ⟨data, present⟩ := Option.isSome_iff_exists.mp stores.present
  have length : data.length = host.width * column.rows := by
    rw [stores.data.length data present, host.length_flatMap_encode, stores.rows, Nat.mul_comm]
  exact laidOut_of_marks (hasParts_fixed stores.wide stores.bare present length)
    ⟨_, stores.data⟩ stores.marks

theorem Stores.nodes_laidOut {type : ColumnType} {host : HostType} {values : List Int}
    {validity : Option (List Bool)} (stores : column.Stores type host values validity heap) :
    ∀ node ∈ column.nodes, node.LaidOut heap := by
  rw [forall_nodes_iff, stores.bare]
  exact ⟨stores.laidOut, fun child member => absurd member List.not_mem_nil⟩

theorem Stores.offsets_shape {values : List Int} {validity : Option (List Bool)}
    (stores : column.Stores ⟨.int32, 0⟩ .i32 values validity heap) :
    column.type.logical = .int32 ∧ column.rows = values.length := by
  rw [stores.type]
  exact ⟨rfl, stores.rows⟩

theorem Nests.laidOut {logical : LogicalType} {children : List Column}
    {validity : Option (List Bool)} (nests : column.Nests logical children validity heap)
    (parts : column.HasParts) : column.LaidOut heap := by
  refine laidOut_of_marks parts ⟨[], ?_⟩ nests.marks
  rw [nests.data]
  exact heap.holds_none

theorem StoresStrings.laidOut {values : List (Option String)}
    (stores : column.StoresStrings values heap) : column.LaidOut heap := by
  refine laidOut_of_marks ?_ ⟨_, stores.data⟩ stores.marks
  obtain ⟨offsets, parts, indexed⟩ := stores.offsets
  rw [HasParts, stores.type]
  refine ⟨stores.present, offsets, parts, indexed.offsets_shape.1, ?_⟩
  rw [indexed.offsets_shape.2, List.length_map, length_stringOffsets, stores.rows]

/-- Every node keeps its layout for as long as the blocks of the column keep what they store. The
parts of a nested column were constructed before its own buffers were made, which spared them. -/
theorem Constructed.nodes_keep (constructed : column.Constructed heap)
    (preserves : heap.Preserves column.buffers later) :
    ∀ node ∈ column.nodes, node.LaidOut later := by
  induction constructed generalizing later with
  | values formed made =>
      exact ((ofValues_stores formed made).2.preserved preserves).nodes_laidOut
  | booleans formed made =>
      exact ((ofValues_stores formed made).2.preserved preserves).nodes_laidOut
  | nulls rows heap =>
      rw [forall_nodes_iff]
      exact ⟨ofNulls_laidOut rows later, fun child member => absurd member List.not_mem_nil⟩
  | strings formed made =>
      have stores := (ofStrings_stores formed made).2.preserved preserves
      obtain ⟨offsets, parts, indexed⟩ := stores.offsets
      rw [forall_nodes_iff, parts, List.forall_mem_singleton]
      exact ⟨stores.laidOut, indexed.nodes_laidOut⟩
  | lists formed constructed made induction =>
      obtain ⟨grows, counted, offsets, nests, indexed⟩ := ofLists_nests formed made
      rw [forall_nodes_iff, nests.children, List.forall_mem_cons, List.forall_mem_singleton]
      refine ⟨(nests.preserved preserves).laidOut ?_, ?_, ?_⟩
      · rw [HasParts, nests.type]
        exact ⟨nests.data, _, _, nests.children, indexed.offsets_shape.1,
          indexed.offsets_shape.2.trans counted⟩
      · exact (indexed.preserved (nests.keeps_child preserves (by simp))).nodes_laidOut
      · exact induction ((grows.preserves _).trans (nests.keeps_child preserves (by simp)))
  | fields formed constructed made induction =>
      obtain ⟨grows, nests, even⟩ := ofFields_nests formed made
      rw [forall_nodes_iff]
      refine ⟨(nests.preserved preserves).laidOut ?_, fun field member => ?_⟩
      · rw [HasParts, nests.type]
        exact ⟨nests.data, nests.children ▸ even⟩
      · rw [nests.children] at member
        exact induction field member
          ((grows.preserves _).trans (nests.keeps_child preserves member))
  | dictionary formed indexed keyed made first second =>
      obtain ⟨grows, nests, integer, even⟩ := ofDictionary_nests formed made
      rw [forall_nodes_iff, nests.children, List.forall_mem_cons, List.forall_mem_singleton]
      refine ⟨(nests.preserved preserves).laidOut ?_, ?_, ?_⟩
      · rw [HasParts, nests.type]
        exact ⟨nests.data, _, _, nests.children, integer, even⟩
      · exact first ((grows.preserves _).trans (nests.keeps_child preserves (by simp)))
      · exact second ((grows.preserves _).trans (nests.keeps_child preserves (by simp)))
  | later constructed kept induction => exact induction (kept.trans preserves)

/-- Whatever is requested meanwhile, the layout stays as long as the blocks of the column are live and
not copied into. -/
theorem Constructed.outlasts {first session : Session} {copies : List (Nat × Bytes)}
    (constructed : column.Constructed first.machine.heap)
    (leads : Session.Leads first copies session) (start : first.Reached)
    (live : ∀ base ∈ Buffer.bases column.buffers, session.machine.heap.isLive base = true)
    (spared : ∀ copy ∈ copies, ∀ block ∈ session.machine.heap.blocks,
      block.base ∈ Buffer.bases column.buffers → ¬block.holds copy.1) :
    ∀ node ∈ column.nodes, node.LaidOut session.machine.heap :=
  constructed.nodes_keep (leads.preserves start live spared)

/-- Every node of a constructed column has the layout of its type. -/
theorem Constructed.nodes_laid_out (constructed : column.Constructed heap) :
    ∀ node ∈ column.nodes, node.LaidOut heap :=
  constructed.nodes_keep (.refl column.buffers heap)

/-- Strings in lists, the lists as keys of a dictionary, and the dictionary next to nulls in a
struct. -/
def layeredRequests : List Request := [
  .strings "w" [some "é", none] "mr",
  .lists "l" [0, 1, 2] "w" (some [true, false]) "mr",
  .values "i" ⟨.int32, 0⟩ .i32 [1, 0] none "mr",
  .dictionary "d" "i" "l" none "mr",
  .structs "s" 2 ["d", "n"] (some [false, true]) "mr"]

def layeredAfter (steps : Nat) : Session :=
  (layeredRequests.take steps).foldl (fun session request => (session.perform request).2)
    (Session.initial.perform (.nulls "n" 2)).2

def layeredBuffer (address length : Nat) : Buffer :=
  ⟨some address, length, ⟨[Session.trackedLedger]⟩⟩

def layeredStrings : Column := ⟨⟨.string, 0⟩, 2, some (layeredBuffer 0x100000000100 2),
  some (layeredBuffer 0x100000000080 64), 1,
  [⟨⟨.int32, 0⟩, 3, some (layeredBuffer 0x100000000000 12), none, 0, []⟩]⟩

def layeredLists : Column := ⟨⟨.list, 0⟩, 2, none, some (layeredBuffer 0x100000000200 64), 1,
  [⟨⟨.int32, 0⟩, 3, some (layeredBuffer 0x100000000180 12), none, 0, []⟩, layeredStrings]⟩

def layeredIndices : Column :=
  ⟨⟨.int32, 0⟩, 2, some (layeredBuffer 0x100000000280 8), none, 0, []⟩

def layeredKeys : Column :=
  ⟨⟨.dictionary32, 0⟩, 2, none, none, 0, [layeredIndices, layeredLists]⟩

def layered : Column := ⟨⟨.struct, 0⟩, 2, none, some (layeredBuffer 0x100000000300 64), 1,
  [layeredKeys, .ofNulls 2]⟩

theorem layered_constructed : layered.Constructed (layeredAfter 5).machine.heap := by
  have start : Session.Reached (layeredAfter 0) := Session.Reached.initial.step (.nulls "n" 2)
  have first : Session.Reached (layeredAfter 1) := start.step (.strings "w" [some "é", none] "mr")
  have second : Session.Reached (layeredAfter 2) :=
    first.step (.lists "l" [0, 1, 2] "w" (some [true, false]) "mr")
  have third : Session.Reached (layeredAfter 3) :=
    second.step (.values "i" ⟨.int32, 0⟩ .i32 [1, 0] none "mr")
  have fourth : Session.Reached (layeredAfter 4) := third.step (.dictionary "d" "i" "l" none "mr")
  have strings : ofStrings [some "é", none] ⟨[Session.trackedLedger]⟩ (layeredAfter 0).machine =
      (.ok layeredStrings, (layeredAfter 1).machine) := Prod.ext rfl rfl
  have lists : ofLists [0, 1, 2] layeredStrings (some [true, false]) ⟨[Session.trackedLedger]⟩
      (layeredAfter 1).machine = (.ok layeredLists, (layeredAfter 2).machine) := Prod.ext rfl rfl
  have indices : ofValues ⟨.int32, 0⟩ .i32 [1, 0] none ⟨[Session.trackedLedger]⟩
      (layeredAfter 2).machine = (.ok layeredIndices, (layeredAfter 3).machine) := Prod.ext rfl rfl
  have keys : ofDictionary layeredIndices layeredLists none ⟨[Session.trackedLedger]⟩
      (layeredAfter 3).machine = (.ok layeredKeys, (layeredAfter 4).machine) := Prod.ext rfl rfl
  have fields : ofFields 2 [layeredKeys, .ofNulls 2] (some [false, true])
      ⟨[Session.trackedLedger]⟩ (layeredAfter 4).machine =
        (.ok layered, (layeredAfter 5).machine) := Prod.ext rfl rfl
  have listed := (Constructed.strings start.wellFormed strings).lists first.wellFormed lists
  have kept := (ofValues_stores second.wellFormed indices).1.preserves layeredLists.buffers
  have keyed := (Constructed.values second.wellFormed indices).dictionary third.wellFormed
    (listed.later kept) keys
  refine .fields fourth.wellFormed ?_ fields
  exact List.forall_mem_cons.mpr ⟨keyed, List.forall_mem_singleton.mpr (.nulls 2 _)⟩

theorem Constructed.nodes_laid_out_layered :
    layered.nodes.length = 8 ∧ ∀ node ∈ layered.nodes, node.LaidOut (layeredAfter 5).machine.heap :=
  ⟨rfl, layered_constructed.nodes_laid_out⟩

end Column

end DeviceColumns
