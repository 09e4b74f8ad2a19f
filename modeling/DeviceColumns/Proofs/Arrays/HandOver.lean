import DeviceColumns.Proofs.Arrays.Failure
import DeviceColumns.Proofs.Arrays.Meaning
import Mathlib.Algebra.Order.Sub.Basic

/-!
What an export does to memory. Buffers change hands as they are. Only the data of narrow decimals and
of booleans are converted, and if there are any, a new block is taken for them and the old one given
back; no other block comes or goes. Custody says that what is given back was there, and that no
buffer that has been handed over is given back with it.
-/

namespace DeviceColumns

set_option autoImplicit false

open DeviceColumns.Action

namespace Column

/-- The size of the block that takes the place of the column's data on export, if one does. -/
def replacement? (column : Column) : Option Nat :=
  if column.rows = 0 then none
  else
    match column.type.logical with
    | .decimal32 | .decimal64 => some (column.rows * 16)
    | .bool8 => some (Bitmask.allocationSize column.rows)
    | _ => none

variable {column : Column} {resource : Resource} {machine middle after : Machine}
  {node : ArrayNode} {converted : Option Buffer}

/-- Data are converted into a new block of the size that is needed, or nothing happens to memory. -/
theorem convertedData_spans (formed : machine.heap.WellFormed)
    (addressable : column.rows * column.type.logical.width?.getD 0 ≤ 2 ^ 56)
    (ran : column.convertedData resource machine = (.ok converted, middle)) :
    (column.replacement? = none ∧ middle = machine ∧
      ∀ buffer ∈ converted, column.rows = 0 ∧ buffer.address = none) ∨
    (∃ size, column.replacement? = some size ∧
      converted = some ⟨some machine.heap.next, size, resource⟩ ∧
      middle.heap.spans = (machine.heap.next, size) :: machine.heap.spans ∧
      machine.heap.next ≤ middle.heap.next) := by
  obtain ⟨⟨logical, scale⟩, rows, data, mask, nullCount, children⟩ := column
  cases logical
  case decimal32 | decimal64 =>
    obtain ⟨wide, made, rfl⟩ := map_eq_ok ran
    have fits := NarrowDecimal.wide_fits (by simp [LogicalType.width?]) addressable
    obtain ⟨empty, nowhere, rfl⟩ | ⟨inhabited, rfl, spans, grown⟩ :=
      NarrowDecimal.widenAt_spans formed fits made
    · exact .inl ⟨if_pos empty, rfl, by simpa [nowhere] using empty⟩
    · exact .inr ⟨_, if_neg inhabited, rfl, spans, grown⟩
  case bool8 =>
    obtain ⟨packed, made, rfl⟩ := map_eq_ok ran
    obtain ⟨empty, nowhere, rfl⟩ | ⟨inhabited, rfl, spans, grown⟩ :=
      Bitmask.ofBooleans_spans formed made
    · exact .inl ⟨if_pos empty, rfl, by simpa [nowhere] using empty⟩
    · exact .inr ⟨_, if_neg inhabited, rfl, spans, grown⟩
  all_goals
    cases ran
    exact .inl ⟨by simp [replacement?], rfl, by simp⟩

/-- The buffers that the column gives back on export. -/
def givenBack (column : Column) : List Buffer :=
  if column.replacement?.isSome then column.data.toList else []

/-- The buffers of the column's node that it did not have before. -/
def takenOn (column : Column) (node : ArrayNode) : List Buffer :=
  if column.replacement?.isSome then (node.part 1).toList else []

/-- The data slot has the column's data, or if they are replaced, a new block past the frontier. -/
structure Fills (column : Column) (resource : Resource) (frontier : Nat) (node : ArrayNode) :
    Prop where
  kept : column.replacement? = none → node.part 1 = slot column.data
  fresh : ∀ size ∈ column.replacement?, ∃ base,
    frontier ≤ base ∧ node.part 1 = some ⟨some base, size, resource⟩

/-- What one conversion does to the blocks: what the node has got anew comes, what the column gives
back goes, and what else is stored is spared. -/
structure Trades (column : Column) (resource : Resource) (before : Heap) (node : ArrayNode)
    (after : Heap) : Prop where
  fills : column.Fills resource before.next node
  spans : (after.spans : Multiset (Nat × Nat)) + spansOf column.givenBack =
    before.spans + spansOf (column.takenOn node)
  spares : Heap.Spares column.givenBack before after
  next : before.next ≤ after.next

theorem Fills.mono {frontier lower : Nat} (fills : column.Fills resource frontier node)
    (below : lower ≤ frontier) : column.Fills resource lower node := by
  refine ⟨fills.kept, fun size replaced => ?_⟩
  obtain ⟨base, beyond, filled⟩ := fills.fresh size replaced
  exact ⟨base, Nat.le_trans below beyond, filled⟩

theorem slot_idle {part : Option Buffer} (nowhere : ∀ buffer ∈ part, buffer.address = none) :
    slot part = none := by
  cases part with
  | none => rfl
  | some buffer => simp [slot, nowhere buffer rfl]

theorem Trades.idle {heap : Heap} (none : column.replacement? = none)
    (kept : node.part 1 = slot column.data) : column.Trades resource heap node heap := by
  refine ⟨⟨fun _ => kept, by simp [none]⟩, ?_, .of_eq rfl, Nat.le_refl _⟩
  simp [givenBack, takenOn, none]

variable {scope : Scope} {count : Nat} {held : Holdings}

theorem Flat.data_nowhere (flat : column.Flat)
    (custody : Custody scope count (held + .ofBuffers column.buffers) machine)
    (careful : scope.careful) (nothing : column.rows * column.type.logical.width?.getD 0 = 0) :
    ∀ buffer ∈ column.data, buffer.address = none := by
  intro buffer present
  have member : buffer ∈ (held + Holdings.ofBuffers column.buffers).1 :=
    Multiset.mem_add.mpr (.inr (column.data_inside buffer present))
  have length := flat.data
  rw [Option.mem_def.mp present, nothing] at length
  exact ((custody.owned careful).filled buffer member).mpr length

/-- The new block is there before the old one is given back, so nothing else is touched by either. -/
theorem trades_replaced (sound : resource.Sound count)
    (custody : Custody scope count (held + .ofBuffers column.buffers) machine)
    (careful : scope.careful) (flat : column.Flat) {size : Nat} {fresh : Buffer}
    (taken : fresh = ⟨some machine.heap.next, size, resource⟩)
    (ran : column.convertedData resource machine = (.ok (some fresh), middle))
    (replaced : column.replacement? = some size)
    (spans : middle.heap.spans = (machine.heap.next, size) :: machine.heap.spans)
    (grown : machine.heap.next ≤ middle.heap.next) (part : node.part 1 = some fresh) :
    column.Trades resource machine.heap node
      (Buffer.freeAll column.data.toList middle).heap := by
  have given : column.givenBack = column.data.toList := by simp [givenBack, replaced]
  have own : column.buffers = column.data.toList ++ column.mask.toList := by
    rw [buffers_eq, flat.bare, buffersOfAll, List.append_nil]
  have moved : Custody scope count (held + .ofBuffers column.buffers + .ofBuffers [fresh]) middle :=
    (convertedData_custody Custody.custodial sound _ column).ok custody ran
  have behind : Custody scope count (held + .ofBuffers column.mask.toList +
      .ofBuffers [fresh] + .ofBuffers column.data.toList) middle := by
    apply moved.of_eq
    rw [own, Holdings.ofBuffers_append]
    abel
  obtain ⟨stored, dataHolds, length⟩ := custody.holds careful column.data_inside
  have spares := (convertedData_holds custody.heap dataHolds (length.trans flat.data) ran).1
  refine ⟨⟨by simp [replaced], ?_⟩, ?_, ?_, ?_⟩
  · rw [replaced]
    rintro _ ⟨⟩
    exact ⟨_, Nat.le_refl _, part.trans (congrArg some taken)⟩
  · have added : spansOf (column.takenOn node) = {(machine.heap.next, size)} := by
      rw [takenOn, replaced, part, taken]
      rfl
    rw [given, behind.freeAll_spans careful, spans, added, add_comm, Multiset.singleton_add,
      Multiset.cons_coe]
  · rw [given]
    exact spares.trans (Buffer.freeAll_spares _ _)
  · rw [Buffer.freeAll_next]
    exact grown

theorem toArray_trades (sound : resource.Sound count)
    (custody : Custody scope count (held + .ofBuffers column.buffers) machine)
    (careful : scope.careful) (flat : column.Flat)
    (made : column.toArray resource machine = (.ok node, after)) :
    column.Trades resource machine.heap node after.heap := by
  have nowhere := flat.data_nowhere custody careful
  obtain ⟨untyped, rfl, rfl⟩ | ⟨typed, converted, middle, ran, rfl, rfl⟩ := toArray_ok made
  · have idle := nowhere (by rw [untyped]; rfl)
    have own : ∀ buffer ∈ column.buffers, buffer.address = none := by
      rw [buffers_eq, flat.bare, (flat.untyped untyped).1]
      simpa [buffersOfAll] using idle
    rw [Column.free, Buffer.freeAll_idle own]
    refine .idle (by simp [replacement?, untyped]) ?_
    rw [slot_idle idle]
    rfl
  · rw [flat.bare, buffersOfAll, List.append_nil]
    obtain ⟨stored, holds, length⟩ := custody.holds careful column.data_inside
    have addressable := holds.addressable custody.heap
    rw [length.trans flat.data] at addressable
    obtain ⟨unchanged, rfl, absent⟩ | ⟨size, replaced, rfl, spans, grown⟩ :=
      convertedData_spans custody.heap addressable ran
    · -- Without rows there is nothing to convert and nothing to give back.
      cases converted with
      | none => exact .idle unchanged rfl
      | some empty =>
          obtain ⟨rows, place⟩ := absent empty rfl
          have idle := nowhere (by rw [rows, Nat.zero_mul])
          have still : ∀ buffer ∈ some empty, buffer.address = none := by simpa using place
          rw [Option.isSome_some, if_pos rfl, Buffer.freeAll_idle (by simpa using idle)]
          refine .idle unchanged ?_
          rw [slot_idle idle]
          exact slot_idle still
    · rw [Option.isSome_some, if_pos rfl]
      exact trades_replaced sound custody careful flat rfl ran replaced spans grown rfl

def takenOnAll (columns : List Column) (nodes : List ArrayNode) : List Buffer :=
  (List.zipWith takenOn columns nodes).flatten

/-- The trades of all columns, one after the other, add up. -/
theorem Converts.trades {columns : List Column} {nodes : List ArrayNode} {final : Machine}
    (converts : Converts resource columns machine nodes final) (sound : resource.Sound count)
    (custody : Custody scope count (held + .ofBuffers (buffersOfAll columns)) machine)
    (careful : scope.careful) (flat : ∀ column ∈ columns, column.Flat) :
    (∀ (index : Nat) column node, columns[index]? = some column → nodes[index]? = some node →
      column.Fills resource machine.heap.next node) ∧
      (final.heap.spans : Multiset (Nat × Nat)) + spansOf (columns.flatMap givenBack) =
        machine.heap.spans + spansOf (takenOnAll columns nodes) ∧
      Heap.Spares (columns.flatMap givenBack) machine.heap final.heap := by
  induction converts generalizing held with
  | nil => exact ⟨by simp, by simp [takenOnAll], .of_eq rfl⟩
  | @cons column rest node nodes machine middle final first others induction =>
      obtain ⟨flatFirst, flatRest⟩ := List.forall_mem_cons.mp flat
      have own : Custody scope count
          (held + .ofBuffers (buffersOfAll rest) + .ofBuffers column.buffers) machine := by
        apply custody.of_eq
        rw [buffersOfAll, Holdings.ofBuffers_append]
        abel
      have trades := toArray_trades sound own careful flatFirst first
      have made := ((toArray_custody Custody.custodial sound _ column).ok own first).of_eq
        (add_right_comm _ _ _)
      obtain ⟨each, spans, spares⟩ := induction made flatRest
      refine ⟨fun index other there found converted => ?_, ?_, ?_⟩
      · cases index with
        | zero =>
            cases found
            cases converted
            exact trades.fills
        | succ index => exact (each index other there found converted).mono trades.next
      · rw [List.flatMap_cons, takenOnAll, List.zipWith_cons_cons, List.flatten_cons,
          spansOf_append, spansOf_append, ← add_assoc, ← add_assoc, ← trades.spans,
          add_right_comm, spans, add_right_comm]
        rfl
      · exact trades.spares.trans spares

/-- The bases of what is given back are those of blocks that the columns own. -/
theorem givenBack_sublist (columns : List Column) :
    (columns.flatMap givenBack).Sublist (buffersOfAll columns) := by
  induction columns with
  | nil => exact List.Sublist.refl []
  | cons column rest induction =>
      rw [List.flatMap_cons, buffersOfAll]
      refine List.Sublist.append ?_ induction
      rw [givenBack, buffers_eq, List.append_assoc]
      split_ifs
      · exact List.sublist_append_left _ _
      · exact List.nil_sublist _

end Column

/-- A buffer is in a slot as it was, unless it has no bytes and so leaves the slot empty, and its
bytes are the same. -/
def HandedOver (part : Option Buffer) (before : Heap) (taken : Option Buffer) (after : Heap) : Prop :=
  taken = Column.slot part ∧ ∃ bytes, before.Holds part bytes ∧ after.Holds taken bytes

/-- The node has the column's mask and, unless they were converted, its data. Data that were
converted had a live block, and their slot has a new one of the size that is needed. -/
structure Column.HandsOver (column : Column) (resource : Resource) (before : Heap)
    (node : ArrayNode) (after : Heap) : Prop where
  mask : HandedOver column.mask before (node.part 0) after
  data : column.replacement? = none → HandedOver column.data before (node.part 1) after
  replaced : ∀ size ∈ column.replacement?, ∃ old address base, column.data = some old ∧
    old.address = some address ∧ (address, old.length) ∈ before.spans ∧
    node.part 1 = some ⟨some base, size, resource⟩ ∧ ∀ span ∈ before.spans, span.1 ≠ base

/-- All columns are handed over. The live blocks change by those that converted data had before and
have now; whatever else was live is live with the same bytes. The table is left with emptied
columns, which have nothing to give back. -/
structure Table.HandsOver (table : Table) (resource : Resource) (before : Heap) (array : ArrayNode)
    (remaining : Table) (after : Heap) : Prop where
  slots : array.slots = [none]
  children : array.children.length = table.columns.length
  each : ∀ (index : Nat) column child, table.columns[index]? = some column →
    array.children[index]? = some child → column.HandsOver resource before child after
  given : spansOf (table.columns.flatMap Column.givenBack) ≤
    (before.spans : Multiset (Nat × Nat))
  blocks : (after.spans : Multiset (Nat × Nat)) =
    before.spans - spansOf (table.columns.flatMap Column.givenBack) +
      spansOf (Column.takenOnAll table.columns array.children)
  others : ∀ base bytes, before.stored? base = some bytes →
    base ∉ Buffer.bases (table.columns.flatMap Column.givenBack) → after.stored? base = some bytes
  emptied : remaining = ⟨table.device, table.columns.map Column.emptied⟩
  dropped : ∀ machine, (Object.table remaining).drop machine = machine

namespace Column

variable {column : Column} {resource : Resource} {before after : Heap} {node : ArrayNode}
  {machine : Machine} {scope : Scope} {count : Nat} {held : Holdings} {buffers : List Buffer}
  {bytes : Bytes}

/-- What is not replaced is not converted either. -/
theorem converted_of_kept (kept : column.replacement? = none)
    (sized : bytes.length = column.rows * column.type.logical.width?.getD 0) :
    column.type.converted column.rows bytes = bytes := by
  by_cases empty : column.rows = 0
  · rw [empty, Nat.zero_mul] at sized
    rw [List.eq_nil_of_length_eq_zero sized, empty, ColumnType.converted]
    cases column.type.logical <;> rfl
  · rw [replacement?, if_neg empty] at kept
    rw [ColumnType.converted]
    cases logical : column.type.logical <;> first | rfl | simp [logical] at kept

/-- Replaced data are of some width, so with rows they have bytes. -/
theorem width_of_replaced {size : Nat} (replaced : column.replacement? = some size) :
    column.rows * column.type.logical.width?.getD 0 ≠ 0 := by
  rw [replacement?] at replaced
  split_ifs at replaced with empty
  refine Nat.mul_ne_zero empty ?_
  cases logical : column.type.logical <;> simp [logical] at replaced <;> decide

theorem Carried.handsOver (carried : column.Carried machine.heap node after) (flat : column.Flat)
    (shaped : column.Shaped node) (fills : column.Fills resource machine.heap.next node)
    (custody : Custody scope count (held + .ofBuffers buffers) machine) (careful : scope.careful)
    (within : ∀ buffer ∈ column.buffers, buffer ∈ buffers) :
    column.HandsOver resource machine.heap node after := by
  obtain ⟨maskBytes, maskHolds, -⟩ := custody.holds careful fun buffer here =>
    within buffer (column.mask_inside buffer here)
  obtain ⟨bytes, holds, length⟩ := custody.holds careful fun buffer here =>
    within buffer (column.data_inside buffer here)
  have sized := length.trans flat.data
  refine ⟨⟨shaped.masked, maskBytes, maskHolds, carried.mask maskBytes maskHolds⟩,
    fun kept => ⟨fills.kept kept, bytes, holds, ?_⟩, fun size replaced => ?_⟩
  · have moved := carried.data bytes holds sized
    rwa [converted_of_kept kept sized] at moved
  · obtain ⟨base, beyond, filled⟩ := fills.fresh size replaced
    have filledData := width_of_replaced replaced
    cases present : column.data with
    | none =>
        have empty := flat.data
        rw [present] at empty
        exact absurd empty.symm filledData
    | some old =>
        have owned := custody.owned careful
        have member : old ∈ (held + Holdings.ofBuffers buffers).1 :=
          Multiset.mem_add.mpr (.inr (within old (column.data_inside old present)))
        have counted := flat.data
        rw [present] at counted
        cases place : old.address with
        | none =>
            exact absurd (counted.symm.trans ((owned.filled old member).mp place)) filledData
        | some address =>
            have live := (owned.span_mem (mem_spansOf member place)).1
            refine ⟨old, address, base, rfl, place, live, filled, fun span member same => ?_⟩
            have below := custody.heap.below span member
            simp only [Heap.extent] at below
            omega

end Column

theorem Table.Built.handsOver {table remaining : Table} {exported : DeviceArray}
    {resource : Resource} {machine after : Machine} {scope : Scope} {count : Nat} {held : Holdings}
    (built : table.Built) (sound : resource.Sound count)
    (custody : Custody scope count (held + .ofBuffers (Column.buffersOfAll table.columns)) machine)
    (careful : scope.careful)
    (ran : table.toDeviceArray resource machine = (.ok exported, remaining, after)) :
    table.HandsOver resource machine.heap exported.array remaining after.heap := by
  have exports := toDeviceArray_export table resource machine
  rw [ran] at exports
  cases exports with
  | @completed nodes _ converted =>
  have numbered := custody.createEvent
  obtain ⟨⟨counted, carried⟩, -⟩ := converted.carried sound numbered careful built.flat
  obtain ⟨fills, spans, spares⟩ := converted.trades sound numbered careful built.flat
  have given := custody.spansOf_le careful (Column.givenBack_sublist table.columns)
  refine ⟨rfl, counted, fun index column child found childFound => ?_, given, ?_, ?_, rfl, ?_⟩
  · have member := List.mem_of_getElem? found
    obtain ⟨shaped, carried⟩ := carried index column child found childFound
    exact carried.handsOver (built.flat column member) shaped
      (fills index column child found childFound) numbered careful fun buffer inside =>
        Column.buffers_subset member inside
  · rw [tsub_add_eq_add_tsub given]
    exact eq_tsub_of_add_eq spans
  · intro base bytes stored apart
    refine spares base bytes stored fun buffer member place => apart ?_
    exact Buffer.mem_bases.mpr ⟨buffer, member, place⟩
  · intro machine
    rw [Object.drop, Object.buffers, Column.buffersOfAll_emptied]
    rfl

namespace Session

/-- In any careful run, whatever else has happened in it: the export of a table of values, booleans
and nulls hands its buffers over as they are, replaces the data that it has to convert, and changes
no other block. -/
theorem CarefulRun.export_hands_over {session : Session} {raw : List Nat} {touched : List LedgerId}
    (run : CarefulRun session raw touched) {subject via : String} {table remaining : Table}
    (found : session.find? subject = some (.table table)) (built : table.Built)
    {object : Object} {resource : Resource} (given : session.find? via = some object)
    (provides : object.resource? = some resource) {exported : DeviceArray} {after : Machine}
    (ran : table.toDeviceArray resource session.machine = (.ok exported, remaining, after)) :
    table.HandsOver resource session.machine.heap exported.array remaining after.heap := by
  obtain ⟨count, sound⟩ := run.sound
  have custody : Custody ⟨raw, touched, True⟩ count
      ((session.forget subject).holdings + .ofBuffers (Column.buffersOfAll table.columns))
      session.machine := by
    apply sound.custody.of_eq
    rw [zero_add, holdingsWithout, holdings_of_find? sound.distinct found, add_comm]
    rfl
  exact built.handsOver (sound.object_sound given resource provides) custody trivial ran

/-- A masked decimal column, booleans and nulls: two data buffers are replaced, the mask stays. -/
theorem CarefulRun.export_hands_over_mixed :
    ∃ exported remaining after,
      sampleTable.toDeviceArray ⟨[trackedLedger]⟩ sample.machine =
        (.ok exported, remaining, after) ∧
      sampleTable.HandsOver ⟨[trackedLedger]⟩ sample.machine.heap exported.array remaining
        after.heap := by
  have decimals := CarefulRun.initial.step (.values "a" ⟨.decimal32, -2⟩ .i32 [1999, -5]
    (some [true, false]) "mr") (by decide)
  have booleans := decimals.step (.booleans "b" [true, false] none "mr") (by decide)
  have nulls := booleans.step (.nulls "n" 2) (by decide)
  have run : CarefulRun sample _ _ := nulls.step (.table "t" ["a", "b", "n"]) (by decide)
  have exports : (sampleTable.toDeviceArray ⟨[trackedLedger]⟩ sample.machine).1.isOk = true := by
    decide +kernel
  rcases ran : sampleTable.toDeviceArray ⟨[trackedLedger]⟩ sample.machine with
    ⟨fault | exported, remaining, after⟩
  · rw [ran] at exports
    contradiction
  · have found : sample.find? "t" = some (.table sampleTable) := rfl
    have given : sample.find? "mr" = some (.resource ⟨[trackedLedger]⟩) := rfl
    exact ⟨exported, remaining, after, rfl,
      run.export_hands_over found sample_built given rfl ran⟩

end Session

end DeviceColumns
