import DeviceColumns.Proofs.Arrays.Meaning
import DeviceColumns.Proofs.Isolation.Runs

/-!
What is read back. Reading a range of a live block gives byte by byte what was last copied there. A
block that is live before and after some requests, and was not copied into, holds the same bytes;
so a column on such blocks, with all its children, reads as it did.
-/

namespace DeviceColumns

set_option autoImplicit false

namespace Heap.WellFormed

variable {heap after : Heap} {block : Block} {address length : Nat}

theorem locate_base_of_mem (formed : heap.WellFormed) (live : block ∈ heap.blocks) (length : Nat) :
    heap.locate block.base length =
      if block.base + length ≤ block.base + block.size then .ok block
      else .error (.overrun block.base length block.base block.size) := by
  rw [locate, blockAt?, formed.blockFrom?_base live]
  rfl

theorem read_base_eq (formed : heap.WellFormed) (later : after.WellFormed)
    (live : block ∈ heap.blocks) (still : block ∈ after.blocks) (length : Nat) :
    after.read block.base length = heap.read block.base length := by
  rw [Heap.read, Heap.read, formed.locate_base_of_mem live, later.locate_base_of_mem still]

end Heap.WellFormed

/-- Reading values and validity through the view has the same outcome in both heaps. -/
structure View.ReadsAlike (view : View) (before after : Heap) : Prop where
  values : ∀ host, view.values host after = view.values host before
  validity : view.validity after = view.validity before

theorem View.readsAlike {view : View} {before after : Heap}
    (same : ∀ address, address ∈ view.data ∨ address ∈ view.mask → ∀ length,
      after.read address length = before.read address length) : view.ReadsAlike before after where
  values := by
    intro host
    unfold View.values
    cases place : view.data with
    | none => rfl
    | some address => simp only [same address (.inl place)]
  validity := by
    unfold View.validity
    cases place : view.mask with
    | none => rfl
    | some address => simp only [same address (.inr place)]

namespace Column

/-- A view at a path into columns points to nothing but blocks that these columns own. -/
theorem bases_of_atPath? {columns : List Column} {path : List Nat} {view : View}
    (found : View.atPath? (viewAll columns) path = some view) {address : Nat}
    (placed : address ∈ view.data ∨ address ∈ view.mask) :
    address ∈ Buffer.bases (buffersOfAll columns) := by
  induction path generalizing columns with
  | nil => cases found
  | cons index rest induction =>
      rw [View.atPath?, viewAll_eq, List.getElem?_map] at found
      cases inside : columns[index]? with
      | none => simp [inside] at found
      | some column =>
          simp only [inside, Option.map_some] at found
          have member := List.mem_of_getElem? inside
          suffices address ∈ Buffer.bases column.buffers by
            obtain ⟨buffer, owned, place⟩ := Buffer.mem_bases.mp this
            exact Buffer.mem_bases.mpr ⟨buffer, buffers_subset member owned, place⟩
          rw [view_eq] at found
          split_ifs at found with last
          · cases found
            obtain data | mask := placed
            · obtain ⟨buffer, here, place⟩ := Option.bind_eq_some_iff.mp data
              exact Buffer.mem_bases.mpr ⟨buffer, column.data_inside buffer here, place⟩
            · obtain ⟨buffer, here, place⟩ := Option.bind_eq_some_iff.mp mask
              exact Buffer.mem_bases.mpr ⟨buffer, column.mask_inside buffer here, place⟩
          · rw [buffers_eq, Buffer.bases_append]
            exact List.mem_append_right _ (induction found)

end Column

namespace Session

variable {session : Session}

/-- Memory is isolated: live blocks share no byte, a copy changes the bytes that it goes to and no
others, and whatever has happened before, a live block reads as it was last written. A request
leaves blocks alone unless it names an owner or an address of theirs, and columns read the same for
as long as their blocks are live and not copied into. -/
structure Isolated (session : Session) : Prop where
  apart : session.machine.heap.blocks.Pairwise fun left right =>
    ∀ address, left.holds address → ¬right.holds address
  copies : ∀ address bytes after,
    Machine.write address bytes session.machine = (.ok (), after) →
      ∀ place, after.heap.byteAt? place =
        if address ≤ place ∧ place < address + bytes.length then bytes[place - address]?
        else session.machine.heap.byteAt? place
  recorded : ∃ events, Recorded events session
  remembers : ∀ events, Recorded events session →
    ∀ address length, session.machine.heap.Covers address length →
      ∃ bytes, session.machine.heap.read address length = .ok bytes ∧ bytes.length = length ∧
        ∀ index < length, bytes[index]? = Heap.lastWritten events (address + index)
  spares : ∀ request, ∀ block ∈ session.machine.heap.blocks, ¬session.Touches request block →
    ∀ address length, block.Covers address length → 0 < length →
      (session.perform request).2.machine.heap.read address length =
        session.machine.heap.read address length
  columns : ∀ copies later, Leads session copies later → ∀ column : Column,
    (∀ base ∈ Buffer.bases column.buffers, session.machine.heap.isLive base = true) →
    (∀ base ∈ Buffer.bases column.buffers, later.machine.heap.isLive base = true) →
    (∀ copy ∈ copies, ∀ block ∈ later.machine.heap.blocks,
      block.base ∈ Buffer.bases column.buffers → ¬block.holds copy.1) →
    ∀ path view, View.atPath? [column.view] path = some view →
      view.ReadsAlike session.machine.heap later.machine.heap

theorem Recorded.reads {events : List Heap.Event} (recorded : Recorded events session)
    {address length : Nat} (covers : session.machine.heap.Covers address length) :
    ∃ bytes, session.machine.heap.read address length = .ok bytes ∧ bytes.length = length ∧
      ∀ index < length, bytes[index]? = Heap.lastWritten events (address + index) := by
  obtain ⟨arena, history⟩ := recorded.history
  have formed := history.wellFormed (Heap.wellFormed_empty arena)
  obtain ⟨bytes, read, counted, stored⟩ := formed.read_bytes covers
  refine ⟨bytes, read, counted, fun index inside => ?_⟩
  have present : bytes[index]? = some bytes[index] := List.getElem?_eq_getElem (counted ▸ inside)
  rw [present]
  exact (history.remembers ((stored index inside).symm.trans present)).symm

theorem Leads.reads_alike {copies : List (Nat × Bytes)} {later : Session}
    (leads : Leads session copies later) (reached : session.Reached) {column : Column}
    (before : ∀ base ∈ Buffer.bases column.buffers, session.machine.heap.isLive base = true)
    (after : ∀ base ∈ Buffer.bases column.buffers, later.machine.heap.isLive base = true)
    (spared : ∀ copy ∈ copies, ∀ block ∈ later.machine.heap.blocks,
      block.base ∈ Buffer.bases column.buffers → ¬block.holds copy.1)
    {path : List Nat} {view : View} (found : View.atPath? [column.view] path = some view) :
    view.ReadsAlike session.machine.heap later.machine.heap := by
  have formed := reached.wellFormed
  apply View.readsAlike
  intro address placed length
  have found : View.atPath? (Column.viewAll [column]) path = some view := found
  have owned : address ∈ Buffer.bases column.buffers := by
    simpa [Column.buffersOfAll] using Column.bases_of_atPath? found placed
  obtain ⟨block, live, rfl⟩ := Heap.block_of_isLive (after _ owned)
  obtain ⟨old, earlier, same⟩ := Heap.block_of_isLive (before _ owned)
  have older : block.base < session.machine.heap.next := same ▸ formed.base_lt earlier
  have still := leads.had_block reached live older fun copy member =>
    spared copy member block live owned
  exact formed.read_base_eq (leads.reached reached).wellFormed still live length

/-- Every state that requests can lead to is isolated. -/
theorem Reached.isolated (reached : session.Reached) : session.Isolated where
  apart := by
    refine (List.pairwise_map.mp reached.wellFormed.apart).imp fun {later earlier} clear => ?_
    intro address here there
    rw [Block.holds_iff] at here there
    simp only [Heap.extent, Block.span] at clear
    omega
  copies := by
    intro address bytes after copied place
    unfold Machine.write at copied
    cases written : session.machine.heap.write address bytes with
    | error cause => simp [written] at copied
    | ok heap =>
        rw [written] at copied
        cases copied
        exact Heap.byteAt?_write reached.wellFormed written place
  recorded := reached.recorded
  remembers := fun events recorded address length covers => recorded.reads covers
  spares := by
    intro request block live untouched address length covers positive
    obtain ⟨events, effects⟩ := perform_effects reached.wellFormed request
    have still := effects.keeps_block reached.wellFormed live untouched
    rw [reached.wellFormed.read_of_mem live covers positive,
      (reached.step request).wellFormed.read_of_mem still covers positive]
  columns := fun _ _ leads _ before after spared _ _ found =>
    leads.reads_alike reached before after spared found

/-- A raw block between two columns, written to in the middle. The second column comes and goes. -/
def crowdedRequests : List Request := [
  .values "c" ⟨.int32, 0⟩ .i32 [1, -1] none "mr",
  .allocate "raw" 8 "plain",
  .values "d" ⟨.int32, 0⟩ .i32 [5] none "mr",
  .write (.relative "raw" 2) [7, 8],
  .drop "d"]

theorem Reached.isolated_crowded :
    Reached (runFrom crowdedRequests .initial).2 ∧
      ((runFrom crowdedRequests .initial).2.machine.heap.read 0x100000000080 8).toOption =
        some [0, 0, 7, 8, 0, 0, 0, 0] ∧
      (runFrom crowdedRequests .initial).2.Isolated := by
  have column := Reached.initial.step (.values "c" ⟨.int32, 0⟩ .i32 [1, -1] none "mr")
  have allocated := column.step (.allocate "raw" 8 "plain")
  have second := allocated.step (.values "d" ⟨.int32, 0⟩ .i32 [5] none "mr")
  have written := second.step (.write (.relative "raw" 2) [7, 8])
  have reached : Reached (runFrom crowdedRequests .initial).2 := written.step (.drop "d")
  exact ⟨reached, by decide +kernel, reached.isolated⟩

end Session

end DeviceColumns
