import DeviceColumns.Proofs.Memory.Contents
import Mathlib.Data.List.Find
import Mathlib.Data.Set.Basic

/-!
How memory came to hold what it holds. A heap changes by allocations, frees and copies, and a
history lists those that led from one heap to another, the latest first. Live blocks share no byte,
so a copy changes the bytes it goes to and no others; hence each byte of a live block is what the
latest event that concerns it has put there, which is zero if that is the allocation of the block.
-/

namespace DeviceColumns

set_option autoImplicit false

theorem Block.holds_iff {block : Block} {address : Nat} :
    block.holds address = true ↔ block.base ≤ address ∧ address < block.base + block.size := by
  simp [holds]

theorem Block.Covers.holds {block : Block} {address : Nat} {bytes : Bytes}
    (covers : block.Covers address bytes.length) (nonempty : bytes ≠ []) :
    block.holds address = true := by
  have positive := List.length_pos_of_ne_nil nonempty
  simp only [Block.Covers] at covers
  rw [Block.holds_iff]
  omega

/-- A copy into a block replaces the bytes in its range. -/
theorem Block.getElem?_write (block : Block) {offset : Nat} {bytes : Bytes} (index : Nat)
    (within : offset + bytes.length ≤ block.size) :
    (block.write offset bytes).bytes[index]? =
      if offset ≤ index ∧ index < offset + bytes.length then bytes[index - offset]?
      else block.bytes[index]? := by
  simp only [size] at within
  have front : (block.bytes.extract 0 offset).size = offset := by
    rw [Array.size_extract]
    omega
  have middle : (block.bytes.extract 0 offset ++ bytes.toArray).size = offset + bytes.length := by
    rw [Array.size_append, front, List.size_toArray]
  simp only [write, Array.getElem?_append, front, middle]
  by_cases before : index < offset
  · have outside : ¬(offset ≤ index ∧ index < offset + bytes.length) := by omega
    rw [if_pos (by omega), if_pos before, if_neg outside, Array.getElem?_extract, Nat.zero_add,
      if_pos (by omega)]
  · by_cases inside : index < offset + bytes.length
    · rw [if_pos inside, if_neg before, if_pos ⟨by omega, inside⟩]
      simp
    · have outside : ¬(offset ≤ index ∧ index < offset + bytes.length) := by omega
      rw [if_neg inside, if_neg outside, Array.getElem?_extract]
      split_ifs with short
      · congr 1
        omega
      · rw [Array.getElem?_eq_none (by omega)]

namespace Heap

/-- The byte at an address, if some live block holds it. -/
def byteAt? (heap : Heap) (address : Nat) : Option UInt8 :=
  (heap.blocks.find? fun block => block.holds address).bind fun block =>
    block.bytes[address - block.base]?

/-- What can happen to memory. -/
inductive Event where
  | allocated (base size : Nat)
  | freed (base : Nat)
  | copied (address : Nat) (bytes : Bytes)

inductive Step : Heap → Event → Heap → Prop where
  | allocated {heap after : Heap} {base size : Nat}
      (granted : heap.allocate size = .ok (base, after)) : Step heap (.allocated base size) after
  | freed (heap : Heap) (base : Nat) : Step heap (.freed base) (heap.free base)
  | copied {heap after : Heap} {address : Nat} {bytes : Bytes}
      (written : heap.write address bytes = .ok after) : Step heap (.copied address bytes) after

/-- The events, latest first, lead from the first heap to the last one. -/
inductive History (first : Heap) : List Event → Heap → Prop where
  | start : History first [] first
  | next {events : List Event} {middle last : Heap} {event : Event}
      (past : History first events middle) (step : Step middle event last) :
      History first (event :: events) last

/-- What the latest event that concerns an address has put there. -/
def lastWritten : List Event → Nat → Option UInt8
  | [], _ => none
  | .copied start bytes :: earlier, address =>
      if start ≤ address ∧ address < start + bytes.length then bytes[address - start]?
      else lastWritten earlier address
  | .allocated base size :: earlier, address =>
      if base ≤ address ∧ address < base + size then some 0 else lastWritten earlier address
  | .freed _ :: earlier, address => lastWritten earlier address

variable {heap middle after : Heap} {base address size length : Nat} {bytes : Bytes} {byte : UInt8}
  {block : Block} {event : Event} {events : List Event}

theorem byteAt?_some (found : heap.byteAt? address = some byte) :
    ∃ block ∈ heap.blocks, block.holds address = true ∧
      block.bytes[address - block.base]? = some byte := by
  obtain ⟨block, located, read⟩ := Option.bind_eq_some_iff.mp found
  have holds := List.find?_some located
  exact ⟨block, List.mem_of_find?_eq_some located, holds, read⟩

namespace WellFormed

variable (formed : heap.WellFormed)

include formed

theorem holds_unique {other : Block} (live : block ∈ heap.blocks) (otherLive : other ∈ heap.blocks)
    (holds : block.holds address = true) (otherHolds : other.holds address = true) :
    block = other :=
  formed.owner_unique live otherLive (.inr holds) (.inr otherHolds)

theorem find?_holds (live : block ∈ heap.blocks) (holds : block.holds address = true) :
    heap.blocks.find? (fun block => block.holds address) = some block := by
  cases found : heap.blocks.find? fun block => block.holds address with
  | none => exact absurd holds (List.find?_eq_none.mp found block live)
  | some other =>
      have otherLive := List.mem_of_find?_eq_some found
      have otherHolds := List.find?_some found
      rw [formed.holds_unique live otherLive holds otherHolds]

theorem byteAt?_of_mem (live : block ∈ heap.blocks) (holds : block.holds address = true) :
    heap.byteAt? address = block.bytes[address - block.base]? := by
  rw [byteAt?, formed.find?_holds live holds, Option.bind_some]

theorem not_holds (live : block.span ∈ heap.spans) (newer : heap.next ≤ address) :
    ¬block.holds address := by
  have below := formed.below _ live
  simp only [extent, Block.span] at below
  rw [Block.holds_iff]
  omega

theorem read_of_mem (live : block ∈ heap.blocks) (covers : block.Covers address length)
    (positive : 0 < length) :
    heap.read address length = .ok (block.read (address - block.base) length) := by
  have nonempty : ¬length = 0 := by omega
  rw [Heap.read, if_neg nonempty, formed.locate_eq live covers positive]
  rfl

/-- A range of a live block is read byte by byte. -/
theorem read_bytes (covers : heap.Covers address length) :
    ∃ bytes, heap.read address length = .ok bytes ∧ bytes.length = length ∧
      ∀ index < length, bytes[index]? = heap.byteAt? (address + index) := by
  obtain ⟨bytes, read, counted⟩ := formed.read_covered fun _ => covers
  obtain ⟨block, live, within⟩ := covers
  refine ⟨bytes, read, counted, fun index inside => ?_⟩
  rw [formed.read_of_mem live within (by omega)] at read
  cases read
  simp only [Block.Covers, Block.size] at within
  have holds : block.holds (address + index) = true := by
    rw [Block.holds_iff, Block.size]
    omega
  have behind : address - block.base + index = address + index - block.base := by omega
  rw [formed.byteAt?_of_mem live holds, ← behind, Block.read, Array.getElem?_toList,
    Array.getElem?_extract, if_pos (by omega)]

end WellFormed

theorem byteAt?_allocate (granted : heap.allocate size = .ok (base, after)) (address : Nat) :
    after.byteAt? address =
      if base ≤ address ∧ address < base + size then some 0 else heap.byteAt? address := by
  unfold allocate at granted
  split_ifs at granted
  cases granted
  by_cases inside : heap.next ≤ address ∧ address < heap.next + size
  · have holds : Block.holds ⟨heap.next, Array.replicate size 0⟩ address = true := by
      simpa [Block.holds_iff, Block.size] using inside
    have offset : address - heap.next < size := by omega
    simp only [byteAt?, List.find?_cons, holds]
    rw [if_pos inside, Option.bind_some, Array.getElem?_replicate, if_pos offset]
  · have misses : Block.holds ⟨heap.next, Array.replicate size 0⟩ address = false := by
      rw [← Bool.not_eq_true]
      simpa [Block.holds_iff, Block.size] using inside
    simp only [byteAt?, List.find?_cons, misses]
    rw [if_neg inside]

/-- A free leaves every byte as it is or takes it away. -/
theorem byteAt?_free (formed : heap.WellFormed) (base address : Nat) :
    (heap.free base).byteAt? address = heap.byteAt? address ∨
      (heap.free base).byteAt? address = none := by
  cases left : (heap.free base).byteAt? address with
  | none => exact .inr rfl
  | some byte =>
      obtain ⟨block, live, holds, read⟩ := byteAt?_some left
      have before : block ∈ heap.blocks := List.mem_of_mem_eraseP live
      rw [formed.byteAt?_of_mem before holds, read]
      exact .inl rfl

/-- A copy of at least one byte goes to one live block, which takes it in. -/
theorem write_cases (written : heap.write address bytes = .ok after) (nonempty : bytes ≠ []) :
    ∃ target ∈ heap.blocks, target.Covers address bytes.length ∧ after.next = heap.next ∧
      after.blocks = heap.blocks.map fun block =>
        if block.base = target.base then block.write (address - block.base) bytes else block := by
  unfold Heap.write at written
  rw [if_neg (by simpa using nonempty)] at written
  cases located : heap.locate address bytes.length with
  | error cause => simp [located, bind, Except.bind] at written
  | ok target =>
      rw [located] at written
      cases written
      obtain ⟨live, covers⟩ := locate_ok located
      exact ⟨target, live, covers, rfl, rfl⟩

theorem write_nothing (written : heap.write address [] = .ok after) : after = heap := by
  cases written
  rfl

/-- A copy changes the bytes that it goes to, and no others. -/
theorem byteAt?_write (formed : heap.WellFormed) (written : heap.write address bytes = .ok after)
    (place : Nat) : after.byteAt? place =
      if address ≤ place ∧ place < address + bytes.length then bytes[place - address]?
      else heap.byteAt? place := by
  by_cases nothing : bytes = []
  · subst nothing
    rw [write_nothing written, if_neg (by simp)]
  · obtain ⟨target, live, covers, _, blocks⟩ := write_cases written nothing
    obtain ⟨lower, upper⟩ := covers
    have within : address - target.base + bytes.length ≤ target.size := by omega
    have changed (block : Block) (member : block ∈ heap.blocks) : (if block.base = target.base then
        block.write (address - block.base) bytes else block).holds place = block.holds place := by
      split_ifs with same
      · rw [formed.block_unique member live same, Block.holds, Block.holds,
          Block.size_write _ within]
        rfl
      · rfl
    have lookup : after.blocks.find? (fun block => block.holds place) =
        (heap.blocks.find? fun block => block.holds place).map fun block =>
          if block.base = target.base then block.write (address - block.base) bytes else block := by
      rw [blocks, List.find?_map]
      congr 1
      exact List.find?_congr fun block member => changed block member
    rw [byteAt?, lookup]
    cases found : heap.blocks.find? fun block => block.holds place with
    | none =>
        have missed := List.find?_eq_none.mp found target live
        have outside : ¬(address ≤ place ∧ place < address + bytes.length) := by
          rw [Block.holds_iff] at missed
          omega
        rw [if_neg outside, byteAt?, found]
        rfl
    | some block =>
        have member := List.mem_of_find?_eq_some found
        have holds := List.find?_some found
        rw [Option.map_some, Option.bind_some]
        by_cases same : block.base = target.base
        · have equal : block = target := formed.block_unique member live same
          subst equal
          rw [if_pos rfl, formed.byteAt?_of_mem member holds]
          have moved := block.getElem?_write (place - block.base) within
          rw [Block.holds_iff] at holds
          simp only [Block.write] at moved ⊢
          rw [moved]
          by_cases inside : address ≤ place ∧ place < address + bytes.length
          · rw [if_pos inside, if_pos (by omega)]
            congr 1
            omega
          · rw [if_neg inside, if_neg (by omega)]
        · have outside : ¬(address ≤ place ∧ place < address + bytes.length) := by
            intro inside
            have targetHolds : target.holds place = true := by
              rw [Block.holds_iff]
              omega
            exact same (congrArg Block.base (formed.holds_unique member live holds targetHolds))
          rw [if_neg same, if_neg outside, formed.byteAt?_of_mem member holds]

theorem allocate_blocks (granted : heap.allocate size = .ok (base, after)) :
    base = heap.next ∧ heap.next ≤ after.next ∧
      after.blocks = ⟨base, Array.replicate size 0⟩ :: heap.blocks := by
  obtain ⟨rfl, room, _, next, -⟩ := allocate_cases granted
  have later : heap.next ≤ after.next := by
    rw [next]
    simp only [frontierAfter, alignment]
    omega
  unfold allocate at granted
  split_ifs at granted
  cases granted
  exact ⟨rfl, later, rfl⟩

namespace Step

variable (step : Step heap event after)

include step

theorem wellFormed (formed : heap.WellFormed) : after.WellFormed := by
  cases step with
  | allocated granted => exact formed.allocate granted
  | freed base => exact formed.free base
  | copied written => exact formed.write written

theorem next_le : heap.next ≤ after.next := by
  cases step with
  | allocated granted => exact (allocate_blocks granted).2.1
  | freed base => exact Nat.le_refl _
  | @copied _ address bytes written =>
      by_cases nothing : bytes = []
      · subst nothing
        rw [write_nothing written]
      · obtain ⟨_, _, _, next, _⟩ := write_cases written nothing
        exact Nat.le_of_eq next.symm

/-- A block outlasts what neither frees it nor copies into it. -/
theorem keeps_block (formed : heap.WellFormed) (live : block ∈ heap.blocks)
    (kept : event ≠ .freed block.base)
    (spared : ∀ address bytes, event = .copied address bytes → ¬block.holds address) :
    block ∈ after.blocks := by
  cases step with
  | allocated granted =>
      rw [(allocate_blocks granted).2.2]
      exact List.mem_cons_of_mem _ live
  | freed base =>
      have other : ¬block.base = base := fun same => kept (same ▸ rfl)
      exact (List.mem_eraseP_of_neg (by simpa using other)).mpr live
  | @copied _ address bytes written =>
      by_cases nothing : bytes = []
      · subst nothing
        rwa [write_nothing written]
      · obtain ⟨target, hit, covers, _, blocks⟩ := write_cases written nothing
        have apart : ¬block.base = target.base := by
          intro same
          obtain rfl := formed.block_unique live hit same
          exact spared address bytes rfl (covers.holds nothing)
        rw [blocks]
        exact List.mem_map.mpr ⟨block, live, if_neg apart⟩

/-- A block that is not new was there before, as it is unless it was copied into. -/
theorem had_block (formed : heap.WellFormed) (live : block ∈ after.blocks)
    (older : block.base < heap.next)
    (spared : ∀ address bytes, event = .copied address bytes → ¬block.holds address) :
    block ∈ heap.blocks := by
  cases step with
  | allocated granted =>
      obtain ⟨based, _, blocks⟩ := allocate_blocks granted
      rw [blocks] at live
      obtain rfl | before := List.mem_cons.mp live
      · exact absurd older (by simp [based])
      · exact before
  | freed base => exact List.mem_of_mem_eraseP live
  | @copied _ address bytes written =>
      by_cases nothing : bytes = []
      · subst nothing
        rwa [write_nothing written] at live
      · obtain ⟨target, hit, covers, _, blocks⟩ := write_cases written nothing
        rw [blocks] at live
        obtain ⟨origin, before, rfl⟩ := List.mem_map.mp live
        by_cases same : origin.base = target.base
        · obtain rfl := formed.block_unique before hit same
          have held := covers.holds nothing
          rw [if_pos rfl] at spared
          have changed : (origin.write (address - origin.base) bytes).holds address := by
            have within : address - origin.base + bytes.length ≤ origin.size := by
              simp only [Block.Covers] at covers
              omega
            rwa [Block.holds, Block.size_write _ within]
          exact absurd changed (spared address bytes rfl)
        · rwa [if_neg same]

/-- A block keeps its base and its size, so one with an old base is an old one. -/
theorem had_span {span : Nat × Nat} (formed : heap.WellFormed) (live : span ∈ after.spans)
    (older : span.1 < heap.next) : span ∈ heap.spans := by
  cases step with
  | allocated granted =>
      obtain ⟨rfl, _, spans, _⟩ := allocate_cases granted
      rw [spans] at live
      obtain rfl | before := List.mem_cons.mp live
      · exact absurd older (Nat.lt_irrefl _)
      · exact before
  | freed base =>
      rw [formed.spans_free] at live
      exact List.mem_of_mem_filter live
  | copied written => rwa [(formed.spans_write written).1] at live

end Step

namespace History

theorem wellFormed (history : History heap events after) (formed : heap.WellFormed) :
    after.WellFormed := by
  induction history with
  | start => exact formed
  | next past step induction => exact step.wellFormed induction

theorem trans {later : List Event} (history : History heap events middle)
    (more : History middle later after) : History heap (later ++ events) after := by
  induction more with
  | start => exact history
  | next past step induction => exact induction.next step

theorem next_le (history : History heap events after) : heap.next ≤ after.next := by
  induction history with
  | start => exact Nat.le_refl _
  | next past step induction => exact Nat.le_trans induction step.next_le

theorem had_span {span : Nat × Nat} (history : History heap events after)
    (formed : heap.WellFormed) (live : span ∈ after.spans) (older : span.1 < heap.next) :
    span ∈ heap.spans := by
  induction history with
  | start => exact live
  | next past step induction =>
      have still := Nat.lt_of_lt_of_le older past.next_le
      exact induction (step.had_span (past.wellFormed formed) live still)

/-- Copies into newer memory leave old blocks alone, so an old block outlasts a history that neither
frees it nor copies into it. -/
theorem keeps_block (history : History heap events after) (formed : heap.WellFormed)
    (live : block ∈ heap.blocks) (kept : .freed block.base ∉ events)
    (spared : ∀ address bytes, .copied address bytes ∈ events →
      heap.next ≤ address ∨ ¬block.holds address) : block ∈ after.blocks := by
  have missed (address : Nat) (bytes : Bytes) (copied : .copied address bytes ∈ events) :
      ¬block.holds address :=
    (spared address bytes copied).elim (formed.not_holds (WellFormed.span_mem live)) id
  clear spared
  induction history with
  | start => exact live
  | next past step induction =>
      rw [List.mem_cons, not_or] at kept
      have before := induction kept.2 fun address bytes earlier =>
        missed address bytes (List.mem_cons_of_mem _ earlier)
      refine step.keeps_block (past.wellFormed formed) before (Ne.symm kept.1) ?_
      rintro address bytes rfl
      exact missed address bytes List.mem_cons_self

theorem had_block (history : History heap events after) (formed : heap.WellFormed)
    (live : block ∈ after.blocks) (older : block.base < heap.next)
    (spared : ∀ address bytes, .copied address bytes ∈ events →
      heap.next ≤ address ∨ ¬block.holds address) : block ∈ heap.blocks := by
  have old := history.had_span formed (WellFormed.span_mem live) older
  have missed (address : Nat) (bytes : Bytes) (copied : .copied address bytes ∈ events) :
      ¬block.holds address :=
    (spared address bytes copied).elim (formed.not_holds old) id
  clear spared
  induction history with
  | start => exact live
  | next past step induction =>
      have before := step.had_block (past.wellFormed formed) live
        (Nat.lt_of_lt_of_le older past.next_le) fun address bytes same =>
          missed address bytes (same ▸ List.mem_cons_self)
      exact induction before fun address bytes earlier =>
        missed address bytes (List.mem_cons_of_mem _ earlier)

/-- Every byte of memory that began empty is what was last written there. -/
theorem remembers {arena : Arena} (history : History (.empty arena) events heap)
    (found : heap.byteAt? address = some byte) : lastWritten events address = some byte := by
  induction history with
  | start => cases found
  | @next events middle last event past step induction =>
      have formed := past.wellFormed (wellFormed_empty arena)
      cases step with
      | allocated granted =>
          rw [byteAt?_allocate granted] at found
          unfold lastWritten
          split_ifs at found ⊢ with inside
          · exact found
          · exact induction found
      | freed base =>
          obtain same | gone := byteAt?_free formed base address
          · exact induction (same ▸ found)
          · rw [gone] at found
            contradiction
      | copied written =>
          rw [byteAt?_write formed written] at found
          unfold lastWritten
          split_ifs at found ⊢ with inside
          · exact found
          · exact induction found

end History

end Heap

end DeviceColumns
