import DeviceColumns.Memory.Machine
import Mathlib.Data.List.Nodup
import Mathlib.Tactic.SplitIfs

/-!
The shape of the registry of live blocks: blocks lie in the arena one behind the other, below the
base of the next one, and share no byte. Allocations, frees and copies keep it that way, so whatever
is looked up by an address is the one block that the address belongs to.
-/

namespace DeviceColumns

set_option autoImplicit false

namespace Block

def span (block : Block) : Nat × Nat := (block.base, block.size)

/-- The `length` bytes at `address` are bytes of the block. -/
def Covers (block : Block) (address length : Nat) : Prop :=
  block.base ≤ address ∧ address + length ≤ block.base + block.size

/-- The address is the base of the block or one of its bytes. -/
def Owns (block : Block) (address : Nat) : Prop :=
  block.base = address ∨ block.holds address = true

theorem Owns.base_le {block : Block} {address : Nat} (owns : block.Owns address) :
    block.base ≤ address := by
  simp only [Owns, holds, Bool.and_eq_true, decide_eq_true_eq] at owns
  omega

theorem size_write (block : Block) {offset : Nat} {bytes : Bytes}
    (within : offset + bytes.length ≤ block.size) : (block.write offset bytes).size = block.size := by
  simp only [size, write] at *
  simp only [Array.size_append, Array.size_extract, List.size_toArray]
  omega

/-- As many bytes as the block has replace all of them. -/
theorem write_whole {block : Block} {bytes : Bytes} (whole : bytes.length = block.size) :
    block.write 0 bytes = { block with bytes := bytes.toArray } := by
  simp only [size] at whole
  simp [write, whole]

theorem length_read (block : Block) {offset length : Nat} (within : offset + length ≤ block.size) :
    (block.read offset length).length = length := by
  simp only [size] at within
  simp only [read, Array.length_toList, Array.size_extract]
  omega

end Block

namespace Heap

def spans (heap : Heap) : List (Nat × Nat) := heap.blocks.map Block.span

/-- The bytes that a block keeps from its neighbours; an empty one still keeps one. -/
def extent (span : Nat × Nat) : Nat := span.1 + max span.2 1

/-- Live blocks lie in the arena below the next base, and apart from each other. -/
structure WellFormed (heap : Heap) : Prop where
  started : arenaStart ≤ heap.next
  ended : heap.next ≤ heap.arena.finish
  above : ∀ span ∈ heap.spans, arenaStart ≤ span.1
  below : ∀ span ∈ heap.spans, extent span ≤ heap.next
  apart : heap.spans.Pairwise fun later earlier => extent earlier ≤ later.1

/-- Some live block holds all of the `length` bytes at `address`. -/
def Covers (heap : Heap) (address length : Nat) : Prop :=
  ∃ block ∈ heap.blocks, block.Covers address length

theorem wellFormed_empty (arena : Arena) : WellFormed (empty arena) where
  started := Nat.le_refl _
  ended := Nat.le_add_right _ _
  above := by simp [spans, empty]
  below := by simp [spans, empty]
  apart := by simp [spans, empty]

theorem blockFrom?_some {heap : Heap} {base : Nat} {block : Block}
    (found : heap.blockFrom? base = some block) :
    block ∈ heap.blocks ∧ block.base = base :=
  ⟨List.mem_of_find?_eq_some found, by simpa using List.find?_some found⟩

theorem addressRange_base {heap : Heap} {base : Nat} {block : Block}
    (found : heap.blockFrom? base = some block) :
    heap.addressRange base = .ok (base, block.size) := by
  rw [addressRange, blockAt?, found]
  exact congrArg (fun base => Except.ok (base, block.size)) (blockFrom?_some found).2

theorem owns_of_blockAt? {heap : Heap} {address : Nat} {block : Block}
    (found : heap.blockAt? address = some block) : block ∈ heap.blocks ∧ block.Owns address := by
  unfold blockAt? at found
  cases based : heap.blockFrom? address with
  | some other =>
      rw [based] at found
      cases found
      obtain ⟨live, same⟩ := blockFrom?_some based
      exact ⟨live, .inl same⟩
  | none =>
      rw [based] at found
      have holds := List.find?_some (p := fun block : Block => block.holds address) found
      exact ⟨List.mem_of_find?_eq_some found, .inr holds⟩

theorem blockAt?_eq_none {heap : Heap} {address : Nat} {block : Block}
    (missed : heap.blockAt? address = none) (live : block ∈ heap.blocks) :
    ¬block.Owns address := by
  unfold blockAt? at missed
  cases based : heap.blockFrom? address with
  | some first => simp [based] at missed
  | none =>
      rw [based] at missed
      rintro (same | holds)
      · exact List.find?_eq_none.mp based block live (by simpa using same)
      · exact List.find?_eq_none.mp missed block live holds

theorem locate_ok {heap : Heap} {address length : Nat} {block : Block}
    (located : heap.locate address length = .ok block) :
    block ∈ heap.blocks ∧ block.Covers address length := by
  unfold locate at located
  cases found : heap.blockAt? address with
  | none => simp [found] at located
  | some other =>
      rw [found] at located
      simp only at located
      split_ifs at located with within
      cases located
      obtain ⟨live, owns⟩ := owns_of_blockAt? found
      exact ⟨live, owns.base_le, within⟩

namespace WellFormed

variable {heap : Heap}

theorem span_mem {block : Block} (member : block ∈ heap.blocks) : block.span ∈ heap.spans :=
  List.mem_map_of_mem member

theorem base_lt {block : Block} (formed : heap.WellFormed) (live : block ∈ heap.blocks) :
    block.base < heap.next := by
  have below := formed.below _ (span_mem live)
  simp only [extent, Block.span] at below
  omega

theorem bases_nodup (formed : heap.WellFormed) : (heap.spans.map Prod.fst).Nodup := by
  rw [List.Nodup, List.pairwise_map]
  refine formed.apart.imp fun {later earlier} clear same => ?_
  simp only [extent] at clear
  omega

theorem block_unique (formed : heap.WellFormed) {first second : Block}
    (firstLive : first ∈ heap.blocks) (secondLive : second ∈ heap.blocks)
    (same : first.base = second.base) : first = second := by
  have bases := formed.bases_nodup
  rw [spans, List.map_map] at bases
  exact List.inj_on_of_nodup_map bases firstLive secondLive same

theorem eq_or_apart (formed : heap.WellFormed) {first second : Block}
    (firstLive : first ∈ heap.blocks) (secondLive : second ∈ heap.blocks) :
    first = second ∨ extent first.span ≤ second.base ∨ extent second.span ≤ first.base := by
  have clear : heap.blocks.Pairwise fun later earlier => extent earlier.span ≤ later.base :=
    List.pairwise_map.mp formed.apart
  let Apart (left right : Block) : Prop :=
    left = right ∨ extent left.span ≤ right.base ∨ extent right.span ≤ left.base
  have refl : ∀ block ∈ heap.blocks, Apart block block := fun _ _ => Or.inl rfl
  have forward : heap.blocks.Pairwise Apart := clear.imp fun before => Or.inr (Or.inr before)
  have backward : heap.blocks.Pairwise (flip Apart) :=
    clear.imp fun before => Or.inr (Or.inl before)
  exact List.Pairwise.forall_of_forall_of_flip refl forward backward firstLive secondLive

theorem blockFrom?_base (formed : heap.WellFormed) {block : Block} (live : block ∈ heap.blocks) :
    heap.blockFrom? block.base = some block := by
  cases found : heap.blockFrom? block.base with
  | none =>
      have absent := List.find?_eq_none.mp found block live
      simp at absent
  | some other =>
      have same := List.find?_some found
      have otherLive := List.mem_of_find?_eq_some found
      rw [formed.block_unique otherLive live (by simpa using same)]

/-- Live blocks keep their addresses to themselves. -/
theorem owner_unique (formed : heap.WellFormed) {first second : Block} {address : Nat}
    (firstLive : first ∈ heap.blocks) (secondLive : second ∈ heap.blocks)
    (firstOwns : first.Owns address) (secondOwns : second.Owns address) : first = second := by
  simp only [Block.Owns, Block.holds, Bool.and_eq_true, decide_eq_true_eq] at firstOwns secondOwns
  obtain same | before | before := formed.eq_or_apart firstLive secondLive
  · exact same
  · simp only [extent, Block.span] at before
    omega
  · simp only [extent, Block.span] at before
    omega

/-- A block is found by any address that belongs to it. -/
theorem blockAt?_eq (formed : heap.WellFormed) {block : Block} {address : Nat}
    (live : block ∈ heap.blocks) (owns : block.Owns address) :
    heap.blockAt? address = some block := by
  cases found : heap.blockAt? address with
  | none => exact absurd owns (blockAt?_eq_none found live)
  | some other =>
      obtain ⟨otherLive, otherOwns⟩ := owns_of_blockAt? found
      rw [formed.owner_unique otherLive live otherOwns owns]

theorem locate_eq (formed : heap.WellFormed) {block : Block} {address length : Nat}
    (live : block ∈ heap.blocks) (covers : block.Covers address length) (positive : 0 < length) :
    heap.locate address length = .ok block := by
  have holds : block.holds address := by
    simp only [Block.Covers] at covers
    simp only [Block.holds, Bool.and_eq_true, decide_eq_true_eq]
    omega
  rw [locate, formed.blockAt?_eq live (.inr holds)]
  exact if_pos covers.2

theorem read_covered (formed : heap.WellFormed) {address length : Nat}
    (covers : 0 < length → heap.Covers address length) :
    ∃ bytes, heap.read address length = .ok bytes ∧ bytes.length = length := by
  unfold Heap.read
  split_ifs with empty
  · exact ⟨[], rfl, empty.symm⟩
  · obtain ⟨block, live, within⟩ := covers (by omega)
    rw [formed.locate_eq live within (by omega)]
    refine ⟨_, rfl, block.length_read ?_⟩
    simp only [Block.Covers] at within
    omega

end WellFormed

variable {heap after : Heap}

/-- No address of a live block needs more bits than the arena has. -/
theorem WellFormed.addressable (formed : heap.WellFormed) {block : Block}
    (live : block ∈ heap.blocks) : block.base + block.size ≤ 2 ^ 56 := by
  have below := formed.below _ (WellFormed.span_mem live)
  have ended := formed.ended
  have addressable := heap.arena.addressable
  simp only [extent, Block.span, Arena.finish] at below ended
  omega

/-- A range that a live block covers is far too short for its length to be lost. -/
theorem WellFormed.covered_length (formed : heap.WellFormed) {address length : Nat}
    (covers : heap.Covers address length) : length ≤ 2 ^ 56 := by
  obtain ⟨block, live, within⟩ := covers
  have addressable := formed.addressable live
  simp only [Block.Covers] at within
  omega

theorem allocate_cases {size base : Nat} (granted : heap.allocate size = .ok (base, after)) :
    base = heap.next ∧ max size 1 ≤ heap.arena.finish - heap.next ∧
      after.spans = (heap.next, size) :: heap.spans ∧
      after.next = frontierAfter heap.arena heap.next size ∧ after.arena = heap.arena := by
  unfold allocate at granted
  split_ifs at granted with oversized exhausted
  cases granted
  exact ⟨rfl, by omega, by simp [spans, Block.span, Block.size], rfl, rfl⟩

theorem extent_le_frontierAfter {arena : Arena} {base size : Nat}
    (fits : extent (base, size) ≤ arena.finish) :
    extent (base, size) ≤ frontierAfter arena base size ∧
      frontierAfter arena base size ≤ arena.finish := by
  simp only [extent, frontierAfter, alignment] at *
  omega

theorem WellFormed.next_lt_allocate (formed : heap.WellFormed) {size base : Nat}
    (granted : heap.allocate size = .ok (base, after)) : heap.next < after.next := by
  obtain ⟨rfl, room, spans, next, -⟩ := allocate_cases granted
  have started := formed.ended
  have fits : extent (heap.next, size) ≤ heap.arena.finish := by
    simp only [extent]
    omega
  have frontier := (extent_le_frontierAfter fits).1
  simp only [extent] at frontier
  omega

theorem WellFormed.allocate (formed : heap.WellFormed) {size base : Nat}
    (granted : heap.allocate size = .ok (base, after)) : after.WellFormed := by
  obtain ⟨rfl, room, spans, next, arena⟩ := allocate_cases granted
  have started := formed.started
  have ended := formed.ended
  have fits : extent (heap.next, size) ≤ heap.arena.finish := by
    simp only [extent]
    omega
  have frontier := extent_le_frontierAfter fits
  have advanced := Nat.le_of_lt (formed.next_lt_allocate granted)
  rw [next] at advanced
  constructor
  · omega
  · rw [next, arena]
    exact frontier.2
  · rw [spans]
    exact List.forall_mem_cons.mpr ⟨started, formed.above⟩
  · rw [spans, next]
    refine List.forall_mem_cons.mpr ⟨frontier.1, fun span member => ?_⟩
    exact Nat.le_trans (formed.below span member) advanced
  · rw [spans]
    exact List.pairwise_cons.mpr ⟨formed.below, formed.apart⟩

theorem eraseP_eq_filter {spans : List (Nat × Nat)} (bases : (spans.map Prod.fst).Nodup)
    (base : Nat) :
    (spans.eraseP fun span => span.1 = base) = spans.filter fun span => span.1 ≠ base := by
  induction spans with
  | nil => rfl
  | cons span rest induction =>
      obtain ⟨fresh, later⟩ := List.nodup_cons.mp bases
      by_cases same : span.1 = base
      · have untouched : ∀ other ∈ rest, other.1 ≠ base := by
          intro other member equal
          exact fresh (same.trans equal.symm ▸ List.mem_map_of_mem member)
        rw [List.eraseP_cons_of_pos (by simpa using same),
          List.filter_cons_of_neg (by simpa using same)]
        exact (List.filter_eq_self.mpr (by simpa using untouched)).symm
      · rw [List.eraseP_cons_of_neg (by simpa using same),
          List.filter_cons_of_pos (by simpa using same), induction later]

/-- A free takes away the span with that base, if there is one, and nothing else. -/
theorem WellFormed.spans_free (formed : heap.WellFormed) (base : Nat) :
    (heap.free base).spans = heap.spans.filter fun span => span.1 ≠ base := by
  rw [← eraseP_eq_filter formed.bases_nodup, spans, spans, List.eraseP_map]
  rfl

theorem WellFormed.free (formed : heap.WellFormed) (base : Nat) : (heap.free base).WellFormed := by
  have spans := formed.spans_free base
  constructor
  · exact formed.started
  · exact formed.ended
  · rw [spans]
    exact fun span member => formed.above span (List.mem_of_mem_filter member)
  · rw [spans]
    exact fun span member => formed.below span (List.mem_of_mem_filter member)
  · rw [spans]
    exact formed.apart.filter _

theorem WellFormed.spans_write (formed : heap.WellFormed) {address : Nat} {bytes : Bytes}
    (written : heap.write address bytes = .ok after) :
    after.spans = heap.spans ∧ after.next = heap.next := by
  unfold Heap.write at written
  split_ifs at written with empty
  · cases written
    exact ⟨rfl, rfl⟩
  · cases located : heap.locate address bytes.length with
    | error cause => simp [located, bind, Except.bind] at written
    | ok target =>
        obtain ⟨live, covers⟩ := locate_ok located
        rw [located] at written
        cases written
        refine ⟨?_, rfl⟩
        simp only [spans, List.map_map]
        apply List.map_congr_left
        intro block member
        simp only [Function.comp_apply]
        split_ifs with same
        · have target : block = target := formed.block_unique member live same
          subst target
          have size : (block.write (address - block.base) bytes).size = block.size := by
            apply block.size_write
            simp only [Block.Covers] at covers
            omega
          rw [Block.span, size]
          rfl
        · rfl

theorem arena_write {address : Nat} {bytes : Bytes}
    (written : heap.write address bytes = .ok after) : after.arena = heap.arena := by
  unfold Heap.write at written
  split_ifs at written
  · cases written
    rfl
  · cases located : heap.locate address bytes.length with
    | error cause => simp [located, bind, Except.bind] at written
    | ok target =>
        rw [located] at written
        cases written
        rfl

theorem WellFormed.write (formed : heap.WellFormed) {address : Nat} {bytes : Bytes}
    (written : heap.write address bytes = .ok after) : after.WellFormed := by
  obtain ⟨spans, next⟩ := formed.spans_write written
  constructor
  · rw [next]
    exact formed.started
  · rw [next, arena_write written]
    exact formed.ended
  · rw [spans]
    exact formed.above
  · rw [spans, next]
    exact formed.below
  · rw [spans]
    exact formed.apart

end Heap

end DeviceColumns
