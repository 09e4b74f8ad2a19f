import DeviceColumns.Memory.Buffer
import DeviceColumns.Proofs.Memory.Blocks
import DeviceColumns.Proofs.Memory.Resources

/-!
What memory holds. The heap is looked at as a partial function from bases to the bytes of the blocks
there. An allocation adds a block of zeros, a free takes one away, and a copy that fills a block
replaces its bytes; everything else is spared.
-/

namespace DeviceColumns

set_option autoImplicit false

open DeviceColumns.Action

namespace Heap

variable {heap middle after : Heap} {base other size : Nat} {bytes old : Bytes}

/-- The bytes of the live block at a base. -/
def stored? (heap : Heap) (base : Nat) : Option Bytes :=
  (heap.blockFrom? base).map fun block => block.bytes.toList

theorem stored?_some (found : heap.stored? base = some bytes) :
    ∃ block, heap.blockFrom? base = some block ∧ block.base = base ∧
      block.bytes.toList = bytes := by
  obtain ⟨block, located, rfl⟩ := Option.map_eq_some_iff.mp found
  exact ⟨block, located, (blockFrom?_some located).2, rfl⟩

theorem WellFormed.stored?_base (formed : heap.WellFormed) {block : Block}
    (live : block ∈ heap.blocks) : heap.stored? block.base = some block.bytes.toList := by
  rw [stored?, formed.blockFrom?_base live]
  rfl

theorem WellFormed.stored?_of_mem (formed : heap.WellFormed) (live : (base, size) ∈ heap.spans) :
    ∃ bytes, heap.stored? base = some bytes ∧ bytes.length = size := by
  obtain ⟨block, member, same⟩ := List.mem_map.mp live
  obtain ⟨rfl, rfl⟩ := Prod.mk.inj same
  exact ⟨block.bytes.toList, formed.stored?_base member, Array.length_toList⟩

theorem WellFormed.stored?_fresh (formed : heap.WellFormed) : heap.stored? heap.next = none := by
  rw [stored?, Option.map_eq_none_iff]
  refine List.find?_eq_none.mpr fun block live => ?_
  have older := formed.base_lt live
  simp only [decide_eq_true_eq]
  omega

theorem allocate_error {cause : DeviceError} (refused : heap.allocate size = .error cause) :
    cause.kind = .allocation size := by
  unfold allocate at refused
  split_ifs at refused
  · cases refused
    rfl
  · cases refused
    rfl

theorem stored?_allocate_same (granted : heap.allocate size = .ok (base, after)) :
    after.stored? base = some (List.replicate size 0) := by
  unfold allocate at granted
  split_ifs at granted
  cases granted
  simp [stored?, blockFrom?]

theorem stored?_allocate_other (granted : heap.allocate size = .ok (base, after))
    (different : other ≠ base) : after.stored? other = heap.stored? other := by
  unfold allocate at granted
  split_ifs at granted
  cases granted
  rw [stored?, blockFrom?, List.find?_cons_of_neg (by simpa using Ne.symm different)]
  rfl

theorem stored?_free_other (different : other ≠ base) :
    (heap.free base).stored? other = heap.stored? other := by
  have kept (blocks : List Block) :
      (blocks.eraseP fun block => block.base = base).find? (fun block => block.base = other) =
        blocks.find? fun block => block.base = other := by
    induction blocks with
    | nil => rfl
    | cons block rest induction =>
        by_cases freed : block.base = base
        · have skipped : ¬block.base = other := fun same => different (same.symm.trans freed)
          rw [List.eraseP_cons_of_pos (by simpa using freed),
            List.find?_cons_of_neg (by simpa using skipped)]
        · rw [List.eraseP_cons_of_neg (by simpa using freed), List.find?_cons, List.find?_cons,
            induction]
  exact congrArg (Option.map fun block => block.bytes.toList) (kept heap.blocks)

theorem locate_base {block : Block} {length : Nat} (found : heap.blockFrom? base = some block)
    (within : length ≤ block.size) : heap.locate base length = .ok block := by
  rw [locate, blockAt?, found]
  refine if_pos ?_
  rw [(blockFrom?_some found).2]
  exact Nat.add_le_add_left within base

theorem read_stored {length : Nat} (found : heap.stored? base = some bytes)
    (within : length ≤ bytes.length) : heap.read base length = .ok (bytes.take length) := by
  obtain ⟨block, located, based, rfl⟩ := stored?_some found
  unfold Heap.read
  split_ifs with empty
  · rw [empty, List.take_zero]
  · rw [locate_base located within]
    simp [bind, Except.bind, pure, Except.pure, Block.read, based]

theorem write_stored (found : heap.stored? base = some old) (within : bytes.length ≤ old.length) :
    ∃ after, heap.write base bytes = .ok after := by
  obtain ⟨block, located, based, rfl⟩ := stored?_some found
  unfold Heap.write
  split_ifs with empty
  · exact ⟨heap, rfl⟩
  · rw [locate_base located within]
    exact ⟨_, rfl⟩

/-- A copy as long as the block that it goes to replaces the bytes of this block alone. -/
theorem stored?_write (written : heap.write base bytes = .ok after)
    (found : heap.stored? base = some old) (whole : bytes.length = old.length) :
    after.stored? base = some bytes ∧
      ∀ other, other ≠ base → after.stored? other = heap.stored? other := by
  obtain ⟨block, located, based, rfl⟩ := stored?_some found
  unfold Heap.write at written
  split_ifs at written with empty
  · cases written
    have none : bytes = [] := by simpa using empty
    subst none
    exact ⟨by rw [found, List.eq_nil_of_length_eq_zero whole.symm], fun _ _ => rfl⟩
  · rw [locate_base located (Nat.le_of_eq whole)] at written
    cases written
    have replaced : block.write 0 bytes = { block with bytes := bytes.toArray } :=
      Block.write_whole (whole.trans Array.length_toList)
    have lookup (place : Nat) : (heap.blocks.map fun other =>
          if other.base = block.base then other.write (base - other.base) bytes else other).find?
            (fun other => other.base = place) =
        (heap.blockFrom? place).map fun other =>
          if other.base = block.base then other.write (base - other.base) bytes else other := by
      rw [List.find?_map, blockFrom?]
      congr 2
      funext other
      simp only [Function.comp_apply]
      split_ifs <;> rfl
    constructor
    · rw [stored?, blockFrom?, lookup, located, based]
      simp [based, replaced]
    · intro other different
      rw [stored?, blockFrom?, lookup, stored?]
      cases elsewhere : heap.blockFrom? other with
      | none => rfl
      | some found =>
          have apart : found.base ≠ block.base := by
            rw [(blockFrom?_some elsewhere).2, based]
            exact different
          simp [apart]

/-- What was stored, other than in the blocks of `buffers`, is stored still. -/
def Spares (buffers : List Buffer) (before after : Heap) : Prop :=
  ∀ base bytes, before.stored? base = some bytes →
    (∀ buffer ∈ buffers, buffer.address ≠ some base) → after.stored? base = some bytes

namespace Spares

variable {buffers more : List Buffer}

theorem of_allocate (formed : heap.WellFormed) (granted : heap.allocate size = .ok (base, after)) :
    Spares [] heap after := by
  obtain ⟨rfl, _, _, _⟩ := allocate_cases granted
  intro other bytes found _
  have different : other ≠ heap.next := by
    rintro rfl
    rw [formed.stored?_fresh] at found
    contradiction
  rw [stored?_allocate_other granted different, found]

theorem of_eq (same : after = heap) : Spares buffers heap after :=
  fun _ _ found _ => same ▸ found

theorem trans (first : Spares buffers heap middle) (second : Spares more middle after) :
    Spares (buffers ++ more) heap after := by
  intro base bytes found apart
  rw [List.forall_mem_append] at apart
  exact second base bytes (first base bytes found apart.1) apart.2

theorem mono (spares : Spares buffers heap after) (within : ∀ buffer ∈ buffers, buffer ∈ more) :
    Spares more heap after :=
  fun base bytes found apart => spares base bytes found fun buffer member =>
    apart buffer (within buffer member)

end Spares

/-- The buffer has as many bytes as these, and they are what its block holds. A missing buffer holds
nothing, and so does one without an address. -/
structure Holds (heap : Heap) (part : Option Buffer) (bytes : Bytes) : Prop where
  length : ∀ buffer ∈ part, buffer.length = bytes.length
  absent : part.bind Buffer.address = none → bytes = []
  stored : ∀ address ∈ part.bind Buffer.address, heap.stored? address = some bytes

theorem holds_none (heap : Heap) : heap.Holds none [] := ⟨by simp, fun _ => rfl, by simp⟩

namespace Holds

variable {part : Option Buffer} {buffers : List Buffer}

theorem read (holds : heap.Holds part bytes) {length : Nat} (within : length ≤ bytes.length) :
    heap.read ((part.bind Buffer.address).getD 0) length = .ok (bytes.take length) := by
  cases place : part.bind Buffer.address with
  | some address => exact read_stored (holds.stored address place) within
  | none =>
      have empty := holds.absent place
      subst empty
      have nothing : length = 0 := by simpa using within
      simp [Heap.read, nothing]

theorem spared (holds : heap.Holds part bytes) (spares : Spares buffers heap after)
    (apart : ∀ address ∈ part.bind Buffer.address, ∀ buffer ∈ buffers,
      buffer.address ≠ some address) : after.Holds part bytes :=
  ⟨holds.length, holds.absent, fun address here =>
    spares address bytes (holds.stored address here) (apart address here)⟩

theorem placed (holds : heap.Holds part bytes) (inhabited : bytes ≠ []) :
    ∃ address, part.bind Buffer.address = some address ∧ heap.stored? address = some bytes := by
  cases place : part.bind Buffer.address with
  | none => exact absurd (holds.absent place) inhabited
  | some address => exact ⟨address, rfl, holds.stored address place⟩

/-- What memory holds is far too short for its length to be lost. -/
theorem addressable (holds : heap.Holds part bytes) (formed : heap.WellFormed) :
    bytes.length ≤ 2 ^ 56 := by
  by_cases empty : bytes = []
  · subst empty
    exact Nat.zero_le _
  · obtain ⟨address, -, stored⟩ := holds.placed empty
    obtain ⟨block, found, -, rfl⟩ := stored?_some stored
    have addressable := formed.addressable (blockFrom?_some found).1
    rw [Array.length_toList]
    exact Nat.le_trans (Nat.le_add_left _ _) addressable

end Holds

section

variable {part : Option Buffer} {buffers : List Buffer}

/-- Blocks lie apart from each other, and whatever was stored is stored still. -/
structure Grows (heap after : Heap) : Prop where
  formed : after.WellFormed
  spares : Spares [] heap after

/-- What the blocks of these buffers store, they store still. -/
def Preserves (buffers : List Buffer) (heap after : Heap) : Prop :=
  ∀ buffer ∈ buffers, ∀ base ∈ buffer.address, ∀ bytes,
    heap.stored? base = some bytes → after.stored? base = some bytes

namespace Grows

theorem refl (formed : heap.WellFormed) : heap.Grows heap := ⟨formed, .of_eq rfl⟩

theorem trans (first : heap.Grows middle) (second : middle.Grows after) : heap.Grows after :=
  ⟨second.formed, first.spares.trans second.spares⟩

theorem preserves (grows : heap.Grows after) (buffers : List Buffer) :
    Preserves buffers heap after :=
  fun _ _ base _ bytes stored => grows.spares base bytes stored (by simp)

end Grows

namespace Preserves

theorem refl (buffers : List Buffer) (heap : Heap) : Preserves buffers heap heap :=
  fun _ _ _ _ _ stored => stored

theorem trans (first : Preserves buffers heap middle) (second : Preserves buffers middle after) :
    Preserves buffers heap after :=
  fun buffer member base place bytes stored =>
    second buffer member base place bytes (first buffer member base place bytes stored)

theorem mono {fewer : List Buffer} (preserves : Preserves buffers heap after)
    (within : ∀ buffer ∈ fewer, buffer ∈ buffers) : Preserves fewer heap after :=
  fun buffer member => preserves buffer (within buffer member)

theorem holds (preserves : Preserves buffers heap after)
    (inside : ∀ buffer ∈ part, buffer ∈ buffers) (holds : heap.Holds part bytes) :
    after.Holds part bytes := by
  refine ⟨holds.length, holds.absent, fun address place => ?_⟩
  obtain ⟨buffer, here, somewhere⟩ := Option.bind_eq_some_iff.mp place
  exact preserves buffer (inside buffer here) address somewhere bytes (holds.stored address place)

end Preserves

end

end Heap

namespace Buffer

variable {buffer : Buffer} {machine middle after : Machine} {resource : Resource} {length : Nat}
  {bytes : Bytes}

theorem free_spares (buffer : Buffer) (machine : Machine) :
    Heap.Spares [buffer] machine.heap (buffer.free machine).heap := by
  intro base bytes found apart
  have different := apart buffer (List.mem_singleton_self buffer)
  unfold free
  cases somewhere : buffer.address with
  | none => exact found
  | some address =>
      have frame :=
        Machine.freeFrame_freeThrough buffer.resource.ledgers address buffer.length machine
      rw [somewhere] at different
      simp only [Resource.free]
      obtain same | freed := frame.heap
      · rwa [same]
      · rwa [freed, Heap.stored?_free_other fun equal => different (congrArg some equal.symm)]

theorem freeAll_spares (buffers : List Buffer) (machine : Machine) :
    Heap.Spares buffers machine.heap (freeAll buffers machine).heap := by
  induction buffers generalizing machine with
  | nil => exact .of_eq rfl
  | cons buffer rest induction => exact (free_spares buffer machine).trans (induction _)

theorem allocate_ok (granted : Buffer.allocate length resource machine = (.ok buffer, after)) :
    (length = 0 ∧ buffer = ⟨none, 0, resource⟩ ∧ after = machine) ∨
    (length ≠ 0 ∧ ∃ address, buffer = ⟨some address, length, resource⟩ ∧
      machine.heap.allocate length = .ok (address, after.heap)) := by
  unfold Buffer.allocate at granted
  split_ifs at granted with empty
  · cases granted
    exact .inl ⟨empty, rfl, rfl⟩
  · refine .inr ⟨empty, ?_⟩
    obtain ⟨address, middle, ran, made⟩ := bind_eq_ok granted
    cases made
    exact ⟨address, rfl, Resource.allocate_heap ran⟩

theorem allocate_spares (formed : machine.heap.WellFormed)
    (granted : Buffer.allocate length resource machine = (.ok buffer, after)) :
    Heap.Spares [] machine.heap after.heap := by
  obtain ⟨_, _, rfl⟩ | ⟨_, address, _, handed⟩ := allocate_ok granted
  · exact .of_eq rfl
  · exact .of_allocate formed handed

theorem empty_holds (granted : Buffer.allocate 0 resource machine = (.ok buffer, after)) :
    Heap.Spares [] machine.heap after.heap ∧ after.heap.Holds (some buffer) [] := by
  obtain ⟨_, rfl, rfl⟩ | ⟨nonempty, _⟩ := allocate_ok granted
  · exact ⟨.of_eq rfl, ⟨by simp, fun _ => rfl, by simp⟩⟩
  · exact absurd rfl nonempty

theorem fill_ok {done : Unit} (written : buffer.fill bytes machine = (.ok done, after)) :
    machine.heap.write buffer.pointer bytes = .ok after.heap := by
  simp only [fill, undoOnFailure, Machine.write] at written
  cases copied : machine.heap.write buffer.pointer bytes with
  | error cause => simp [copied] at written
  | ok heap =>
      rw [copied] at written
      cases written
      rfl

theorem allocate_error {cause : DeviceError}
    (refused : Buffer.allocate length resource machine = (.error cause, after)) :
    ∃ size, cause.kind = .allocation size := by
  unfold Buffer.allocate at refused
  split_ifs at refused with empty
  · cases refused
  · obtain denied | ⟨address, middle, granted, returned⟩ := bind_eq_error refused
    · exact ⟨length, Heap.allocate_error (Resource.allocate_denied denied)⟩
    · cases returned

/-- A buffer that was just allocated takes as many bytes as it has. -/
theorem fill_allocated
    (granted : Buffer.allocate bytes.length resource machine = (.ok buffer, middle)) :
    ∃ final, buffer.fill bytes middle = (.ok (), final) := by
  have writes : ∃ heap, middle.heap.write buffer.pointer bytes = .ok heap := by
    obtain ⟨empty, rfl, rfl⟩ | ⟨_, address, rfl, handed⟩ := allocate_ok granted
    · rw [List.eq_nil_of_length_eq_zero empty]
      exact ⟨_, rfl⟩
    · refine Heap.write_stored (Heap.stored?_allocate_same handed) ?_
      rw [List.length_replicate]
  obtain ⟨heap, written⟩ := writes
  refine ⟨{ middle with heap := heap }, ?_⟩
  simp only [fill, undoOnFailure, Machine.write, written]

/-- A buffer that is allocated and then filled holds what it was filled with. -/
theorem filled_holds {done : Unit} (formed : machine.heap.WellFormed) (nonempty : length ≠ 0)
    (granted : Buffer.allocate length resource machine = (.ok buffer, middle))
    (written : buffer.fill bytes middle = (.ok done, after)) (whole : bytes.length = length) :
    Heap.Spares [] machine.heap after.heap ∧ after.heap.Holds (some buffer) bytes := by
  have allocated := allocate_spares formed granted
  obtain ⟨empty, _, _⟩ | ⟨_, address, rfl, handed⟩ := allocate_ok granted
  · exact absurd empty nonempty
  · have zeros := Heap.stored?_allocate_same handed
    obtain ⟨rfl, _, _, _⟩ := Heap.allocate_cases handed
    obtain ⟨filled, others⟩ := Heap.stored?_write (fill_ok written) zeros (by simpa using whole)
    refine ⟨fun base old found apart => ?_, ?_, by simp, ?_⟩
    · have different : base ≠ machine.heap.next := by
        rintro rfl
        rw [formed.stored?_fresh] at found
        contradiction
      rw [others base different]
      exact allocated base old found apart
    · rintro _ ⟨⟩
      exact whole.symm
    · rintro _ ⟨⟩
      exact filled

end Buffer

end DeviceColumns
