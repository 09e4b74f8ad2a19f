import DeviceColumns.Proofs.Custody.Columns
import DeviceColumns.Proofs.Memory.History
import DeviceColumns.Proofs.Sharing.Opening

/-!
What can happen to blocks that existed before. Seen from an earlier heap, a base is loose if its
block is newer than that heap or was given away on purpose. An operation is confined as long as it
frees nothing but loose blocks and copies into nothing but newer ones; then every old block that was
not given away is what it was. Buffers that are allocated on the way are loose, so construction and
conversion of columns stay confined whatever they are made from.
-/

namespace DeviceColumns

set_option autoImplicit false

open DeviceColumns.Action

namespace Heap

/-- The block with this base is newer than the heap, or was given away. -/
def Loose (first : Heap) (given : Set Nat) (base : Nat) : Prop :=
  first.next ≤ base ∨ base ∈ given

/-- Between the two heaps, nothing but loose blocks was freed, and nothing old was copied into. -/
def Since (first : Heap) (given : Set Nat) (heap : Heap) : Prop :=
  ∃ events, History first events heap ∧
    (∀ base, .freed base ∈ events → first.Loose given base) ∧
    ∀ address bytes, .copied address bytes ∈ events → first.next ≤ address

variable {first heap after : Heap} {given : Set Nat} {base address size : Nat} {bytes : Bytes}
  {block : Block}

namespace Since

theorem refl (first : Heap) (given : Set Nat) : Since first given first :=
  ⟨[], .start, by simp, by simp⟩

theorem next_le (since : Since first given heap) : first.next ≤ heap.next := by
  obtain ⟨events, history, -, -⟩ := since
  exact history.next_le

theorem wellFormed (since : Since first given heap) (formed : first.WellFormed) :
    heap.WellFormed := by
  obtain ⟨events, history, -, -⟩ := since
  exact history.wellFormed formed

theorem allocate (since : Since first given heap)
    (granted : heap.allocate size = .ok (base, after)) :
    first.next ≤ base ∧ Since first given after := by
  have newer := since.next_le
  obtain ⟨rfl, _, _⟩ := allocate_blocks granted
  obtain ⟨events, history, frees, copies⟩ := since
  exact ⟨newer, _, history.next (.allocated granted), by simpa using frees, by simpa using copies⟩

theorem free (since : Since first given heap) (loose : first.Loose given base) :
    Since first given (heap.free base) := by
  obtain ⟨events, history, frees, copies⟩ := since
  refine ⟨.freed base :: events, history.next (.freed heap base), fun other freed => ?_,
    by simpa using copies⟩
  obtain same | earlier := List.mem_cons.mp freed
  · cases same
    exact loose
  · exact frees other earlier

theorem write (since : Since first given heap) (newer : first.next ≤ address)
    (written : heap.write address bytes = .ok after) : Since first given after := by
  obtain ⟨events, history, frees, copies⟩ := since
  refine ⟨_, history.next (.copied written), by simpa using frees, fun place other copied => ?_⟩
  obtain same | earlier := List.mem_cons.mp copied
  · cases same
    exact newer
  · exact copies place other earlier

theorem keeps_block (since : Since first given heap) (formed : first.WellFormed)
    (live : block ∈ first.blocks) (kept : block.base ∉ given) : block ∈ heap.blocks := by
  obtain ⟨events, history, frees, copies⟩ := since
  refine history.keeps_block formed live (fun freed => ?_) fun address bytes copied =>
    .inl (copies address bytes copied)
  exact (frees _ freed).elim (Nat.not_le_of_lt (formed.base_lt live)) kept

theorem had_block (since : Since first given heap) (formed : first.WellFormed)
    (live : block ∈ heap.blocks) (older : block.base < first.next) : block ∈ first.blocks := by
  obtain ⟨events, history, -, copies⟩ := since
  exact history.had_block formed live older fun address bytes copied =>
    .inl (copies address bytes copied)

end Since

/-- No block starts at address zero, so nothing can be copied there. -/
theorem WellFormed.write_zero (formed : heap.WellFormed)
    (written : heap.write 0 bytes = .ok after) : after = heap := by
  by_cases nothing : bytes = []
  · subst nothing
    exact write_nothing written
  · obtain ⟨target, live, covers, _⟩ := write_cases written nothing
    have above := formed.above _ (WellFormed.span_mem live)
    simp only [Block.span, arenaStart] at above
    simp only [Block.Covers] at covers
    omega

end Heap

/-- The blocks of all buffers in the holdings are loose. -/
def Holdings.Loose (first : Heap) (given : Set Nat) (held : Holdings) : Prop :=
  ∀ buffer ∈ held.1, ∀ base, buffer.address = some base → first.Loose given base

/-- Only loose blocks have been freed, and the holdings are of loose blocks. -/
structure Confinement (first : Heap) (given : Set Nat) (held : Holdings) (machine : Machine) :
    Prop where
  since : first.Since given machine.heap
  loose : held.Loose first given

variable {first : Heap} {given : Set Nat}

namespace Holdings.Loose

variable {held other : Holdings} {buffer : Buffer} {buffers : List Buffer}

theorem zero : Holdings.Loose first given 0 :=
  fun _ member => absurd member (Multiset.notMem_zero _)

theorem add_iff : (held + other).Loose first given ↔
    held.Loose first given ∧ other.Loose first given := by
  constructor
  · intro loose
    exact ⟨fun buffer member => loose buffer (Multiset.mem_add.mpr (.inl member)),
      fun buffer member => loose buffer (Multiset.mem_add.mpr (.inr member))⟩
  · rintro ⟨left, right⟩ buffer member
    obtain here | there := Multiset.mem_add.mp member
    · exact left buffer here
    · exact right buffer there

theorem alone (loose : held.Loose first given) : (0 + held).Loose first given :=
  add_iff.mpr ⟨.zero, loose⟩

theorem ofMappings (mappings : List Mapping) : (Holdings.ofMappings mappings).Loose first given :=
  fun _ member => absurd member (Multiset.notMem_zero _)

theorem single (loose : ∀ base, buffer.address = some base → first.Loose given base) :
    (ofBuffers [buffer]).Loose first given := by
  intro other member
  obtain rfl := List.mem_singleton.mp member
  exact loose

end Holdings.Loose

namespace Confinement

variable {held : Holdings} {machine : Machine} {resource : Resource} {buffer : Buffer}

theorem free (confined : Confinement first given (held + .ofBuffers [buffer]) machine) :
    Confinement first given held (buffer.free machine) := by
  obtain ⟨others, own⟩ := Holdings.Loose.add_iff.mp confined.loose
  unfold Buffer.free
  cases place : buffer.address with
  | none => exact ⟨confined.since, others⟩
  | some address =>
      have frame :=
        Machine.freeFrame_freeThrough buffer.resource.ledgers address buffer.length machine
      have loose := own buffer (List.mem_singleton_self buffer) address place
      refine ⟨?_, others⟩
      simp only [Resource.free]
      obtain same | freed := frame.heap
      · rw [same]
        exact confined.since
      · rw [freed]
        exact confined.since.free loose

theorem allocate (held : Holdings) (length : Nat) :
    Triple (Confinement first given held) (Buffer.allocate length resource)
      (fun buffer machine => (∀ base, buffer.address = some base → first.next ≤ base) ∧
        Confinement first given (held + .ofBuffers [buffer]) machine)
      (Confinement first given held) := by
  intro machine confined
  have joined {buffer : Buffer} {after : Machine} (since : first.Since given after.heap)
      (newer : ∀ base, buffer.address = some base → first.next ≤ base) :
      Confinement first given (held + .ofBuffers [buffer]) after :=
    ⟨since, Holdings.Loose.add_iff.mpr
      ⟨confined.loose, .single fun base place => .inl (newer base place)⟩⟩
  unfold Buffer.allocate
  split_ifs with empty
  · exact ⟨by simp, joined confined.since (by simp)⟩
  · rw [bind_apply]
    rcases ran : resource.allocate length machine with ⟨cause | address, after⟩
    · rw [Resource.allocate_error ran]
      exact confined
    · obtain ⟨newer, since⟩ := confined.since.allocate (Resource.allocate_heap ran)
      have placed (base : Nat) (same : some address = some base) : first.next ≤ base := by
        cases same
        exact newer
      exact ⟨placed, joined since placed⟩

theorem write (formed : first.WellFormed)
    (newer : ∀ base, buffer.address = some base → first.next ≤ base) (held : Holdings)
    (bytes : Bytes) :
    Triple (Confinement first given held) (Machine.write buffer.pointer bytes)
      (fun _ => Confinement first given held) (Confinement first given held) := by
  intro machine confined
  unfold Machine.write
  cases written : machine.heap.write buffer.pointer bytes with
  | error cause => exact confined
  | ok heap =>
      refine ⟨?_, confined.loose⟩
      rw [Buffer.pointer] at written
      cases place : buffer.address with
      | none =>
          rw [place] at written
          have same := (confined.since.wellFormed formed).write_zero written
          exact same ▸ confined.since
      | some base =>
          rw [place] at written
          exact confined.since.write (newer base place) written

/-- Buffers are recent as long as they are newer than the first heap. -/
theorem custodial (formed : first.WellFormed) (given : Set Nat) :
    Custodial (Confinement first given) (fun _ => True)
      fun buffer => ∀ base, buffer.address = some base → first.next ≤ base where
  allocate := fun _ held length => allocate held length
  write := fun newer _ bytes => write formed newer _ bytes
  free := free
  createEvent := fun confined => ⟨confined.since, confined.loose⟩
  opens := fun base confined =>
    ⟨confined.since, Holdings.Loose.add_iff.mpr ⟨confined.loose, .ofMappings _⟩⟩
  closes := by
    intro held mapping machine confined
    have since := confined.since
    rw [← mapping.close_heap] at since
    exact ⟨since, (Holdings.Loose.add_iff.mp confined.loose).1⟩

end Confinement

end DeviceColumns
