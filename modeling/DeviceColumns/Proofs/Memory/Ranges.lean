import DeviceColumns.Proofs.Custody.Runs
import DeviceColumns.Proofs.Memory.History

/-!
Range checks. An address belongs to the live block that starts there, or else to the one that holds
it. Live blocks lie apart, and even one without bytes shares its base with no other, so an address
belongs to one block at most and it does not matter in which order the registry is searched. A copy
of at least one byte is accepted exactly if one live block holds its whole range.
-/

namespace DeviceColumns

set_option autoImplicit false

open DeviceColumns.Action

namespace Heap

variable {heap other after : Heap} {address base size length : Nat} {bytes : Bytes} {block : Block}

/-- The block that an address belongs to is found in any registry with the same blocks. -/
theorem WellFormed.blockAt?_perm (formed : heap.WellFormed) (same : other.blocks.Perm heap.blocks)
    (address : Nat) : other.blockAt? address = heap.blockAt? address := by
  cases found : other.blockAt? address with
  | some block =>
      obtain ⟨live, owns⟩ := owns_of_blockAt? found
      exact (formed.blockAt?_eq (same.mem_iff.mp live) owns).symm
  | none =>
      cases elsewhere : heap.blockAt? address with
      | none => rfl
      | some block =>
          obtain ⟨live, owns⟩ := owns_of_blockAt? elsewhere
          exact absurd owns (blockAt?_eq_none found (same.mem_iff.mpr live))

theorem WellFormed.addressRange_iff (formed : heap.WellFormed) :
    heap.addressRange address = .ok (base, size) ↔
      ∃ block ∈ heap.blocks, block.span = (base, size) ∧ block.Owns address := by
  unfold addressRange
  cases found : heap.blockAt? address with
  | none =>
      constructor
      · rintro ⟨⟩
      · rintro ⟨block, live, -, owns⟩
        exact absurd owns (blockAt?_eq_none found live)
  | some block =>
      obtain ⟨live, owns⟩ := owns_of_blockAt? found
      constructor
      · intro same
        exact ⟨block, live, Except.ok.inj same, owns⟩
      · rintro ⟨second, secondLive, span, secondOwns⟩
        obtain rfl := formed.owner_unique live secondLive owns secondOwns
        exact congrArg Except.ok span

theorem memoryKind_iff : heap.memoryKind address = .device ↔
    ∃ block ∈ heap.blocks, block.Owns address := by
  unfold memoryKind
  cases found : heap.blockAt? address with
  | none =>
      constructor
      · rintro ⟨⟩
      · rintro ⟨block, live, owns⟩
        exact absurd owns (blockAt?_eq_none found live)
  | some block =>
      obtain ⟨live, owns⟩ := owns_of_blockAt? found
      exact ⟨fun _ => ⟨block, live, owns⟩, fun _ => rfl⟩

theorem WellFormed.read_iff (formed : heap.WellFormed) :
    (∃ bytes, heap.read address length = .ok bytes) ↔ length = 0 ∨ heap.Covers address length := by
  constructor
  · rintro ⟨bytes, done⟩
    unfold Heap.read at done
    split_ifs at done with empty
    · exact .inl empty
    · cases located : heap.locate address length with
      | error cause => simp [located, bind, Except.bind] at done
      | ok block => exact .inr ⟨block, locate_ok located⟩
  · intro readable
    obtain ⟨bytes, done, -⟩ :=
      formed.read_covered fun positive => readable.resolve_left (Nat.ne_of_gt positive)
    exact ⟨bytes, done⟩

theorem WellFormed.write_iff (formed : heap.WellFormed) :
    (∃ after, heap.write address bytes = .ok after) ↔
      bytes.length = 0 ∨ heap.Covers address bytes.length := by
  by_cases nothing : bytes = []
  · subst nothing
    exact ⟨fun _ => .inl rfl, fun _ => ⟨heap, rfl⟩⟩
  · have positive := List.length_pos_of_ne_nil nothing
    constructor
    · rintro ⟨after, written⟩
      obtain ⟨target, live, covers, -⟩ := write_cases written nothing
      exact .inr ⟨target, live, covers⟩
    · intro writable
      obtain ⟨target, live, covers⟩ := writable.resolve_left (Nat.ne_of_gt positive)
      unfold Heap.write
      rw [if_neg (by simpa using nothing), formed.locate_eq live covers positive]
      exact ⟨_, rfl⟩

end Heap

namespace Machine

variable {machine after : Machine} {address : Nat} {bytes : Bytes} {cause : DeviceError}

theorem write_ok_iff : (∃ after, write address bytes machine = (.ok (), after)) ↔
    ∃ heap, machine.heap.write address bytes = .ok heap := by
  unfold write
  cases written : machine.heap.write address bytes with
  | error cause => simp
  | ok heap => simp

theorem write_error (refused : write address bytes machine = (.error cause, after)) :
    after = machine := by
  unfold write at refused
  cases written : machine.heap.write address bytes with
  | error reason =>
      rw [written] at refused
      exact (Prod.mk.inj refused).2.symm
  | ok heap =>
      rw [written] at refused
      cases refused

end Machine

namespace Session

variable {session : Session}

/-- Range checks are exact. A copy out of memory or into it is accepted if it has no bytes or one
live block holds all of its range, and not otherwise. An address is answered with the one live block
that it belongs to, in whatever order the blocks are registered, and its memory is device memory
exactly if there is such a block. Reading changes nothing, and neither does a copy that is
refused. -/
structure RangesChecked (session : Session) : Prop where
  reads : ∀ address length,
    (∃ bytes, (Machine.read address length session.machine).1 = .ok bytes) ↔
      length = 0 ∨ session.machine.heap.Covers address length
  sized : ∀ address length bytes,
    (Machine.read address length session.machine).1 = .ok bytes → bytes.length = length
  copies : ∀ address bytes,
    (∃ after, Machine.write address bytes session.machine = (.ok (), after)) ↔
      bytes.length = 0 ∨ session.machine.heap.Covers address bytes.length
  ranges : ∀ address base size, session.machine.heap.addressRange address = .ok (base, size) ↔
    ∃ block ∈ session.machine.heap.blocks, block.span = (base, size) ∧ block.Owns address
  unique : ∀ address, ∀ first ∈ session.machine.heap.blocks,
    ∀ second ∈ session.machine.heap.blocks,
      first.Owns address → second.Owns address → first = second
  orderless : ∀ other : Heap, other.blocks.Perm session.machine.heap.blocks → ∀ address,
    other.addressRange address = session.machine.heap.addressRange address ∧
      other.memoryKind address = session.machine.heap.memoryKind address ∧
      ∀ length, other.locate address length = session.machine.heap.locate address length
  kinds : ∀ address, session.machine.heap.memoryKind address = .device ↔
    ∃ block ∈ session.machine.heap.blocks, block.Owns address
  pure : ∀ address length, (Machine.read address length session.machine).2 = session.machine
  refused : ∀ address bytes cause after,
    Machine.write address bytes session.machine = (.error cause, after) → after = session.machine

theorem Reached.ranges_checked (reached : session.Reached) : session.RangesChecked where
  reads := fun address length => reached.wellFormed.read_iff
  sized := by
    intro address length bytes done
    obtain ⟨found, read, counted⟩ := reached.wellFormed.read_covered fun positive =>
      (reached.wellFormed.read_iff.mp ⟨bytes, done⟩).resolve_left (Nat.ne_of_gt positive)
    cases read.symm.trans done
    exact counted
  copies := by
    intro address bytes
    rw [Machine.write_ok_iff]
    exact reached.wellFormed.write_iff
  ranges := fun address base size => reached.wellFormed.addressRange_iff
  unique := fun address first live second secondLive =>
    reached.wellFormed.owner_unique live secondLive
  orderless := by
    intro other same address
    have found := reached.wellFormed.blockAt?_perm same address
    refine ⟨?_, ?_, fun length => ?_⟩
    · rw [Heap.addressRange, Heap.addressRange, found]
    · rw [Heap.memoryKind, Heap.memoryKind, found]
    · rw [Heap.locate, Heap.locate, found]
  kinds := fun address => Heap.memoryKind_iff
  pure := fun address length => rfl
  refused := fun address bytes cause after => Machine.write_error

/-- Two blocks, the second of them without bytes. -/
def paired : Session :=
  ((initial.perform (.allocate "a" 8 "plain")).2.perform (.allocate "b" 0 "plain")).2

theorem Reached.ranges_checked_paired :
    paired.RangesChecked ∧
      (Machine.read (arenaStart + 4) 4 paired.machine).1.toOption = some [0, 0, 0, 0] ∧
      (Machine.read (arenaStart + 4) 5 paired.machine).1.toOption = none ∧
      paired.machine.heap.addressRange (arenaStart + 128) = .ok (arenaStart + 128, 0) := by
  have reached : Reached paired :=
    (Reached.initial.step (.allocate "a" 8 "plain")).step (.allocate "b" 0 "plain")
  exact ⟨reached.ranges_checked, by decide +kernel, by decide +kernel, rfl⟩

end Session

end DeviceColumns
