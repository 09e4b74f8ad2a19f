import DeviceColumns.Proofs.Custody.Runs
import DeviceColumns.Proofs.Kernel.Conversions
import DeviceColumns.Proofs.Memory.Ranges

/-!
Where a kernel may take its source from. A range that one live block holds is still there when it is
read, so nothing can fail but the allocation of the output. Any other range is refused, unless it
lies in the output itself; the output is in memory by then and is given back.
-/

namespace DeviceColumns

set_option autoImplicit false

open DeviceColumns.Action

namespace Heap

variable {heap after : Heap} {base size address length : Nat} {bytes : Bytes} {block : Block}
  {rest : List Block} {cause : DeviceError}

theorem locate_error (missed : heap.locate address length = .error cause) :
    cause.kind = .invalidArgument := by
  unfold locate at missed
  split at missed
  · cases missed
    rfl
  · split_ifs at missed
    cases missed
    rfl

theorem read_error (refused : heap.read address length = .error cause) :
    cause.kind = .invalidArgument := by
  unfold Heap.read at refused
  split_ifs at refused
  cases located : heap.locate address length with
  | error reason =>
      rw [located] at refused
      cases refused
      exact locate_error located
  | ok block =>
      rw [located] at refused
      cases refused

/-- After an allocation one more block can hold a range, and nothing else has changed. -/
theorem covers_allocate (granted : heap.allocate size = .ok (base, after)) :
    after.Covers address length ↔
      Block.Covers ⟨base, Array.replicate size 0⟩ address length ∨ heap.Covers address length := by
  simp only [Covers, (allocate_blocks granted).2.2, List.exists_mem_cons_iff]

theorem WellFormed.read_still (formed : heap.WellFormed) (afterFormed : after.WellFormed)
    (newest : after.blocks = block :: heap.blocks)
    (covers : 0 < length → heap.Covers address length) :
    after.read address length = heap.read address length := by
  obtain empty | positive := Nat.eq_zero_or_pos length
  · rw [empty]
    rfl
  · obtain ⟨older, live, within⟩ := covers positive
    have still : older ∈ after.blocks := newest ▸ List.mem_cons_of_mem _ live
    rw [formed.read_of_mem live within positive, afterFormed.read_of_mem still within positive]

/-- The newest block takes in as many bytes as it has. -/
theorem WellFormed.write_newest (formed : heap.WellFormed) (newest : heap.blocks = block :: rest)
    (whole : bytes.length = block.size) (nonempty : bytes ≠ []) :
    ∃ after, heap.write block.base bytes = .ok after ∧
      after.blocks = ⟨block.base, bytes.toArray⟩ :: rest ∧ after.next = heap.next := by
  have live : block ∈ heap.blocks := newest ▸ List.mem_cons_self
  have covers : block.Covers block.base bytes.length :=
    ⟨Nat.le_refl _, Nat.add_le_add_left (Nat.le_of_eq whole) _⟩
  have replaced : block.write 0 bytes = ⟨block.base, bytes.toArray⟩ := Block.write_whole whole
  have others : ∀ other ∈ rest, ¬other.base = block.base := by
    intro other member same
    have bases := formed.bases_nodup
    rw [spans, List.map_map, newest, List.map_cons, List.nodup_cons] at bases
    exact bases.1 (List.mem_map.mpr ⟨other, member, same⟩)
  unfold Heap.write
  rw [if_neg (by simpa using nonempty),
    formed.locate_eq live covers (List.length_pos_of_ne_nil nonempty)]
  refine ⟨_, rfl, ?_, rfl⟩
  rw [newest, List.map_cons, if_pos rfl, Nat.sub_self, replaced,
    List.map_congr_left fun other member => if_neg (others other member), List.map_id']

theorem blocks_free_newest (newest : heap.blocks = block :: rest) :
    (heap.free block.base).blocks = rest := by
  rw [free, newest, List.eraseP_cons_of_pos (by simp)]

end Heap

/-- The block of `size` bytes at an address is handed out and taken back: memory is as it was, and
each of the ledgers on the way has booked both. -/
structure Resource.GivenBack (resource : Resource) (address size : Nat) (before after : Machine) :
    Prop where
  blocks : after.heap.blocks = before.heap.blocks
  mappings : after.mappings = before.mappings
  booked : ∀ id ∈ resource.ledgers, after.ledger id =
    ((before.ledger id).recordAllocation address size).recordFree address
  untouched : ∀ id, id ∉ resource.ledgers → after.ledger id = before.ledger id

namespace Buffer

variable {machine middle after : Machine} {resource : Resource} {buffer made : Buffer}
  {size source length : Nat} {convert : Bytes → Bytes} {given : Bytes} {cause : DeviceError}

theorem allocate_cases (nonempty : size ≠ 0) (resource : Resource) (machine : Machine) :
    (∃ cause, machine.heap.allocate size = .error cause ∧
      allocate size resource machine = (.error cause, machine)) ∨
    ∃ middle, machine.heap.allocate size = .ok (machine.heap.next, middle.heap) ∧
      allocate size resource machine =
        (.ok ⟨some machine.heap.next, size, resource⟩, middle) := by
  unfold allocate
  rw [if_neg nonempty]
  rcases ran : resource.allocate size machine with ⟨cause | address, middle⟩
  · rw [bind_error ran, Resource.allocate_error ran]
    exact .inl ⟨cause, Resource.allocate_denied ran, rfl⟩
  · have handed := Resource.allocate_heap ran
    obtain ⟨rfl, -⟩ := Heap.allocate_cases handed
    rw [bind_ok ran]
    exact .inr ⟨middle, handed, rfl⟩

theorem free_allocated (sound : resource.Sound machine.ledgers.length) (nonempty : size ≠ 0)
    (granted : allocate size resource machine = (.ok buffer, middle)) :
    resource.GivenBack machine.heap.next size machine (buffer.free middle) := by
  unfold allocate at granted
  rw [if_neg nonempty] at granted
  obtain ⟨address, middle, handed, returned⟩ := bind_eq_ok granted
  cases returned
  obtain ⟨taken, frame⟩ := Resource.allocate_ok sound handed
  obtain ⟨rfl, -, blocks⟩ := Heap.allocate_blocks taken
  have sizes : ∀ id ∈ resource.ledgers,
      (middle.ledger id).size? machine.heap.next = some size := by
    intro id passed
    rw [frame.booked id passed, Ledger.size?_recordAllocation_same]
  obtain ⟨heap, books⟩ := Machine.freeThrough_booked sound.distinct sizes
  have freed := Machine.freeFrame_freeThrough resource.ledgers machine.heap.next size middle
  constructor
  · exact (congrArg Heap.blocks heap).trans (Heap.blocks_free_newest blocks)
  · exact freed.mappings.trans frame.mappings
  · intro id passed
    exact (books id passed).trans (by rw [frame.booked id passed])
  · exact fun id missed => (freed.untouched id missed).trans (frame.untouched id missed)

theorem ofSource_refused
    (refused : allocate size resource machine = (.error cause, after)) :
    ofSource size source length convert resource machine = (.error cause, after) := by
  rw [ofSource, bind_error refused]

theorem ofSource_unread (nonempty : size ≠ 0)
    (granted : allocate size resource machine = (.ok buffer, middle))
    (unread : middle.heap.read source length = .error cause) :
    ofSource size source length convert resource machine = (.error cause, buffer.free middle) := by
  rw [ofSource, bind_ok granted, if_neg nonempty]
  apply bind_error
  rw [undoOnFailure, Machine.read, unread]

theorem ofSource_read (formed : machine.heap.WellFormed) (nonempty : size ≠ 0)
    (granted : allocate size resource machine = (.ok buffer, middle))
    (copied : middle.heap.read source length = .ok given)
    (whole : (convert given).length = size) :
    ∃ after, ofSource size source length convert resource machine = (.ok buffer, after) ∧
      after.heap.blocks = ⟨machine.heap.next, (convert given).toArray⟩ :: machine.heap.blocks ∧
      after.heap.WellFormed := by
  obtain ⟨empty, -⟩ | ⟨-, address, rfl, handed⟩ := allocate_ok granted
  · exact absurd empty nonempty
  obtain ⟨rfl, -, blocks⟩ := Heap.allocate_blocks handed
  have inhabited : convert given ≠ [] := List.ne_nil_of_length_pos (by omega)
  obtain ⟨heap, written, contents, -⟩ := (formed.allocate handed).write_newest blocks
    (by simpa [Block.size] using whole) inhabited
  refine ⟨{ middle with heap := heap }, ?_, contents, (formed.allocate handed).write written⟩
  rw [ofSource, bind_ok granted, if_neg nonempty]
  have read : (Machine.read source length).undoOnFailure
      (Buffer.free ⟨some machine.heap.next, size, resource⟩) middle = (.ok given, middle) := by
    rw [undoOnFailure, Machine.read, copied]
  have filled : fill ⟨some machine.heap.next, size, resource⟩ (convert given) middle =
      (.ok (), { middle with heap := heap }) := by
    simp only [fill, undoOnFailure, Machine.write, pointer, Option.getD_some, written]
  rw [bind_ok read, bind_ok filled]
  rfl

/-- What becomes of a conversion of the `length` bytes at `source` to `size` bytes, where `relates`
says what the result has to do with them. With nothing to make, nothing is allocated. A source that
one live block holds is converted and not changed, and only the device can refuse, before anything
has changed. If no live block holds the source, and neither would the output, the conversion is
refused, and the output is given back if it was there at all. -/
structure Converts (machine : Machine) (resource : Resource) (source length size : Nat)
    (relates : Bytes → Bytes → Prop) (run : MemoryAction Buffer) : Prop where
  nothing : size = 0 → run machine = (.ok ⟨none, 0, resource⟩, machine)
  made : (0 < length → machine.heap.Covers source length) →
    ∀ buffer after, run machine = (.ok buffer, after) → buffer.length = size ∧
      ∃ given result, machine.heap.read source length = .ok given ∧ given.length = length ∧
        buffer.read after.heap = .ok result ∧ result.length = size ∧ relates given result ∧
        after.heap.read source length = .ok given ∧
        ∀ block ∈ machine.heap.blocks, block ∈ after.heap.blocks
  refused : (0 < length → machine.heap.Covers source length) →
    ∀ cause after, run machine = (.error cause, after) →
      machine.heap.allocate size = .error cause ∧ after = machine
  unread : 0 < length → ¬machine.heap.Covers source length →
    ¬(machine.heap.next ≤ source ∧ source + length ≤ machine.heap.next + size) →
      ∃ cause after, run machine = (.error cause, after) ∧
        ((machine.heap.allocate size = .error cause ∧ after = machine) ∨
          (cause.kind = .invalidArgument ∧
            resource.GivenBack machine.heap.next size machine after))

variable {relates : Bytes → Bytes → Prop}

theorem ofSource_nothing (source length : Nat) (convert : Bytes → Bytes) (resource : Resource)
    (machine : Machine) :
    ofSource 0 source length convert resource machine = (.ok ⟨none, 0, resource⟩, machine) := rfl

/-- A source that one live block holds is converted unless the device refuses the output. -/
theorem ofSource_covered (resource : Resource) (formed : machine.heap.WellFormed)
    (nonempty : size ≠ 0) (covers : 0 < length → machine.heap.Covers source length)
    (sized : ∀ given, given.length = length → (convert given).length = size) :
    (∃ cause, machine.heap.allocate size = .error cause ∧
      ofSource size source length convert resource machine = (.error cause, machine)) ∨
    ∃ given after, machine.heap.read source length = .ok given ∧ given.length = length ∧
      ofSource size source length convert resource machine =
        (.ok ⟨some machine.heap.next, size, resource⟩, after) ∧
      after.heap.blocks = ⟨machine.heap.next, (convert given).toArray⟩ :: machine.heap.blocks ∧
      after.heap.WellFormed := by
  obtain ⟨cause, denied, refused⟩ | ⟨middle, handed, granted⟩ :=
    allocate_cases nonempty resource machine
  · exact .inl ⟨cause, denied, ofSource_refused refused⟩
  · obtain ⟨given, read, counted⟩ := formed.read_covered covers
    obtain ⟨-, -, newest⟩ := Heap.allocate_blocks handed
    have still := formed.read_still (formed.allocate handed) newest covers
    obtain ⟨after, ran, blocks, later⟩ :=
      ofSource_read formed nonempty granted (still.trans read) (sized given counted)
    exact .inr ⟨given, after, read, counted, ran, blocks, later⟩

theorem ofSource_converts (formed : machine.heap.WellFormed)
    (sound : resource.Sound machine.ledgers.length) (empty : size = 0 ↔ length = 0)
    (meets : ∀ given, given.length = length →
      (convert given).length = size ∧ relates given (convert given)) :
    Converts machine resource source length size relates
      (ofSource size source length convert resource) where
  nothing := by
    rintro rfl
    exact ofSource_nothing source length convert resource machine
  made := by
    intro covers buffer after ran
    by_cases none : size = 0
    · obtain rfl := empty.mp none
      subst none
      cases ran
      obtain ⟨nothing, meant⟩ := meets [] rfl
      rw [List.eq_nil_of_length_eq_zero nothing] at meant
      exact ⟨rfl, [], [], rfl, rfl, rfl, rfl, meant, rfl, fun block live => live⟩
    · obtain ⟨cause, -, refused⟩ | ⟨given, final, read, counted, made, blocks, later⟩ :=
        ofSource_covered resource formed none covers fun given counted =>
          (meets given counted).1
      · rw [refused] at ran
        cases ran
      · obtain ⟨whole, meant⟩ := meets given counted
        have kept : ∀ block ∈ machine.heap.blocks, block ∈ final.heap.blocks := by
          intro block live
          rw [blocks]
          exact List.mem_cons_of_mem _ live
        have still := formed.read_still later blocks covers
        have stored := later.stored?_base (blocks ▸ List.mem_cons_self)
        have result := Heap.read_stored stored (Nat.le_of_eq whole.symm)
        rw [List.take_of_length_le (Nat.le_of_eq whole)] at result
        rw [made] at ran
        cases ran
        exact ⟨rfl, given, convert given, read, counted, result, whole, meant, still.trans read, kept⟩
  refused := by
    intro covers cause after ran
    by_cases none : size = 0
    · subst none
      cases ran
    · obtain ⟨cause, denied, refused⟩ | ⟨given, final, -, -, made, -⟩ :=
        ofSource_covered resource formed none covers fun given counted =>
          (meets given counted).1
      · rw [refused] at ran
        cases ran
        exact ⟨denied, rfl⟩
      · rw [made] at ran
        cases ran
  unread := by
    intro positive missed outside
    have nonempty : size ≠ 0 := fun none => Nat.ne_of_gt positive (empty.mp none)
    obtain ⟨cause, denied, refused⟩ | ⟨middle, handed, granted⟩ :=
      allocate_cases nonempty resource machine
    · exact ⟨cause, machine, ofSource_refused refused, .inl ⟨denied, rfl⟩⟩
    · cases read : middle.heap.read source length with
      | error cause =>
          exact ⟨cause, _, ofSource_unread nonempty granted read,
            .inr ⟨Heap.read_error read, free_allocated sound nonempty granted⟩⟩
      | ok bytes =>
          have readable := (formed.allocate handed).read_iff.mp ⟨bytes, read⟩
          have held := readable.resolve_left (Nat.ne_of_gt positive)
          obtain inside | old := (Heap.covers_allocate handed).mp held
          · simp only [Block.Covers, Block.size, Array.size_replicate] at inside
            exact absurd inside outside
          · exact absurd old missed

end Buffer

end DeviceColumns
