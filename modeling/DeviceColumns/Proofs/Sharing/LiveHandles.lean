import DeviceColumns.Proofs.Isolation.Runs
import DeviceColumns.Proofs.Sharing.Handles

/-!
Handles name exactly the live blocks. The first 28 bytes of a handle are its four fields, and it is
accepted if they are those of the handle that is issued for some live block. Bases are never handed
out twice, so a handle whose block was freed stays refused.
-/

namespace DeviceColumns

set_option autoImplicit false

namespace Handle

variable {handle other : Handle} {heap : Heap}

/-- The length of the four fields. What stands behind them is not looked at. -/
def fieldBytes : Nat := 28

theorem ofNat_number {offset width : Nat} (inside : offset + width ≤ 64) :
    Bytes.ofNat width (handle.number offset width) = (handle.bytes.drop offset).take width := by
  have length : ((handle.bytes.drop offset).take width).length = width := by
    rw [List.length_take, List.length_drop, handle.length_eq]
    omega
  have kept := Bytes.ofNat_toNat ((handle.bytes.drop offset).take width)
  rwa [length] at kept

/-- The four fields fill the first bytes of the handle. -/
theorem take_fieldBytes (handle : Handle) : handle.bytes.take fieldBytes =
    handle.bytes.take 8 ++ Bytes.ofNat 4 handle.process ++ Bytes.ofNat 8 handle.base ++
      Bytes.ofNat 8 handle.size := by
  rw [process, base, size, ofNat_number (by decide), ofNat_number (by decide),
    ofNat_number (by decide), ← List.take_add, ← List.take_add, ← List.take_add]
  rfl

theorem number_eq_of_take {offset width : Nat}
    (same : handle.bytes.take fieldBytes = other.bytes.take fieldBytes)
    (inside : offset + width ≤ fieldBytes) :
    handle.number offset width = other.number offset width := by
  have front (bytes : Bytes) :
      ((bytes.take fieldBytes).drop offset).take width = (bytes.drop offset).take width := by
    rw [List.drop_take, List.take_take, Nat.min_eq_left (by omega)]
  rw [number, number, ← front, same, front]

theorem take_fieldBytes_iff : handle.bytes.take fieldBytes = other.bytes.take fieldBytes ↔
    handle.bytes.take 8 = other.bytes.take 8 ∧ handle.process = other.process ∧
      handle.base = other.base ∧ handle.size = other.size := by
  constructor
  · intro same
    have front (bytes : Bytes) : (bytes.take fieldBytes).take 8 = bytes.take 8 := by
      rw [List.take_take, Nat.min_eq_left (by decide)]
    refine ⟨?_, number_eq_of_take same (by decide), number_eq_of_take same (by decide),
      number_eq_of_take same (by decide)⟩
    rw [← front, same, front]
  · rintro ⟨magics, processes, bases, sizes⟩
    rw [take_fieldBytes, take_fieldBytes other, magics, processes, bases, sizes]

theorem check_iff : handle.check heap = .ok () ↔
    handle.bytes.take 8 = magic ∧ handle.process = processId ∧
      ∃ block, heap.blockFrom? handle.base = some block ∧ block.size = handle.size := by
  unfold check
  split_ifs with foreign elsewhere
  · simp [foreign]
  · simp [elsewhere]
  · rw [not_not] at foreign elsewhere
    cases found : heap.blockFrom? handle.base with
    | none => simp
    | some block => simp [foreign, elsewhere]

theorem take_issue_iff {base size : Nat} (bounded : base + size < 2 ^ 64) :
    handle.bytes.take fieldBytes = (issue base size).bytes.take fieldBytes ↔
      handle.bytes.take 8 = magic ∧ handle.process = processId ∧ handle.base = base ∧
        handle.size = size := by
  rw [take_fieldBytes_iff, issue_magic, issue_process, issue_base (by omega),
    issue_size (by omega)]

end Handle

namespace Heap

variable {heap : Heap} {address : Nat}

theorem WellFormed.handleAt_ok (formed : heap.WellFormed) {exported : HandleAt}
    (issued : heap.handleAt address = .ok exported) :
    ∃ block ∈ heap.blocks, exported = ⟨.issue block.base block.size, address - block.base⟩ := by
  cases found : heap.blockAt? address with
  | none => simp [handleAt, addressRange, found, bind, Except.bind] at issued
  | some block =>
      have live := (owns_of_blockAt? found).1
      simp only [handleAt, addressRange, found, issueHandle, bind, Except.bind,
        formed.blockFrom?_base live] at issued
      exact ⟨block, live, (Except.ok.inj issued).symm⟩

end Heap

namespace Mapping

variable {handle : Handle} {machine after : Machine} {base : Nat}

theorem openHandle_ok_iff : (∃ after, openHandle handle machine = (.ok ⟨base⟩, after)) ↔
    handle.check machine.heap = .ok () ∧ handle.base = base := by
  unfold openHandle
  cases checked : handle.check machine.heap with
  | error cause => simp
  | ok done => simp

theorem openHandle_error {cause : DeviceError}
    (refused : openHandle handle machine = (.error cause, after)) : after = machine := by
  unfold openHandle at refused
  cases checked : handle.check machine.heap with
  | error cause =>
      rw [checked] at refused
      cases refused
      rfl
  | ok done =>
      rw [checked] at refused
      cases refused

/-- A handle is accepted if its fields are those of a handle that is issued for a live block. -/
theorem openHandle_iff (formed : machine.heap.WellFormed) :
    (∃ after, openHandle handle machine = (.ok ⟨base⟩, after)) ↔
      ∃ block ∈ machine.heap.blocks, block.base = base ∧ handle.bytes.take Handle.fieldBytes =
        (Handle.issue block.base block.size).bytes.take Handle.fieldBytes := by
  rw [openHandle_ok_iff, Handle.check_iff]
  constructor
  · rintro ⟨⟨magic, process, block, found, sized⟩, rfl⟩
    obtain ⟨live, based⟩ := Heap.blockFrom?_some found
    exact ⟨block, live, based, (Handle.take_issue_iff (formed.bounded live)).mpr
      ⟨magic, process, based.symm, sized.symm⟩⟩
  · rintro ⟨block, live, rfl, same⟩
    obtain ⟨magic, process, based, sized⟩ :=
      (Handle.take_issue_iff (formed.bounded live)).mp same
    exact ⟨⟨magic, process, block, based ▸ formed.blockFrom?_base live, sized.symm⟩, based⟩

theorem openHandle_names (formed : machine.heap.WellFormed) :
    (∃ after, openHandle handle machine = (.ok ⟨base⟩, after)) ↔
      machine.heap.isLive base = true ∧ ∃ exported, machine.heap.handleAt base = .ok exported ∧
        handle.bytes.take Handle.fieldBytes = exported.handle.bytes.take Handle.fieldBytes := by
  rw [openHandle_iff formed]
  constructor
  · rintro ⟨block, live, rfl, same⟩
    have lives := Heap.isLive_iff.mpr ⟨block.span, Heap.WellFormed.span_mem live, rfl⟩
    exact ⟨lives, _, formed.handleAt_eq live (.inl rfl), same⟩
  · rintro ⟨lives, exported, issued, same⟩
    obtain ⟨block, live, rfl⟩ := Heap.block_of_isLive lives
    rw [formed.handleAt_eq live (.inl rfl)] at issued
    cases issued
    exact ⟨block, live, rfl, same⟩

end Mapping

namespace Session

variable {session first : Session} {copies : List (Nat × Bytes)}

/-- Handles name exactly the live blocks. Every address of a live block is reached through a handle
that opens. A handle opens if its fields are those of the handle that is issued for a live block, and
then it opens this block. Once its block was freed a handle is refused for good, one with other
fields never opens the block, and a handle that is refused changes nothing. -/
structure HandlesNameBlocks (session : Session) : Prop where
  exports : ∀ block ∈ session.machine.heap.blocks, ∀ address,
    block.base = address ∨ block.holds address = true →
      ∃ exported after, session.machine.heap.handleAt address = .ok exported ∧
        Mapping.openHandle exported.handle session.machine = (.ok ⟨block.base⟩, after) ∧
        block.base + exported.offset = address
  opens : ∀ handle base,
    (∃ after, Mapping.openHandle handle session.machine = (.ok ⟨base⟩, after)) ↔
      session.machine.heap.isLive base = true ∧
      ∃ exported, session.machine.heap.handleAt base = .ok exported ∧
        handle.bytes.take Handle.fieldBytes = exported.handle.bytes.take Handle.fieldBytes
  stale : ∀ address exported, session.machine.heap.handleAt address = .ok exported →
    ∀ copies freed, Leads session copies freed →
      freed.machine.heap.isLive exported.handle.base = false →
      ∀ more later, Leads freed more later →
        ∃ cause, Mapping.openHandle exported.handle later.machine = (.error cause, later.machine)
  altered : ∀ address exported, session.machine.heap.handleAt address = .ok exported →
    ∀ handle : Handle,
      handle.bytes.take Handle.fieldBytes ≠ exported.handle.bytes.take Handle.fieldBytes →
    ∀ copies later, Leads session copies later →
    ∀ base after, Mapping.openHandle handle later.machine = (.ok ⟨base⟩, after) →
      base ≠ exported.handle.base ∧
      ∃ described, later.machine.heap.handleAt base = .ok described ∧
        handle.bytes.take Handle.fieldBytes = described.handle.bytes.take Handle.fieldBytes
  refused : ∀ handle cause after,
    Mapping.openHandle handle session.machine = (.error cause, after) → after = session.machine

/-- Bases are never handed out twice. -/
theorem Leads.stays_dead {base : Nat} (leads : Leads first copies session) (start : first.Reached)
    (older : base < first.machine.heap.next) (dead : first.machine.heap.isLive base = false) :
    session.machine.heap.isLive base = false := by
  by_contra live
  rw [Bool.not_eq_false, Heap.isLive_iff] at live
  obtain ⟨span, member, rfl⟩ := live
  have before := Heap.isLive_iff.mpr ⟨span, leads.had_span start member older, rfl⟩
  rw [dead] at before
  cases before

/-- A block that lives on has kept its size, and with it its handle. -/
theorem Leads.same_handle (leads : Leads first copies session) (start : first.Reached)
    {old block : Block} (before : old ∈ first.machine.heap.blocks)
    (live : block ∈ session.machine.heap.blocks) (same : block.base = old.base) :
    Handle.issue block.base block.size = .issue old.base old.size := by
  have older : block.base < first.machine.heap.next := same ▸ start.wellFormed.base_lt before
  have kept := leads.had_span start (Heap.WellFormed.span_mem live) older
  obtain ⟨found, member, spans⟩ := List.mem_map.mp kept
  obtain ⟨based, sized⟩ := Prod.mk.inj spans
  obtain rfl := start.wellFormed.block_unique member before (based.trans same)
  rw [← based, ← sized]

theorem Reached.handles_name_blocks (reached : session.Reached) : session.HandlesNameBlocks where
  exports := by
    intro block live address belongs
    have issued := reached.wellFormed.handleAt_eq live belongs
    obtain ⟨after, opened⟩ :=
      (Mapping.openHandle_iff reached.wellFormed).mpr ⟨block, live, rfl, rfl⟩
    refine ⟨_, after, issued, opened, ?_⟩
    simp only [Block.holds, Bool.and_eq_true, decide_eq_true_eq] at belongs
    simp only
    omega
  opens := fun handle base => Mapping.openHandle_names reached.wellFormed
  stale := by
    intro address exported issued copies freed leads dead more later onwards
    obtain ⟨block, live, rfl⟩ := reached.wellFormed.handleAt_ok issued
    have own := reached.wellFormed.issue_base live
    have formed := (onwards.reached (leads.reached reached)).wellFormed
    rw [own] at dead
    have older := Nat.lt_of_lt_of_le (reached.wellFormed.base_lt live) (leads.next_le reached)
    have never := onwards.stays_dead (leads.reached reached) older dead
    rcases ran : Mapping.openHandle (.issue block.base block.size) later.machine with
      ⟨cause | mapping, after⟩
    · rw [Mapping.openHandle_error ran]
      exact ⟨cause, rfl⟩
    · obtain ⟨_, same⟩ := Mapping.openHandle_ok_iff.mp ⟨after, ran⟩
      obtain ⟨lives, _⟩ := (Mapping.openHandle_names formed).mp ⟨after, ran⟩
      rw [← same, own, never] at lives
      cases lives
  altered := by
    intro address exported issued handle different copies later leads base after opened
    obtain ⟨block, live, rfl⟩ := reached.wellFormed.handleAt_ok issued
    have own := reached.wellFormed.issue_base live
    have formed := (leads.reached reached).wellFormed
    refine ⟨fun same => ?_, ((Mapping.openHandle_names formed).mp ⟨after, opened⟩).2⟩
    obtain ⟨found, member, rfl, fields⟩ := (Mapping.openHandle_iff formed).mp ⟨after, opened⟩
    rw [own] at same
    rw [leads.same_handle reached live member same] at fields
    exact different fields
  refused := fun _ _ _ => Mapping.openHandle_error

/-- A block is freed, and the next one is empty. -/
def churnedStart : Session := (initial.perform (.allocate "a" 16 "plain")).2

def churnedFreed : Session :=
  (churnedStart.perform (.deallocate (.relative "a" 0) 16 "plain")).2

def churned : Session := (churnedFreed.perform (.allocate "b" 0 "plain")).2

theorem Reached.handles_name_blocks_churned :
    churned.HandlesNameBlocks ∧ churned.machine.heap.isLive (arenaStart + 128) = true ∧
      ∃ cause, Mapping.openHandle (.issue arenaStart 16) churned.machine =
        (.error cause, churned.machine) := by
  have start : Reached churnedStart := Reached.initial.step (.allocate "a" 16 "plain")
  have freeing : Leads churnedStart _ churnedFreed :=
    Leads.start.step (.deallocate (.relative "a" 0) 16 "plain")
  have onwards : Leads churnedFreed _ churned := Leads.start.step (.allocate "b" 0 "plain")
  have issued : churnedStart.machine.heap.handleAt arenaStart =
      .ok ⟨.issue arenaStart 16, 0⟩ := rfl
  refine ⟨(onwards.reached (freeing.reached start)).handles_name_blocks, by decide +kernel, ?_⟩
  exact start.handles_name_blocks.stale _ _ issued _ _ freeing (by decide +kernel) _ _ onwards

end Session

end DeviceColumns
