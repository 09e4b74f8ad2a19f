import DeviceColumns.Proofs.Memory.Books

/-!
What allocations and frees through a resource do to the books they pass. A resource is sound if it
passes existing ledgers, each once. An allocation through it is booked once in each of them; a free
that all of them have booked reaches the device and is booked as such, and any other free changes no
more than the books it passes.
-/

namespace DeviceColumns

set_option autoImplicit false

/-- The resource passes ledgers among the first `count`, and none of them twice. -/
structure Resource.Sound (resource : Resource) (count : Nat) : Prop where
  distinct : resource.ledgers.Nodup
  existing : ∀ id ∈ resource.ledgers, id < count

theorem Resource.sound_device (count : Nat) : Resource.device.Sound count :=
  ⟨List.nodup_nil, by simp [device]⟩

theorem Resource.Sound.mono {resource : Resource} {count more : Nat} (sound : resource.Sound count)
    (grown : count ≤ more) : resource.Sound more :=
  ⟨sound.distinct, fun id member => Nat.lt_of_lt_of_le (sound.existing id member) grown⟩

namespace Machine

variable {machine : Machine} {id other : LedgerId} {change : Ledger → Ledger}

@[simp] theorem warn_heap (machine : Machine) (warning : Warning) :
    (machine.warn warning).heap = machine.heap := rfl

@[simp] theorem warn_mappings (machine : Machine) (warning : Warning) :
    (machine.warn warning).mappings = machine.mappings := rfl

@[simp] theorem warn_ledgers (machine : Machine) (warning : Warning) :
    (machine.warn warning).ledgers = machine.ledgers := rfl

@[simp] theorem warn_ledger (machine : Machine) (warning : Warning) (id : LedgerId) :
    (machine.warn warning).ledger id = machine.ledger id := rfl

@[simp] theorem updateLedger_heap : (machine.updateLedger id change).heap = machine.heap := rfl

@[simp] theorem updateLedger_mappings :
    (machine.updateLedger id change).mappings = machine.mappings := rfl

@[simp] theorem length_updateLedger :
    (machine.updateLedger id change).ledgers.length = machine.ledgers.length := by
  simp [updateLedger]

theorem updateLedger_same (existing : id < machine.ledgers.length) :
    (machine.updateLedger id change).ledger id = change (machine.ledger id) := by
  simp [ledger, updateLedger, List.getElem?_eq_getElem existing]

theorem updateLedger_other (different : other ≠ id) :
    (machine.updateLedger id change).ledger other = machine.ledger other := by
  simp [ledger, updateLedger, different.symm]

theorem existing_of_size? {address size : Nat}
    (booked : (machine.ledger id).size? address = some size) : id < machine.ledgers.length := by
  by_contra beyond
  rw [ledger, List.getElem?_eq_none (Nat.le_of_not_lt beyond)] at booked
  simp [Ledger.size?] at booked

structure SameMemory (before after : Machine) : Prop where
  heap : after.heap = before.heap
  mappings : after.mappings = before.mappings
  count : after.ledgers.length = before.ledgers.length
  log : after.log = before.log

theorem SameMemory.trans {before middle after : Machine} (first : before.SameMemory middle)
    (second : middle.SameMemory after) : before.SameMemory after where
  heap := second.heap.trans first.heap
  mappings := second.mappings.trans first.mappings
  count := second.count.trans first.count
  log := second.log.trans first.log

theorem sameMemory_updateLedger : machine.SameMemory (machine.updateLedger id change) :=
  ⟨rfl, rfl, length_updateLedger, rfl⟩

theorem sameMemory_bookAllocation (ids : List LedgerId) (address size : Nat)
    (machine : Machine) : machine.SameMemory (bookAllocation ids address size machine) := by
  induction ids generalizing machine with
  | nil => exact ⟨rfl, rfl, rfl, rfl⟩
  | cons id rest induction => exact sameMemory_updateLedger.trans (induction _)

theorem bookAllocation_other {ids : List LedgerId} (address size : Nat) (machine : Machine)
    (outside : id ∉ ids) : (bookAllocation ids address size machine).ledger id = machine.ledger id := by
  induction ids generalizing machine with
  | nil => rfl
  | cons first rest induction =>
      rw [List.mem_cons, not_or] at outside
      exact (induction _ outside.2).trans (updateLedger_other outside.1)

theorem bookAllocation_member {ids : List LedgerId} (address size : Nat) (machine : Machine)
    (distinct : ids.Nodup) (member : id ∈ ids) (existing : id < machine.ledgers.length) :
    (bookAllocation ids address size machine).ledger id =
      (machine.ledger id).recordAllocation address size := by
  induction ids generalizing machine with
  | nil => contradiction
  | cons first rest induction =>
      obtain ⟨fresh, later⟩ := List.nodup_cons.mp distinct
      obtain same | deeper := List.mem_cons.mp member
      · subst same
        exact (bookAllocation_other address size _ fresh).trans (updateLedger_same existing)
      · have different : id ≠ first := fun equal => fresh (equal ▸ deeper)
        have booked := induction (machine.updateLedger first (·.recordAllocation address size))
          later deeper (by rwa [length_updateLedger])
        rw [updateLedger_other different] at booked
        exact booked

/-- What an allocation of `size` bytes at `address` through some ledgers does to the books. -/
structure AllocationFrame (ids : List LedgerId) (address size : Nat) (before after : Machine) :
    Prop where
  mappings : after.mappings = before.mappings
  count : after.ledgers.length = before.ledgers.length
  booked : ∀ id ∈ ids, after.ledger id = (before.ledger id).recordAllocation address size
  untouched : ∀ id, id ∉ ids → after.ledger id = before.ledger id

theorem AllocationFrame.sizes {ids : List LedgerId} {address size place : Nat}
    {before after : Machine} (frame : AllocationFrame ids address size before after)
    (different : place ≠ address) (id : LedgerId) :
    (after.ledger id).size? place = (before.ledger id).size? place := by
  by_cases passed : id ∈ ids
  · rw [frame.booked id passed, Ledger.size?_recordAllocation_other different]
  · rw [frame.untouched id passed]

@[simp] theorem freeBlock_mappings (machine : Machine) (base : Nat) :
    (machine.freeBlock base).mappings = machine.mappings := by
  unfold freeBlock
  split_ifs <;> rfl

@[simp] theorem freeBlock_ledgers (machine : Machine) (base : Nat) :
    (machine.freeBlock base).ledgers = machine.ledgers := by
  unfold freeBlock
  split_ifs <;> rfl

theorem freeBlock_ledger (machine : Machine) (base : Nat) (id : LedgerId) :
    (machine.freeBlock base).ledger id = machine.ledger id := by
  rw [ledger, freeBlock_ledgers]
  rfl

/-- An unknown base is not there to be taken away, so a free is the same with the check for it. -/
theorem freeBlock_heap (machine : Machine) (base : Nat) :
    (machine.freeBlock base).heap = machine.heap.free base := by
  unfold freeBlock
  split_ifs with live mapped
  · rfl
  · rfl
  · simp only [Heap.isLive, Bool.not_eq_true, Option.isSome_eq_false_iff, Option.isNone_iff_eq_none,
      Heap.blockFrom?, List.find?_eq_none] at live
    rw [Heap.free, List.eraseP_of_forall_not (by simpa using live)]
    rfl

/-- No mapping was closed that was not open. -/
def Quiet (machine : Machine) : Prop := ∀ base cause, .closeFailed base cause ∉ machine.log

theorem Quiet.of_log {before after : Machine} (quiet : before.Quiet) (same : after.log = before.log) :
    after.Quiet := by
  unfold Quiet
  rw [same]
  exact quiet

theorem Quiet.warn (quiet : machine.Quiet) {warning : Warning}
    (other : ∀ base cause, warning ≠ .closeFailed base cause) : (machine.warn warning).Quiet := by
  intro base cause logged
  obtain earlier | latest := List.mem_append.mp logged
  · exact quiet base cause earlier
  · exact other base cause (List.mem_singleton.mp latest).symm

theorem Quiet.freeBlock (quiet : machine.Quiet) (base : Nat) : (machine.freeBlock base).Quiet := by
  unfold Machine.freeBlock
  split_ifs
  · exact quiet.warn (by simp)
  · exact quiet
  · exact quiet.warn (by simp)

theorem Quiet.freeThrough (ids : List LedgerId) (address size : Nat) {machine : Machine}
    (quiet : machine.Quiet) : (Machine.freeThrough ids address size machine).Quiet := by
  induction ids generalizing size machine with
  | nil => exact quiet.freeBlock address
  | cons first rest induction =>
      unfold Machine.freeThrough
      cases (machine.ledger first).size? address with
      | none => exact (quiet.warn (by simp)).of_log rfl
      | some recorded =>
          have booked : (if recorded = size then machine
              else machine.warn (.freeSizeDiffers address size recorded)).Quiet := by
            split_ifs
            · exact quiet
            · exact quiet.warn (by simp)
          exact induction recorded (booked.of_log rfl)

/-- What a free of `address` through some ledgers leaves as it is, booked or not. -/
structure FreeFrame (ids : List LedgerId) (address : Nat) (before after : Machine) : Prop where
  heap : after.heap = before.heap ∨ after.heap = before.heap.free address
  mappings : after.mappings = before.mappings
  count : after.ledgers.length = before.ledgers.length
  sizes : ∀ id other, other ≠ address →
    (after.ledger id).size? other = (before.ledger id).size? other
  untouched : ∀ id, id ∉ ids → after.ledger id = before.ledger id

theorem size?_updateLedger {address : Nat} (kept : ∀ ledger : Ledger,
      (change ledger).size? address = ledger.size? address) :
    ((machine.updateLedger id change).ledger other).size? address =
      (machine.ledger other).size? address := by
  by_cases same : other = id
  · subst same
    by_cases existing : other < machine.ledgers.length
    · rw [updateLedger_same existing, kept]
    · have absent (machine : Machine) (beyond : ¬other < machine.ledgers.length) :
          machine.ledger other = {} := by
        rw [ledger, List.getElem?_eq_none (Nat.le_of_not_lt beyond)]
        rfl
      rw [absent machine existing, absent _ (by rwa [length_updateLedger])]
  · rw [updateLedger_other same]

theorem freeFrame_freeThrough (ids : List LedgerId) (address size : Nat) (machine : Machine) :
    FreeFrame ids address machine (freeThrough ids address size machine) := by
  induction ids generalizing size machine with
  | nil =>
      exact ⟨.inr (machine.freeBlock_heap address), machine.freeBlock_mappings address,
        congrArg List.length (machine.freeBlock_ledgers address),
        fun id other _ => by rw [freeThrough, freeBlock_ledger],
        fun id _ => machine.freeBlock_ledger address id⟩
  | cons first rest induction =>
      unfold freeThrough
      cases booked : (machine.ledger first).size? address with
      | none =>
          refine ⟨.inl rfl, rfl, length_updateLedger, fun id other _ => ?_, fun id outside => ?_⟩
          · exact size?_updateLedger fun ledger => rfl
          · exact updateLedger_other (List.ne_of_not_mem_cons outside)
      | some recorded =>
          simp only
          generalize warns : (if recorded = size then machine
            else machine.warn (.freeSizeDiffers address size recorded)) = warned
          have same : warned.heap = machine.heap ∧ warned.mappings = machine.mappings ∧
              warned.ledgers = machine.ledgers := by
            subst warns
            split_ifs <;> exact ⟨rfl, rfl, rfl⟩
          have ledgers (id : LedgerId) : warned.ledger id = machine.ledger id := by
            rw [ledger, ledger, same.2.2]
          have below := induction recorded (warned.updateLedger first (·.recordFree address))
          refine ⟨?_, below.mappings.trans same.2.1, ?_, fun id other different => ?_,
            fun id outside => ?_⟩
          · rw [← same.1]
            exact below.heap
          · rw [below.count, length_updateLedger, same.2.2]
          · rw [below.sizes id other different, ← ledgers]
            exact size?_updateLedger fun ledger => Ledger.size?_recordFree_other different
          · rw [List.mem_cons, not_or] at outside
            rw [below.untouched id outside.2, updateLedger_other outside.1, ledgers]

/-- A free that every ledger on the way has booked reaches the device, and each of them books it. -/
theorem freeThrough_booked {ids : List LedgerId} {address size : Nat} {machine : Machine}
    (distinct : ids.Nodup) (booked : ∀ id ∈ ids, (machine.ledger id).size? address = some size) :
    (freeThrough ids address size machine).heap = machine.heap.free address ∧
      ∀ id ∈ ids, (freeThrough ids address size machine).ledger id =
        (machine.ledger id).recordFree address := by
  induction ids generalizing machine with
  | nil => exact ⟨machine.freeBlock_heap address, by simp⟩
  | cons first rest induction =>
      obtain ⟨fresh, later⟩ := List.nodup_cons.mp distinct
      have recorded := booked first List.mem_cons_self
      have others (id : LedgerId) (member : id ∈ rest) :
          (machine.updateLedger first (·.recordFree address)).ledger id = machine.ledger id :=
        updateLedger_other fun equal => fresh (equal ▸ member)
      have deeper (id : LedgerId) (member : id ∈ rest) :
          ((machine.updateLedger first (·.recordFree address)).ledger id).size? address =
            some size := by
        rw [others id member, booked id (List.mem_cons_of_mem _ member)]
      have below := induction later deeper
      simp only [freeThrough, recorded, if_pos]
      refine ⟨below.1, List.forall_mem_cons.mpr ⟨?_, fun id member => ?_⟩⟩
      · rw [(freeFrame_freeThrough rest address size _).untouched first fresh]
        exact updateLedger_same (existing_of_size? recorded)
      · rw [below.2 id member, others id member]

end Machine

namespace Resource

variable {resource : Resource} {machine after : Machine} {size : Nat}

theorem allocate_error {cause : DeviceError}
    (refused : resource.allocate size machine = (.error cause, after)) : after = machine := by
  unfold allocate at refused
  split at refused
  · exact (Prod.mk.inj refused).2.symm
  · cases (Prod.mk.inj refused).1

theorem allocate_denied {cause : DeviceError}
    (refused : resource.allocate size machine = (.error cause, after)) :
    machine.heap.allocate size = .error cause := by
  unfold allocate at refused
  split at refused
  · rename_i denied
    cases refused
    exact denied
  · cases (Prod.mk.inj refused).1

theorem allocate_heap {address : Nat}
    (granted : resource.allocate size machine = (.ok address, after)) :
    machine.heap.allocate size = .ok (address, after.heap) := by
  unfold allocate at granted
  split at granted
  · cases (Prod.mk.inj granted).1
  · rename_i place heap handed
    obtain ⟨equal, rfl⟩ := Prod.mk.inj granted
    cases equal
    rw [handed, (Machine.sameMemory_bookAllocation _ _ _ _).heap]

theorem allocate_log {address : Nat}
    (granted : resource.allocate size machine = (.ok address, after)) :
    after.log = machine.log := by
  unfold allocate at granted
  split at granted
  · cases (Prod.mk.inj granted).1
  · obtain ⟨_, rfl⟩ := Prod.mk.inj granted
    rw [(Machine.sameMemory_bookAllocation _ _ _ _).log]

theorem allocate_ok {address : Nat} (sound : resource.Sound machine.ledgers.length)
    (granted : resource.allocate size machine = (.ok address, after)) :
    machine.heap.allocate size = .ok (address, after.heap) ∧
      Machine.AllocationFrame resource.ledgers address size machine after := by
  refine ⟨allocate_heap granted, ?_⟩
  unfold allocate at granted
  split at granted
  · cases (Prod.mk.inj granted).1
  · rename_i place heap handed
    obtain ⟨equal, rfl⟩ := Prod.mk.inj granted
    cases equal
    have same := Machine.sameMemory_bookAllocation resource.ledgers address size
      { machine with heap := heap }
    refine ⟨same.mappings, same.count, fun id passed => ?_,
      fun id missed => Machine.bookAllocation_other address size _ missed⟩
    exact Machine.bookAllocation_member address size _ sound.distinct passed
      (sound.existing id passed)

end Resource

end DeviceColumns
