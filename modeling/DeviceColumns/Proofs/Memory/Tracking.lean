import DeviceColumns.Action
import DeviceColumns.Proofs.Memory.Calls
import DeviceColumns.Proofs.Memory.Resources

/-!
Counting resources over whatever they build on. A ledger in front of a supply of memory records what
passes it and forwards frees with the size that it has booked, and no others. So the supply below
sees calls of the same kind again, in which nothing is freed in vain; and from the top of a stack of
ledgers down, one after the other keeps books of the same calls.
-/

namespace DeviceColumns

set_option autoImplicit false

open DeviceColumns.Action MemoryCall

namespace Machine

/-- Warn of a free whose size is not the one that was booked. -/
def noteSize (machine : Machine) (address size booked : Nat) : Machine :=
  if booked = size then machine else machine.warn (.freeSizeDiffers address size booked)

/-- The ledger is what it was, and no ledger is gone. -/
structure Still (id : LedgerId) (before after : Machine) : Prop where
  ledger : after.ledger id = before.ledger id
  count : before.ledgers.length ≤ after.ledgers.length

end Machine

/-- Where memory comes from and where it goes back to, whatever is behind it. -/
structure Supply where
  allocate : Nat → MemoryAction Nat
  free : Nat → Nat → Machine → Machine

def Resource.supply (resource : Resource) : Supply := ⟨resource.allocate, resource.free⟩

namespace Supply

/-- A supply with a ledger in front of it. -/
def tracked (below : Supply) (id : LedgerId) : Supply where
  allocate size := do
    let address ← below.allocate size
    Action.modify fun machine => machine.updateLedger id (·.recordAllocation address size)
    return address
  free address size machine :=
    match (machine.ledger id).size? address with
    | some booked =>
        below.free address booked
          ((machine.noteSize address size booked).updateLedger id (·.recordFree address))
    | none => (machine.warn (.freeNotOutstanding address)).updateLedger id (·.recordBogusFree)

/-- Nothing that the supply does shows in the ledger. -/
structure Spares (supply : Supply) (id : LedgerId) : Prop where
  allocate : ∀ size machine, Machine.Still id machine (supply.allocate size machine).2
  free : ∀ address size machine, Machine.Still id machine (supply.free address size machine)

end Supply

namespace Machine

variable {machine middle after : Machine} {id other : LedgerId}

theorem Still.refl (id : LedgerId) (machine : Machine) : Still id machine machine :=
  ⟨rfl, Nat.le_refl _⟩

theorem Still.trans (first : Still id machine middle) (second : Still id middle after) :
    Still id machine after :=
  ⟨second.ledger.trans first.ledger, Nat.le_trans first.count second.count⟩

theorem still_updateLedger {change : Ledger → Ledger} (different : other ≠ id) :
    Still other machine (machine.updateLedger id change) :=
  ⟨updateLedger_other different, Nat.le_of_eq length_updateLedger.symm⟩

theorem still_warn (id : LedgerId) (machine : Machine) (warning : Warning) :
    Still id machine (machine.warn warning) := ⟨rfl, Nat.le_refl _⟩

theorem still_noteSize (id : LedgerId) (machine : Machine) (address size booked : Nat) :
    Still id machine (machine.noteSize address size booked) := by
  unfold noteSize
  split_ifs
  · exact .refl id machine
  · exact still_warn id machine _

end Machine

/-- The calls that a supply has seen since some ledgers were new, the latest first, and the machine
in which they end. No address is granted while it is lent out. In between anything may happen that
leaves the ledgers alone. -/
inductive Traffic (supply : Supply) (ids : List LedgerId) : List MemoryCall → Machine → Prop where
  | opened {machine : Machine} (existing : ∀ id ∈ ids, id < machine.ledgers.length)
      (new : ∀ id ∈ ids, machine.ledger id = {}) : Traffic supply ids [] machine
  | granted {calls : List MemoryCall} {machine after : Machine} {address size : Nat}
      (earlier : Traffic supply ids calls machine)
      (ran : supply.allocate size machine = (.ok address, after))
      (fresh : lent? calls address = none) :
      Traffic supply ids (.granted address size :: calls) after
  | refused {calls : List MemoryCall} {machine after : Machine} {size : Nat} {cause : DeviceError}
      (earlier : Traffic supply ids calls machine)
      (ran : supply.allocate size machine = (.error cause, after)) :
      Traffic supply ids (.refused size :: calls) after
  | freed {calls : List MemoryCall} {machine : Machine} (address size : Nat)
      (earlier : Traffic supply ids calls machine) :
      Traffic supply ids (.freed address size :: calls) (supply.free address size machine)
  | elsewhere {calls : List MemoryCall} {machine after : Machine}
      (earlier : Traffic supply ids calls machine)
      (still : ∀ id ∈ ids, Machine.Still id machine after) : Traffic supply ids calls after

variable {base below : Supply} {top : LedgerId} {ids lower : List LedgerId}
  {calls : List MemoryCall} {machine after : Machine} {address size : Nat}

namespace Supply

theorem tracked_allocate_ok
    (ran : (below.tracked top).allocate size machine = (.ok address, after)) :
    ∃ middle, below.allocate size machine = (.ok address, middle) ∧
      after = middle.updateLedger top (·.recordAllocation address size) := by
  obtain ⟨place, middle, made, rest⟩ := bind_eq_ok ran
  cases rest
  exact ⟨middle, made, rfl⟩

theorem tracked_allocate_error {cause : DeviceError}
    (ran : (below.tracked top).allocate size machine = (.error cause, after)) :
    below.allocate size machine = (.error cause, after) := by
  simp only [tracked] at ran
  rcases made : below.allocate size machine with ⟨fault | place, middle⟩
  · rwa [bind_error made] at ran
  · rw [bind_ok made] at ran
    cases ran

theorem tracked_free_booked {booked : Nat}
    (found : (machine.ledger top).size? address = some booked) :
    (below.tracked top).free address size machine = below.free address booked
      ((machine.noteSize address size booked).updateLedger top (·.recordFree address)) := by
  simp only [tracked, found]

theorem tracked_free_unbooked (found : (machine.ledger top).size? address = none) :
    (below.tracked top).free address size machine =
      (machine.warn (.freeNotOutstanding address)).updateLedger top (·.recordBogusFree) := by
  simp only [tracked, found]

theorem Spares.tracked {id : LedgerId} (spares : below.Spares id) (different : id ≠ top) :
    (below.tracked top).Spares id := by
  constructor
  · intro size machine
    have still := spares.allocate size machine
    rcases made : (below.tracked top).allocate size machine with ⟨fault | place, after⟩
    · rwa [tracked_allocate_error made] at still
    · obtain ⟨middle, handed, rfl⟩ := tracked_allocate_ok made
      rw [handed] at still
      exact still.trans (Machine.still_updateLedger different)
  · intro address size machine
    cases found : (machine.ledger top).size? address with
    | some booked =>
        rw [tracked_free_booked found]
        refine ((Machine.still_noteSize id machine address size booked).trans ?_).trans
          (spares.free address booked _)
        exact Machine.still_updateLedger different
    | none =>
        rw [tracked_free_unbooked found]
        exact (Machine.still_warn id machine _).trans (Machine.still_updateLedger different)

end Supply

namespace Traffic

/-- The books of the outermost ledger are those of the calls, whatever is below. -/
theorem tallies (traffic : Traffic (below.tracked top) (top :: lower) calls machine)
    (spares : below.Spares top) :
    top < machine.ledgers.length ∧ (machine.ledger top).Tallies calls := by
  induction traffic with
  | opened existing new =>
      have first := List.mem_cons_self (a := top) (l := lower)
      rw [new top first]
      exact ⟨existing top first, .new⟩
  | @granted calls machine after address size earlier ran fresh induction =>
      obtain ⟨existing, tallies⟩ := induction
      obtain ⟨middle, handed, rfl⟩ := Supply.tracked_allocate_ok ran
      have still := spares.allocate size machine
      rw [handed] at still
      have present : top < middle.ledgers.length := Nat.lt_of_lt_of_le existing still.count
      rw [Machine.length_updateLedger, Machine.updateLedger_same present, still.ledger]
      exact ⟨present, tallies.granted fresh⟩
  | @refused calls machine after size cause earlier ran induction =>
      obtain ⟨existing, tallies⟩ := induction
      have still := spares.allocate size machine
      rw [Supply.tracked_allocate_error ran] at still
      rw [still.ledger]
      exact ⟨Nat.lt_of_lt_of_le existing still.count, tallies.refused⟩
  | @freed calls machine address size earlier induction =>
      obtain ⟨existing, tallies⟩ := induction
      cases lent : lent? calls address with
      | some booked =>
          have found := (tallies.size? address).trans lent
          let noted := machine.noteSize address size booked
          let recorded := noted.updateLedger top (·.recordFree address)
          have noting := Machine.still_noteSize top machine address size booked
          have forwarding := spares.free address booked recorded
          have present : top < noted.ledgers.length := Nat.lt_of_lt_of_le existing noting.count
          have still : recorded.ledger top = (machine.ledger top).recordFree address := by
            rw [Machine.updateLedger_same present, noting.ledger]
          rw [Supply.tracked_free_booked found, forwarding.ledger, still]
          have counted : recorded.ledgers.length = noted.ledgers.length :=
            Machine.length_updateLedger
          exact ⟨Nat.lt_of_lt_of_le (counted ▸ present) forwarding.count, tallies.freed lent⟩
      | none =>
          have found := (tallies.size? address).trans lent
          have present : top < (machine.warn (.freeNotOutstanding address)).ledgers.length := existing
          rw [Supply.tracked_free_unbooked found, Machine.length_updateLedger,
            Machine.updateLedger_same present]
          exact ⟨existing, tallies.freedInVain lent⟩
  | elsewhere earlier still induction =>
      obtain ⟨existing, tallies⟩ := induction
      have kept := still top List.mem_cons_self
      rw [kept.ledger]
      exact ⟨Nat.lt_of_lt_of_le existing kept.count, tallies⟩

end Traffic

end DeviceColumns
