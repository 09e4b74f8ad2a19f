import DeviceColumns.Proofs.Custody.Exchange
import DeviceColumns.Proofs.Custody.Liveness

/-!
What operations on held buffers log. A buffer that is held has its block live and booked by every
ledger on its way, so freeing it is never a free of something unknown, already freed or of another
size. At most it is a free of a block that is still mapped.
-/

namespace DeviceColumns

set_option autoImplicit false

open DeviceColumns.Action

namespace Machine

/-- Whatever the machine has logged on top of `earlier` is about blocks that were freed while they
were mapped. -/
def Tidy (earlier : List Warning) (machine : Machine) : Prop :=
  ∀ warning ∈ machine.log, warning ∈ earlier ∨ ∃ base, warning = .freedWhileMapped base

variable {earlier : List Warning} {machine after : Machine}

theorem Tidy.of_log (tidy : machine.Tidy earlier) (same : after.log = machine.log) :
    after.Tidy earlier := by
  unfold Tidy
  rw [same]
  exact tidy

theorem Tidy.freeBlock (tidy : machine.Tidy earlier) {base : Nat}
    (live : machine.heap.isLive base = true) : (machine.freeBlock base).Tidy earlier := by
  rw [Machine.freeBlock, if_pos live]
  by_cases mapped : machine.mappings.isMapped base = true
  · intro warning logged
    simp only [if_pos mapped, warn] at logged
    obtain before | new := List.mem_append.mp logged
    · exact tidy warning before
    · exact .inr ⟨base, List.mem_singleton.mp new⟩
  · simp only [if_neg mapped]
    exact tidy

theorem Tidy.freeThrough {ids : List LedgerId} {address size : Nat} (tidy : machine.Tidy earlier)
    (distinct : ids.Nodup) (booked : ∀ id ∈ ids, (machine.ledger id).size? address = some size)
    (live : machine.heap.isLive address = true) :
    (Machine.freeThrough ids address size machine).Tidy earlier := by
  induction ids generalizing machine with
  | nil => exact tidy.freeBlock live
  | cons first rest induction =>
      obtain ⟨fresh, later⟩ := List.nodup_cons.mp distinct
      have recorded := booked first List.mem_cons_self
      have deeper (id : LedgerId) (member : id ∈ rest) :
          ((machine.updateLedger first (·.recordFree address)).ledger id).size? address =
            some size := by
        have other : id ≠ first := fun equal => fresh (equal ▸ member)
        rw [updateLedger_other other, booked id (List.mem_cons_of_mem _ member)]
      have noted : (machine.updateLedger first (·.recordFree address)).Tidy earlier :=
        tidy.of_log rfl
      simp only [Machine.freeThrough, recorded, if_pos]
      exact induction noted later deeper live

end Machine

/-- The machine keeps the holdings and has stayed tidy. -/
structure Orderly (scope : Scope) (count : Nat) (earlier : List Warning) (held : Holdings)
    (machine : Machine) : Prop where
  custody : Custody scope count held machine
  tidy : machine.Tidy earlier

namespace Orderly

variable {scope : Scope} {count : Nat} {earlier : List Warning} {held : Holdings}
  {machine : Machine} {buffer : Buffer}

theorem free (careful : scope.careful)
    (orderly : Orderly scope count earlier (held + .ofBuffers [buffer]) machine) :
    Orderly scope count earlier held (buffer.free machine) := by
  refine ⟨orderly.custody.free, ?_⟩
  unfold Buffer.free
  cases place : buffer.address with
  | none => exact orderly.tidy
  | some address =>
      have among : buffer ∈ (held + Holdings.ofBuffers [buffer]).1 := by
        rw [Holdings.fst_add_ofBuffer]
        exact Multiset.mem_cons_self _ _
      obtain ⟨sound, sizes⟩ := (orderly.custody.owned careful).booked buffer among address place
      have own : address ∈ Buffer.bases [buffer] :=
        Buffer.mem_bases.mpr ⟨buffer, List.mem_singleton_self _, place⟩
      exact orderly.tidy.freeThrough sound.distinct sizes
        (orderly.custody.live_of_held careful own).1

/-- The mapping is open as long as it is held, so closing it does not fail. -/
theorem closes {mapping : Mapping}
    (orderly : Orderly scope count earlier (held + .ofMappings [mapping]) machine) :
    Orderly scope count earlier held (mapping.close machine) := by
  have counts := orderly.custody.mappings
  rw [Holdings.snd_add_ofMapping, Multiset.map_cons] at counts
  obtain ⟨mappings, closed, -⟩ := counts.close?
  have silent : (mapping.close machine).log = machine.log := by
    rw [Mapping.close, closed]
  exact ⟨orderly.custody.close, orderly.tidy.of_log silent⟩

/-- An operation that logs nothing stays tidy. -/
theorem of_silent {Fault Value : Type} {act : Action Machine Fault Value} {kept : Holdings}
    {gained : Value → Holdings} (silent : ∀ machine, (act machine).2.log = machine.log)
    (spec : Triple (Custody scope count held) act (fun value => Custody scope count (gained value))
      (Custody scope count kept)) :
    Triple (Orderly scope count earlier held) act
      (fun value => Orderly scope count earlier (gained value))
      (Orderly scope count earlier kept) := by
  intro machine orderly
  have outcome := spec machine orderly.custody
  have log := silent machine
  rcases ran : act machine with ⟨fault | value, after⟩ <;> rw [ran] at outcome log
  · exact ⟨outcome, orderly.tidy.of_log log⟩
  · exact ⟨outcome, orderly.tidy.of_log log⟩

theorem allocate_silent (length : Nat) (resource : Resource) (machine : Machine) :
    (Buffer.allocate length resource machine).2.log = machine.log := by
  unfold Buffer.allocate
  split_ifs
  · rfl
  · rw [bind_apply]
    rcases ran : resource.allocate length machine with ⟨cause | address, after⟩
    · rw [Resource.allocate_error ran]
    · exact Resource.allocate_log ran

theorem write_silent (address : Nat) (bytes : Bytes) (machine : Machine) :
    (Machine.write address bytes machine).2.log = machine.log := by
  unfold Machine.write
  cases machine.heap.write address bytes <;> rfl

theorem custodial (careful : scope.careful) :
    Custodial (Orderly scope count earlier) (·.Sound count) fun _ => True where
  allocate := by
    intro resource sound held length
    have allocated : Triple (Orderly scope count earlier held) _ _ _ :=
      of_silent (allocate_silent length resource) (Buffer.allocate_custody sound held length)
    exact allocated.conseq (fun _ orderly => orderly) (fun _ _ orderly => ⟨trivial, orderly⟩)
      fun _ orderly => orderly
  write := fun _ _ bytes => of_silent (write_silent _ bytes) (Machine.write_custody _ _ bytes)
  free := free careful
  createEvent := fun orderly => ⟨orderly.custody.createEvent, orderly.tidy⟩
  opens := fun base orderly => ⟨orderly.custody.insert base, orderly.tidy⟩
  closes := closes

end Orderly

end DeviceColumns
