import DeviceColumns.Proofs.Custody.Exchange
import DeviceColumns.Proofs.Sharing.Opening

/-!
Custody of opened tables. Whatever a message says, opening it either moves one mapping into the
holdings for each owner slot that it fills, or fails and moves none.
-/

namespace DeviceColumns.SharedTable

set_option autoImplicit false

open DeviceColumns.Action

variable {keeps : Holdings → Machine → Prop} {admits : Resource → Prop} {recent : Buffer → Prop}

theorem custody_tracks (custodial : Custodial keeps admits recent) (held : Holdings) (heap : Heap) :
    Tracks heap fun opened machine => machine.heap = heap ∧ keeps (held + (0, opened)) machine where
  on := And.left
  opens := fun base holds =>
    ⟨holds.1, Holdings.of_eq (custodial.opens base holds.2) (add_assoc _ _ _)⟩
  closes := by
    rintro opened machine mapping ⟨same, kept⟩
    have closed := custodial.closes
      (Holdings.of_eq kept (add_assoc held (0, opened) (0, {mapping})).symm)
    refine ⟨?_, closed⟩
    rw [mapping.close_heap, same]

theorem ofBytes_custody (custodial : Custodial keeps admits recent) (held : Holdings)
    (bytes : Bytes) :
    Triple (keeps held) (ofBytes bytes)
      (fun table => keeps (held + .ofMappings (SharedColumn.mappingsOfAll table.owners)))
      (keeps held) := by
  intro machine kept
  have before : keeps (held + (0, 0)) machine := Holdings.of_eq kept (add_zero held).symm
  have spec := (custody_tracks custodial held machine.heap).ofBytes 0 bytes
  rcases ran : ofBytes bytes machine with ⟨fault | table, after⟩
  · exact Holdings.of_eq (spec.error ⟨rfl, before⟩ ran).2 (add_zero held)
  · refine Holdings.of_eq (spec.ok ⟨rfl, before⟩ ran).2.2 ?_
    rw [zero_add]
    rfl

end DeviceColumns.SharedTable
