import DeviceColumns.Proofs.Custody.Exchange
import DeviceColumns.Proofs.Memory.Contents

/-!
What custody says about contents. As long as raw frees spare what buffers own, every buffer in the
holdings has a live block with its bytes, and no two of them have the same one; so whatever is done
to some buffers leaves the contents of the others alone.
-/

namespace DeviceColumns

set_option autoImplicit false

namespace Custody

variable {scope : Scope} {count : Nat} {held : Holdings} {machine : Machine}

/-- A missing buffer holds nothing. -/
theorem holds {part : Option Buffer} {buffers : List Buffer}
    (custody : Custody scope count (held + .ofBuffers buffers) machine)
    (careful : scope.careful) (inside : ∀ buffer ∈ part, buffer ∈ buffers) :
    ∃ bytes, machine.heap.Holds part bytes ∧ bytes.length = (part.map Buffer.length).getD 0 := by
  cases part with
  | none => exact ⟨[], machine.heap.holds_none, rfl⟩
  | some buffer =>
      have owned := custody.owned careful
      have member : buffer ∈ (held + Holdings.ofBuffers buffers).1 :=
        Multiset.mem_add.mpr (.inr (inside buffer rfl))
      have filled := owned.filled buffer member
      cases place : buffer.address with
      | none =>
          have empty := filled.mp place
          refine ⟨[], ⟨?_, fun _ => rfl, by simp [place]⟩, empty.symm⟩
          rintro _ ⟨⟩
          exact empty
      | some address =>
          have live := (owned.span_mem (mem_spansOf member place)).1
          obtain ⟨bytes, stored, length⟩ := custody.heap.stored?_of_mem live
          refine ⟨bytes, ⟨?_, by simp [place], ?_⟩, length⟩
          · rintro _ ⟨⟩
            exact length.symm
          · intro other same
            rw [Option.bind_some, place] at same
            cases same
            exact stored

theorem apart {first second : List Buffer}
    (custody : Custody scope count (held + .ofBuffers first + .ofBuffers second) machine)
    (careful : scope.careful) {one other : Buffer} (before : one ∈ first) (behind : other ∈ second)
    {address : Nat} (place : one.address = some address) : other.address ≠ some address := by
  obtain ⟨front, back, rfl⟩ := List.append_of_mem before
  have singled := custody.of_eq (show held + .ofBuffers (front ++ one :: back) + .ofBuffers second =
      held + .ofBuffers (front ++ back) + .ofBuffers second + .ofBuffers [one] by
    rw [Holdings.ofBuffers_append, Holdings.ofBuffers_cons one back, Holdings.ofBuffers_append]
    abel)
  have owned := singled.owned careful
  rw [Holdings.fst_add_ofBuffer] at owned
  intro same
  have member : other ∈ (held + .ofBuffers (front ++ back) + .ofBuffers second).1 :=
    Multiset.mem_add.mpr (.inr behind)
  exact owned.others_apart singled.heap place _ (mem_spansOf member same) rfl

end Custody

end DeviceColumns
