import DeviceColumns.Proofs.Kernel.Words
import DeviceColumns.Proofs.Memory.Contents

/-!
What the conversion kernels leave in memory. A kernel allocates a buffer, copies its source out and
fills the buffer with what the source is converted to, so the buffer holds this in the end, and
whatever else is stored stays as it was.
-/

namespace DeviceColumns

set_option autoImplicit false

open DeviceColumns.Action

variable {machine after : Machine} {resource : Resource} {part : Option Buffer} {given : Bytes}
  {made : Buffer}

/-- What the kernels have in common: the `length` bytes at `source` are converted to `size` bytes,
for which there is a buffer before the source is read. -/
def Buffer.ofSource (size source length : Nat) (convert : Bytes → Bytes) (resource : Resource) :
    MemoryAction Buffer := do
  let made ← allocate size resource
  if size = 0 then return made
  let given ← (Machine.read source length).undoOnFailure made.free
  made.fill (convert given)
  return made

namespace NarrowDecimal

variable {count : Nat}

theorem four_le_width (decimal : NarrowDecimal) : 4 ≤ decimal.width := by
  cases decimal <;> decide

theorem width_le_wideWidth (decimal : NarrowDecimal) : decimal.width ≤ wideWidth := by
  cases decimal <;> decide

theorem mul_wideWidth_eq_zero : count * wideWidth = 0 ↔ count = 0 :=
  Nat.mul_eq_zero.trans (or_iff_left (by decide))

/-- The result of an addressable source, in pieces of four bytes or more, is short enough for a word
to hold its length. -/
theorem wide_fits {width : Nat} (wide : 4 ≤ width) (addressable : count * width ≤ 2 ^ 56) :
    count * wideWidth < 2 ^ 64 := by
  have narrowest : count * 4 ≤ count * width := Nat.mul_le_mul_left count wide
  rw [wideWidth]
  omega

/-- As long as a word can hold the length of the result, it can hold that of the source. -/
theorem widenAt_eq (decimal : NarrowDecimal) (source : Nat) (resource : Resource)
    (fits : count * wideWidth < 2 ^ 64) : decimal.widenAt source count resource =
      Buffer.ofSource (count * wideWidth) source (count * decimal.width) decimal.widen resource := by
  have narrow : count * decimal.width < 2 ^ 64 :=
    Nat.lt_of_le_of_lt (Nat.mul_le_mul_left count decimal.width_le_wideWidth) fits
  simp only [widenAt, Buffer.ofSource, Bytes.lengthOf_eq fits, Bytes.lengthOf_eq narrow,
    mul_wideWidth_eq_zero]

end NarrowDecimal

theorem Bitmask.ofBooleans_eq (source count : Nat) (resource : Resource) :
    ofBooleans source count resource = Buffer.ofSource (allocationSize count) source count
      (fun booleans => packInto (allocationSize count) (booleans.map (· != 0))) resource := by
  simp only [ofBooleans, resize_pack, Buffer.ofSource]

namespace Buffer

variable {size source length : Nat} {convert : Bytes → Bytes}

theorem ofSource_holds (formed : machine.heap.WellFormed) (holds : machine.heap.Holds part given)
    (sized : given.length = length) (whole : (convert given).length = size)
    (ran : ofSource size ((part.bind address).getD 0) length convert resource machine =
      (.ok made, after)) :
    Heap.Spares [] machine.heap after.heap ∧ after.heap.Holds (some made) (convert given) := by
  unfold ofSource at ran
  obtain ⟨buffer, middle, granted, ran⟩ := bind_eq_ok ran
  split_ifs at ran with empty
  · cases ran
    subst empty
    rw [List.eq_nil_of_length_eq_zero whole]
    exact empty_holds granted
  · have still := holds.spared (allocate_spares formed granted) (by simp)
    have copied : (Machine.read ((part.bind address).getD 0) length).undoOnFailure buffer.free
        middle = (.ok given, middle) := by
      rw [undoOnFailure, Machine.read, still.read (Nat.le_of_eq sized.symm), ← sized,
        List.take_length]
    rw [bind_ok copied] at ran
    obtain ⟨done, final, filled, returned⟩ := bind_eq_ok ran
    cases returned
    exact filled_holds formed empty granted filled whole

/-- A conversion takes one new block, unless there is nothing to convert, and changes no other
span. -/
theorem ofSource_spans (formed : machine.heap.WellFormed)
    (ran : ofSource size source length convert resource machine = (.ok made, after)) :
    (size = 0 ∧ made.address = none ∧ after = machine) ∨
    (size ≠ 0 ∧ made = ⟨some machine.heap.next, size, resource⟩ ∧
      after.heap.spans = (machine.heap.next, size) :: machine.heap.spans ∧
      machine.heap.next ≤ after.heap.next) := by
  unfold ofSource at ran
  obtain ⟨buffer, middle, granted, rest⟩ := bind_eq_ok ran
  obtain ⟨empty, rfl, rfl⟩ | ⟨filled, address, rfl, handed⟩ := allocate_ok granted
  · rw [if_pos empty] at rest
    cases rest
    exact .inl ⟨empty, rfl, rfl⟩
  · rw [if_neg filled] at rest
    obtain ⟨rfl, -, spans, -⟩ := Heap.allocate_cases handed
    have grown := Nat.le_of_lt (formed.next_lt_allocate handed)
    obtain ⟨given, still, copied, filling⟩ := bind_eq_ok rest
    obtain ⟨-, rfl⟩ := Prod.mk.inj (undoOnFailure_eq_ok copied)
    obtain ⟨done, final, wrote, returned⟩ := bind_eq_ok filling
    cases returned
    obtain ⟨same, next⟩ := (formed.allocate handed).spans_write (fill_ok wrote)
    exact .inr ⟨filled, rfl, same.trans spans, next ▸ grown⟩

end Buffer

theorem NarrowDecimal.widenAt_holds {decimal : NarrowDecimal} {count : Nat}
    (formed : machine.heap.WellFormed) (holds : machine.heap.Holds part given)
    (sized : given.length = count * decimal.width)
    (ran : decimal.widenAt ((part.bind Buffer.address).getD 0) count resource machine =
      (.ok made, after)) :
    Heap.Spares [] machine.heap after.heap ∧
      after.heap.Holds (some made) (decimal.widen given) := by
  have whole : (decimal.widen given).length = count * wideWidth := by
    rw [length_widen, sized, Nat.mul_div_cancel _ decimal.width_pos]
  have fits := wide_fits decimal.four_le_width (sized ▸ holds.addressable formed)
  rw [widenAt_eq decimal _ resource fits] at ran
  exact Buffer.ofSource_holds formed holds sized whole ran

theorem Bitmask.ofBooleans_holds {count : Nat}
    (formed : machine.heap.WellFormed) (holds : machine.heap.Holds part given)
    (sized : given.length = count)
    (ran : Bitmask.ofBooleans ((part.bind Buffer.address).getD 0) count resource machine =
      (.ok made, after)) :
    Heap.Spares [] machine.heap after.heap ∧
      after.heap.Holds (some made) (packInto (allocationSize count) (given.map (· != 0))) := by
  rw [ofBooleans_eq] at ran
  exact Buffer.ofSource_holds formed holds sized (length_packInto _ _) ran

theorem NarrowDecimal.widenAt_spans {decimal : NarrowDecimal} {place count : Nat}
    (formed : machine.heap.WellFormed) (fits : count * wideWidth < 2 ^ 64)
    (ran : decimal.widenAt place count resource machine = (.ok made, after)) :
    (count = 0 ∧ made.address = none ∧ after = machine) ∨
    (count ≠ 0 ∧ made = ⟨some machine.heap.next, count * wideWidth, resource⟩ ∧
      after.heap.spans = (machine.heap.next, count * wideWidth) :: machine.heap.spans ∧
      machine.heap.next ≤ after.heap.next) := by
  rw [widenAt_eq decimal place resource fits] at ran
  rw [ne_eq, ← mul_wideWidth_eq_zero]
  exact Buffer.ofSource_spans formed ran

theorem Bitmask.ofBooleans_spans {place count : Nat} (formed : machine.heap.WellFormed)
    (ran : Bitmask.ofBooleans place count resource machine = (.ok made, after)) :
    (count = 0 ∧ made.address = none ∧ after = machine) ∨
    (count ≠ 0 ∧ made = ⟨some machine.heap.next, allocationSize count, resource⟩ ∧
      after.heap.spans = (machine.heap.next, allocationSize count) :: machine.heap.spans ∧
      machine.heap.next ≤ after.heap.next) := by
  rw [ofBooleans_eq] at ran
  rw [ne_eq, ← allocationSize_eq_zero]
  exact Buffer.ofSource_spans formed ran

end DeviceColumns
