import DeviceColumns.Proofs.Arrays.Built
import DeviceColumns.Proofs.Arrays.Cells
import DeviceColumns.Proofs.Arrays.Conversion
import DeviceColumns.Proofs.Columns.Parts
import DeviceColumns.Proofs.Custody.Columns
import DeviceColumns.Proofs.Custody.Contents
import DeviceColumns.Proofs.Kernel.Conversions

/-!
What the slots of exported arrays hold. A conversion moves the contents of a column's buffers into
slots, the data converted where its type asks for it, and touches no other buffers; so the slots of
the arrays made first still hold this when the last column has been converted.
-/

namespace DeviceColumns

set_option autoImplicit false

open DeviceColumns.Action

namespace Column

/-- The counts of the node are those of the column. An untyped column leaves no slots, any other
leaves one for its mask and one for its data. -/
structure Shaped (column : Column) (node : ArrayNode) : Prop where
  length : node.length = ArrayNode.word column.rows
  nullCount : node.nullCount = ArrayNode.word column.nullCount
  bare : node.children = []
  slots : node.slots.length = if column.type.logical = .empty then 0 else 2
  masked : node.part 0 = slot column.mask

/-- The first slot holds what the mask held, the second what the data are converted to. -/
structure Carried (column : Column) (before : Heap) (node : ArrayNode) (after : Heap) : Prop where
  mask : ∀ bytes, before.Holds column.mask bytes → after.Holds (node.part 0) bytes
  data : ∀ bytes, before.Holds column.data bytes →
    bytes.length = column.rows * column.type.logical.width?.getD 0 →
      after.Holds (node.part 1) (column.type.converted column.rows bytes)

variable {column : Column} {resource : Resource} {machine middle after : Machine}
  {node : ArrayNode} {bytes : Bytes}

theorem dataPointer_eq (column : Column) :
    column.dataPointer = (column.data.bind Buffer.address).getD 0 := by
  unfold dataPointer
  cases column.data <;> rfl

theorem slot_holds {heap : Heap} {part : Option Buffer} (holds : heap.Holds part bytes) :
    heap.Holds (slot part) bytes := by
  cases part with
  | none => exact holds
  | some buffer =>
      cases place : buffer.address with
      | some address => simpa [slot, Option.filter, place] using holds
      | none =>
          rw [holds.absent (by simpa using place)]
          simpa [slot, Option.filter, place] using heap.holds_none

theorem convertedData_holds {converted : Option Buffer} (formed : machine.heap.WellFormed)
    (holds : machine.heap.Holds column.data bytes)
    (sized : bytes.length = column.rows * column.type.logical.width?.getD 0)
    (ran : column.convertedData resource machine = (.ok converted, middle)) :
    Heap.Spares [] machine.heap middle.heap ∧
      middle.heap.Holds (converted <|> column.data) (column.type.converted column.rows bytes) := by
  obtain ⟨⟨logical, scale⟩, rows, data, mask, nullCount, children⟩ := column
  cases logical
  case decimal32 | decimal64 =>
    obtain ⟨wide, made, rfl⟩ := map_eq_ok ran
    rw [dataPointer_eq] at made
    exact NarrowDecimal.widenAt_holds formed holds sized made
  case bool8 =>
    obtain ⟨packed, made, rfl⟩ := map_eq_ok ran
    rw [dataPointer_eq] at made
    exact Bitmask.ofBooleans_holds formed holds (sized.trans (Nat.mul_one rows)) made
  all_goals
    cases ran
    exact ⟨.of_eq rfl, holds⟩

variable {scope : Scope} {count : Nat} {held : Holdings}

theorem toArray_shaped (flat : column.Flat)
    (made : column.toArray resource machine = (.ok node, after)) : column.Shaped node := by
  obtain ⟨untyped, rfl, -⟩ | ⟨typed, converted, middle, -, rfl, -⟩ := toArray_ok made
  · obtain ⟨unmasked, nulls⟩ := flat.untyped untyped
    refine ⟨ArrayNode.length_make .., ?_, rfl, (if_pos untyped).symm, ?_⟩
    · rw [ArrayNode.nullCount_make, nulls]
    · rw [unmasked]
      rfl
  · exact ⟨ArrayNode.length_make .., ArrayNode.nullCount_make .., rfl, (if_neg typed).symm, rfl⟩

/-- Nulls have nothing to hand over. -/
theorem Flat.untyped_carried (flat : column.Flat) (untyped : column.type.logical = .empty)
    (before after : Heap) :
    column.Carried before (.make column.rows column.rows [] [] none) after := by
  obtain ⟨unmasked, -⟩ := flat.untyped untyped
  refine ⟨fun bytes holds => ?_, fun bytes _ sized => ?_⟩
  · rw [unmasked] at holds
    rw [holds.absent rfl]
    exact Heap.holds_none _
  · rw [untyped] at sized
    have none : bytes = [] := List.eq_nil_of_length_eq_zero sized
    rw [none, ColumnType.converted, untyped]
    exact Heap.holds_none _

/-- Only data that have been converted are left over. -/
theorem Flat.leftover (flat : column.Flat) (converted : Option Buffer) :
    ∀ buffer ∈ (if converted.isSome then column.data.toList else []) ++ buffersOfAll column.children,
      converted.isSome ∧ buffer ∈ column.data.toList := by
  rw [flat.bare, buffersOfAll, List.append_nil]
  split_ifs with replaced
  · exact fun buffer member => ⟨replaced, member⟩
  · simp

/-- The array has taken the contents over, and what is not the column's is as it was. -/
theorem toArray_carried (sound : resource.Sound count)
    (custody : Custody scope count (held + .ofBuffers column.buffers) machine)
    (careful : scope.careful) (flat : column.Flat)
    (made : column.toArray resource machine = (.ok node, after)) :
    column.Carried machine.heap node after.heap ∧
      Heap.Spares column.buffers machine.heap after.heap := by
  obtain ⟨untyped, rfl, rfl⟩ | ⟨typed, converted, middle, ran, rfl, rfl⟩ := toArray_ok made
  · exact ⟨flat.untyped_carried untyped _ _, Buffer.freeAll_spares _ _⟩
  · have own : column.buffers = column.data.toList ++ column.mask.toList := by
      rw [buffers_eq, flat.bare, buffersOfAll, List.append_nil]
    have moved := (convertedData_custody Custody.custodial sound _ column).ok custody ran
    have dataFirst : Custody scope count
        (held + .ofBuffers column.data.toList + .ofBuffers column.mask.toList) machine :=
      custody.of_eq (by rw [own, Holdings.ofBuffers_append, add_assoc])
    obtain ⟨stored, dataHolds, length⟩ := custody.holds careful column.data_inside
    have spares := (convertedData_holds custody.heap dataHolds (length.trans flat.data) ran).1
    have within := flat.leftover converted
    generalize (if converted.isSome then column.data.toList else []) ++
      buffersOfAll column.children = leftover at within ⊢
    have freed := Buffer.freeAll_spares leftover middle
    refine ⟨⟨fun bytes holds => ?_, fun bytes holds sized => ?_⟩, ?_⟩
    · refine slot_holds ((holds.spared spares (by simp)).spared freed ?_)
      intro address place buffer member equal
      obtain ⟨mask, masked, somewhere⟩ := Option.bind_eq_some_iff.mp place
      exact dataFirst.apart careful (within buffer member).2 (Option.mem_toList.mpr masked) equal
        somewhere
    · refine slot_holds
        (((convertedData_holds custody.heap holds sized ran).2).spared freed ?_)
      intro address place buffer member equal
      obtain ⟨replaced, old⟩ := within buffer member
      obtain ⟨fresh, rfl⟩ := Option.isSome_iff_exists.mp replaced
      have inside : buffer ∈ column.buffers := own ▸ List.mem_append_left _ old
      exact moved.apart careful inside (List.mem_singleton_self fresh) equal place
    · refine (spares.trans freed).mono fun buffer member => ?_
      exact own ▸ List.mem_append_left _ (within buffer member).2

namespace Carried

variable {before after later : Heap} {buffers : List Buffer}

theorem earlier {first : Heap} (carried : column.Carried before node after)
    (spares : Heap.Spares buffers first before)
    (apart : ∀ own ∈ column.buffers, ∀ address, own.address = some address →
      ∀ buffer ∈ buffers, buffer.address ≠ some address) :
    column.Carried first node after := by
  have still {part : Option Buffer} {bytes : Bytes} (inside : ∀ own ∈ part, own ∈ column.buffers)
      (holds : first.Holds part bytes) : before.Holds part bytes := by
    refine holds.spared spares fun address place => ?_
    obtain ⟨own, member, somewhere⟩ := Option.bind_eq_some_iff.mp place
    exact apart own (inside own member) address somewhere
  exact ⟨fun bytes holds => carried.mask bytes (still column.mask_inside holds),
    fun bytes holds => carried.data bytes (still column.data_inside holds)⟩

theorem spared (carried : column.Carried before node after)
    (spares : Heap.Spares buffers after later)
    (apart : ∀ own ∈ node.buffers, ∀ address, own.address = some address →
      ∀ buffer ∈ buffers, buffer.address ≠ some address) :
    column.Carried before node later := by
  have still {index : Nat} {bytes : Bytes} (holds : after.Holds (node.part index) bytes) :
      later.Holds (node.part index) bytes := by
    refine holds.spared spares fun address place => ?_
    obtain ⟨own, member, somewhere⟩ := Option.bind_eq_some_iff.mp place
    exact apart own (ArrayNode.part_mem member) address somewhere
  exact ⟨fun bytes holds => still (carried.mask bytes holds),
    fun bytes holds sized => still (carried.data bytes holds sized)⟩

end Carried

/-- By custody each conversion leaves alone the contents of the nodes made before and of the columns
behind. -/
theorem Converts.carried {columns : List Column} {nodes : List ArrayNode} {final : Machine}
    (converts : Converts resource columns machine nodes final) (sound : resource.Sound count)
    (custody : Custody scope count (held + .ofBuffers (buffersOfAll columns)) machine)
    (careful : scope.careful) (flat : ∀ column ∈ columns, column.Flat) :
    (nodes.length = columns.length ∧
      ∀ (index : Nat) column node, columns[index]? = some column → nodes[index]? = some node →
        column.Shaped node ∧ column.Carried machine.heap node final.heap) ∧
      Heap.Spares (buffersOfAll columns) machine.heap final.heap := by
  induction converts generalizing held with
  | nil => exact ⟨⟨rfl, by simp⟩, .of_eq rfl⟩
  | @cons column rest node nodes machine middle final first others induction =>
      obtain ⟨flatFirst, flatRest⟩ := List.forall_mem_cons.mp flat
      have own : Custody scope count
          (held + .ofBuffers (buffersOfAll rest) + .ofBuffers column.buffers) machine := by
        apply custody.of_eq
        rw [buffersOfAll, Holdings.ofBuffers_append]
        abel
      obtain ⟨carried, spares⟩ := toArray_carried sound own careful flatFirst first
      have made := ((toArray_custody Custody.custodial sound _ column).ok own first).of_eq (add_right_comm _ _ _)
      obtain ⟨⟨counted, each⟩, sparesRest⟩ := induction made flatRest
      refine ⟨⟨congrArg Nat.succ counted, fun index other there found converted => ?_⟩, ?_⟩
      · cases index with
        | zero =>
            cases found
            cases converted
            refine ⟨toArray_shaped flatFirst first, carried.spared sparesRest ?_⟩
            exact fun _ inside _ place _ member => made.apart careful inside member place
        | succ index =>
            obtain ⟨shaped, behind⟩ := each index other there found converted
            refine ⟨shaped, behind.earlier spares ?_⟩
            intro one inside address place buffer member
            have among := buffers_subset
              (List.mem_of_getElem? (show rest[index]? = some other from found)) inside
            exact own.apart careful among member place
      · exact spares.trans sparesRest

end Column

end DeviceColumns
