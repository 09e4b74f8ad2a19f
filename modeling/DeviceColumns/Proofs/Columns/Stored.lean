import DeviceColumns.Column.Build
import DeviceColumns.Proofs.Columns.HostValues
import DeviceColumns.Proofs.Columns.Parts
import DeviceColumns.Proofs.Kernel.Words
import DeviceColumns.Proofs.Memory.Contents
import DeviceColumns.Proofs.Memory.History

/-!
What constructors leave in memory. A constructor that succeeds only adds to what is stored: each
buffer that it makes holds the bytes it was made of, and whatever was stored before is stored still.
So a column of host values has these values in its data, and its mask has their validity. Where its
input fits together, a constructor fails only if the device refuses to allocate.
-/

namespace DeviceColumns

set_option autoImplicit false

open DeviceColumns.Action

namespace Heap

/-- There is a mask if there are rows to mark, and it has the validity of each row. -/
structure Marks (heap : Heap) (mask : Option Buffer) (nulls rows : Nat)
    (validity : Option (List Bool)) : Prop where
  sized : ∀ valid ∈ validity, valid.length = rows
  masked : mask.isSome = true ↔ validity.isSome = true ∧ rows ≠ 0
  stored : ∀ valid ∈ validity, rows ≠ 0 →
    heap.Holds mask (Bitmask.packInto (Bitmask.allocationSize rows) valid)
  nulls : nulls = (validity.getD []).count false

namespace Marks

variable {before after : Heap} {buffers : List Buffer} {mask : Option Buffer} {nulls rows : Nat}
  {validity : Option (List Bool)}

theorem preserved (marks : before.Marks mask nulls rows validity)
    (preserves : Preserves buffers before after) (inside : ∀ buffer ∈ mask, buffer ∈ buffers) :
    after.Marks mask nulls rows validity where
  sized := marks.sized
  masked := marks.masked
  stored := fun valid given inhabited => preserves.holds inside (marks.stored valid given inhabited)
  nulls := marks.nulls

theorem grown (marks : before.Marks mask nulls rows validity) (grows : before.Grows after) :
    after.Marks mask nulls rows validity :=
  marks.preserved (grows.preserves mask.toList) fun _ => Option.mem_toList.mpr

/-- Without a mask no row is null: there are none, or nothing is known of their validity. -/
theorem unmasked (marks : before.Marks none nulls rows validity) :
    nulls = 0 ∧ (rows = 0 ∨ validity = none) := by
  have absent := marks.masked
  have counted := marks.nulls
  cases validity with
  | none => exact ⟨counted, .inr rfl⟩
  | some valid =>
      have empty : rows = 0 := by simpa using absent
      have bare : valid = [] := List.eq_nil_of_length_eq_zero ((marks.sized valid rfl).trans empty)
      exact ⟨by rw [counted, bare, Option.getD_some, List.count_nil], .inl empty⟩

theorem marked {buffer : Buffer} (marks : before.Marks (some buffer) nulls rows validity) :
    ∃ valid, validity = some valid ∧ valid.length = rows ∧ rows ≠ 0 ∧
      before.Holds (some buffer) (Bitmask.packInto (Bitmask.allocationSize rows) valid) ∧
      nulls = valid.count false := by
  obtain ⟨given, inhabited⟩ := marks.masked.mp rfl
  obtain ⟨valid, rfl⟩ := Option.isSome_iff_exists.mp given
  exact ⟨valid, rfl, marks.sized valid rfl, inhabited, marks.stored valid rfl inhabited,
    marks.nulls⟩

end Marks

end Heap

variable {machine after : Machine} {resource : Resource} {validity : Option (List Bool)}

/-- A buffer made of bytes holds them. -/
theorem Buffer.ofBytes_holds {bytes : Bytes} {buffer : Buffer} (formed : machine.heap.WellFormed)
    (made : Buffer.ofBytes bytes resource machine = (.ok buffer, after)) :
    machine.heap.Grows after.heap ∧ after.heap.Holds (some buffer) bytes := by
  obtain ⟨got, middle, granted, filling⟩ := bind_eq_ok made
  obtain ⟨done, final, filled, returned⟩ := bind_eq_ok filling
  cases returned
  have apart : middle.heap.WellFormed := by
    obtain ⟨-, -, rfl⟩ | ⟨-, address, -, handed⟩ := allocate_ok granted
    · exact formed
    · exact formed.allocate handed
  have written := fill_ok filled
  have stored : Heap.Spares [] machine.heap after.heap ∧ after.heap.Holds (some buffer) bytes := by
    by_cases empty : bytes = []
    · subst empty
      obtain ⟨spares, holds⟩ := empty_holds granted
      rw [Heap.write_nothing written]
      exact ⟨spares, holds⟩
    · exact filled_holds formed (mt List.eq_nil_of_length_eq_zero empty) granted filled rfl
  exact ⟨⟨apart.write written, stored.1⟩, stored.2⟩

/-- Making a buffer of bytes fails only if the device has no room for them. -/
theorem Buffer.ofBytes_error {bytes : Bytes} {error : Error}
    (failed : (Buffer.ofBytes bytes resource).onColumns machine = (.error error, after)) :
    ∃ size, error.kind = .device (.allocation size) := by
  obtain ⟨cause, stopped, rfl⟩ := mapFault_eq_error failed
  obtain refused | ⟨buffer, middle, granted, filling⟩ := bind_eq_error stopped
  · obtain ⟨size, kind⟩ := allocate_error refused
    exact ⟨size, congrArg ErrorKind.device kind⟩
  · obtain ⟨final, filled⟩ := fill_allocated granted
    rw [bind_ok filled] at filling
    cases filling

namespace Column

theorem maskOf_marks {rows nulls : Nat} {mask : Option Buffer} (formed : machine.heap.WellFormed)
    (made : maskOf validity rows resource machine = (.ok (mask, nulls), after)) :
    machine.heap.Grows after.heap ∧ after.heap.Marks mask nulls rows validity := by
  unfold maskOf at made
  cases validity with
  | none =>
      cases made
      exact ⟨.refl formed, by simp, by simp, by simp, rfl⟩
  | some valid =>
      simp only at made
      split_ifs at made with different _ empty
      · cases made
      · cases made
      · have sized : valid.length = rows := not_not.mp different
        have bare : valid = [] := List.eq_nil_of_length_eq_zero (sized.trans empty)
        cases made
        exact ⟨.refl formed, by simpa using sized, by simp [empty], by simp [empty], by simp [bare]⟩
      · have sized : valid.length = rows := not_not.mp different
        obtain ⟨buffer, middle, packed, returned⟩ := bind_eq_ok made
        cases returned
        obtain ⟨grows, holds⟩ := Buffer.ofBytes_holds formed (mapFault_eq_ok packed)
        rw [Bitmask.resize_pack] at holds
        exact ⟨grows, by simpa using sized, by simp [empty], by simpa [empty] using holds, rfl⟩

theorem maskOf_mismatch {valid : List Bool} {rows : Nat} (different : valid.length ≠ rows)
    (resource : Resource) (machine : Machine) :
    maskOf (some valid) rows resource machine =
      (.error (.validityLength valid.length rows), machine) := by
  simp only [maskOf, if_pos different]
  rfl

theorem maskOf_error {rows : Nat} {error : Error}
    (sized : ∀ valid ∈ validity, valid.length = rows)
    (failed : maskOf validity rows resource machine = (.error error, after)) :
    ∃ size, error.kind = .device (.allocation size) := by
  unfold maskOf at failed
  cases validity with
  | none => cases failed
  | some valid =>
      simp only [if_neg (not_not.mpr (sized valid rfl))] at failed
      split_ifs at failed with empty
      · cases failed
      · obtain refused | ⟨mask, middle, packed, returned⟩ := bind_eq_error failed
        · exact Buffer.ofBytes_error refused
        · cases returned

/-- A column of host values, and where they are stored. -/
structure Stores (column : Column) (type : ColumnType) (host : HostType) (values : List Int)
    (validity : Option (List Bool)) (heap : Heap) : Prop where
  type : column.type = type
  rows : column.rows = values.length
  wide : column.type.logical.width? = some host.width
  bare : column.children = []
  present : column.data.isSome = true
  counted : values.length * host.width < 2 ^ 64
  data : heap.Holds column.data (values.flatMap host.encode)
  marks : heap.Marks column.mask column.nullCount column.rows validity

variable {type : ColumnType} {host : HostType} {values : List Int} {column : Column}

theorem ofValues_stores (formed : machine.heap.WellFormed)
    (made : ofValues type host values validity resource machine = (.ok column, after)) :
    machine.heap.Grows after.heap ∧ column.Stores type host values validity after.heap := by
  unfold ofValues at made
  split_ifs at made with different
  · cases made
  · obtain ⟨⟨mask, nulls⟩, middle, masked, rest⟩ := bind_eq_ok made
    obtain ⟨data, final, filled, returned⟩ := bind_eq_ok rest
    cases returned
    obtain ⟨grown, marks⟩ := maskOf_marks formed masked
    obtain ⟨grows, holds⟩ :=
      Buffer.ofBytes_holds grown.formed (mapFault_eq_ok (undoOnFailure_eq_ok filled))
    have counted := holds.addressable grows.formed
    rw [host.length_flatMap_encode] at counted
    exact ⟨grown.trans grows, rfl, rfl, not_not.mp different, rfl, rfl,
      Nat.lt_of_le_of_lt counted (by decide), holds, marks.grown grows⟩

theorem ofValues_error {error : Error} (wide : type.logical.width? = some host.width)
    (sized : ∀ valid ∈ validity, valid.length = values.length)
    (failed : ofValues type host values validity resource machine = (.error error, after)) :
    ∃ size, error.kind = .device (.allocation size) := by
  rw [ofValues, if_neg (not_not.mpr wide)] at failed
  obtain unmasked | ⟨⟨mask, nulls⟩, middle, masked, rest⟩ := bind_eq_error failed
  · exact maskOf_error sized unmasked
  · obtain refused | ⟨data, final, filled, returned⟩ := bind_eq_error rest
    · obtain ⟨left, refused, -⟩ := undoOnFailure_eq_error refused
      exact Buffer.ofBytes_error refused
    · cases returned

theorem Stores.preserved {heap later : Heap} (stores : column.Stores type host values validity heap)
    (preserves : heap.Preserves column.buffers later) :
    column.Stores type host values validity later :=
  { stores with
    data := preserves.holds column.data_inside stores.data
    marks := stores.marks.preserved preserves column.mask_inside }

/-- A column that has children in place of data, and where its mask is stored. -/
structure Nests (column : Column) (logical : LogicalType) (children : List Column)
    (validity : Option (List Bool)) (heap : Heap) : Prop where
  type : column.type = ⟨logical, 0⟩
  data : column.data = none
  children : column.children = children
  marks : heap.Marks column.mask column.nullCount column.rows validity

namespace Nests

variable {logical : LogicalType} {children : List Column} {heap later : Heap}

theorem preserved (nests : column.Nests logical children validity heap)
    (preserves : heap.Preserves column.buffers later) :
    column.Nests logical children validity later :=
  { nests with marks := nests.marks.preserved preserves column.mask_inside }

theorem keeps_child (nests : column.Nests logical children validity heap)
    (preserves : heap.Preserves column.buffers later) {child : Column} (member : child ∈ children) :
    heap.Preserves child.buffers later := by
  rw [← nests.children] at member
  exact preserves.mono (child_inside member)

end Nests

theorem ofLists_nests {offsets : List Int} {element : Column} (formed : machine.heap.WellFormed)
    (made : ofLists offsets element validity resource machine = (.ok column, after)) :
    machine.heap.Grows after.heap ∧ offsets.length = column.rows + 1 ∧
      ∃ offsetColumn, column.Nests .list [offsetColumn, element] validity after.heap ∧
        offsetColumn.Stores ⟨.int32, 0⟩ .i32 offsets none after.heap := by
  have made := undoOnFailure_eq_ok made
  cases ended : offsets.getLast? with
  | none =>
      rw [ended] at made
      cases made
  | some last =>
      have counted : offsets.length ≠ 0 := by
        intro empty
        rw [List.eq_nil_of_length_eq_zero empty] at ended
        cases ended
      simp only [ended] at made
      split_ifs at made with different
      · cases made
      · obtain ⟨offsetColumn, middle, indexed, rest⟩ := bind_eq_ok made
        obtain ⟨⟨mask, nulls⟩, final, masked, returned⟩ := bind_eq_ok rest
        cases returned
        obtain ⟨grown, stores⟩ := ofValues_stores formed indexed
        obtain ⟨grows, marks⟩ := maskOf_marks grown.formed (undoOnFailure_eq_ok masked)
        exact ⟨grown.trans grows, by simp only; omega, offsetColumn, ⟨rfl, rfl, rfl, marks⟩,
          stores.preserved (grows.preserves _)⟩

theorem ofFields_nests {rows : Nat} {fields : List Column} (formed : machine.heap.WellFormed)
    (made : ofFields rows fields validity resource machine = (.ok column, after)) :
    machine.heap.Grows after.heap ∧ column.Nests .struct fields validity after.heap ∧
      ∀ field ∈ fields, field.rows = column.rows := by
  have made := undoOnFailure_eq_ok made
  cases uneven : fields.zipIdx.find? fun entry => entry.1.rows ≠ rows with
  | some entry =>
      rw [uneven] at made
      cases made
  | none =>
      rw [uneven] at made
      obtain ⟨⟨mask, nulls⟩, final, masked, returned⟩ := bind_eq_ok made
      cases returned
      obtain ⟨grows, marks⟩ := maskOf_marks formed masked
      refine ⟨grows, ⟨rfl, rfl, rfl, marks⟩, fun field member => ?_⟩
      obtain ⟨index, found⟩ := List.mem_iff_getElem?.mp member
      have same := List.find?_eq_none.mp uneven (field, index)
        (List.mem_zipIdx_iff_getElem?.mpr found)
      simpa using same

theorem ofDictionary_nests {indices keys : Column} (formed : machine.heap.WellFormed)
    (made : ofDictionary indices keys validity resource machine = (.ok column, after)) :
    machine.heap.Grows after.heap ∧
      column.Nests .dictionary32 [indices, keys] validity after.heap ∧
      indices.type.logical.isInteger = true ∧ indices.rows = column.rows := by
  have made := undoOnFailure_eq_ok made
  split_ifs at made with fractional
  · cases made
  · obtain ⟨⟨mask, nulls⟩, final, masked, returned⟩ := bind_eq_ok made
    cases returned
    obtain ⟨grows, marks⟩ := maskOf_marks formed masked
    exact ⟨grows, ⟨rfl, rfl, rfl, marks⟩, Bool.eq_true_of_not_eq_false fractional, rfl⟩

end Column

end DeviceColumns
