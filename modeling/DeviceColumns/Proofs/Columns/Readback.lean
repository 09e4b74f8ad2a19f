import DeviceColumns.Proofs.Columns.Stored
import DeviceColumns.Proofs.Isolation.Runs

/-!
What goes into a column of host values comes out of it. The data buffer has the encoded values one
behind the other, and the mask has the validity in its first bits, so both are read back as they
were given for as long as the blocks of the column keep their bytes.
-/

namespace DeviceColumns

set_option autoImplicit false

namespace Column

variable {column : Column} {type : ColumnType} {host : HostType} {values : List Int}
  {validity : Option (List Bool)} {heap later : Heap} {machine after : Machine}
  {resource : Resource}

/-- The validity is read back from the mask. Columns without rows have none. -/
theorem validity_of_marks {nulls : Nat}
    (marks : heap.Marks column.mask nulls column.rows validity) :
    column.view.validity heap = .ok (if column.rows = 0 then none else validity) := by
  rw [view_eq, View.validity]
  cases present : column.mask with
  | none =>
      rw [present] at marks
      obtain empty | unknown := marks.unmasked.2
      · rw [if_pos empty]
        rfl
      · rw [unknown, ite_self]
        rfl
  | some mask =>
      rw [present] at marks
      obtain ⟨valid, rfl, sized, inhabited, holds, -⟩ := marks.marked
      have room := Bitmask.pieces_le_allocationSize column.rows
      have padded := Bitmask.length_packInto (Bitmask.allocationSize column.rows) valid
      have filled : Bitmask.packInto (Bitmask.allocationSize column.rows) valid ≠ [] := by
        intro empty
        rw [empty, List.length_nil, eq_comm, Bitmask.allocationSize_eq_zero] at padded
        exact inhabited padded
      obtain ⟨address, place, stored⟩ := holds.placed filled
      have read := Heap.read_stored stored (room.trans_eq padded.symm)
      simp only [place, read, Bitmask.take_packInto room, if_neg inhabited]
      rw [← sized, Bitmask.take_unpack_packInto (Bitmask.le_pieces valid.length)]

namespace Stores

theorem reads_values (stores : column.Stores type host values validity heap)
    (fit : ∀ value ∈ values, host.Fits value) : column.view.values host heap = .ok values := by
  rw [view_eq, View.values, stores.rows]
  by_cases empty : values.length = 0
  · rw [if_pos empty, List.eq_nil_of_length_eq_zero empty]
  · have length := host.length_flatMap_encode values
    have filled : values.flatMap host.encode ≠ [] := by
      intro bare
      rw [bare, List.length_nil, eq_comm, Nat.mul_eq_zero] at length
      exact length.elim empty (Nat.ne_of_gt host.width_pos)
    obtain ⟨address, place, stored⟩ := stores.data.placed filled
    have read := Heap.read_stored stored (Nat.le_of_eq length.symm)
    simp only [place, Bytes.lengthOf_eq stores.counted, read, if_neg empty]
    rw [← length, List.take_length, HostType.decode_slices fit]

end Stores

/-- Reading the column gives the values and the validity that it was made of, and its null count is
the number of invalid rows. Columns without rows have no validity. -/
structure ReadsBack (column : Column) (host : HostType) (values : List Int)
    (validity : Option (List Bool)) (heap : Heap) : Prop where
  read : column.view.values host heap = .ok values
  nulls : column.nullCount = (validity.getD []).count false
  marked : column.view.validity heap = .ok (if values = [] then none else validity)

theorem Stores.reads_back (stores : column.Stores type host values validity heap)
    (fit : ∀ value ∈ values, host.Fits value) : column.ReadsBack host values validity heap where
  read := stores.reads_values fit
  nulls := stores.marks.nulls
  marked := by
    rw [validity_of_marks stores.marks, stores.rows]
    simp only [List.length_eq_zero_iff]

/-- What a column is made of is read back from it for as long as its blocks keep what they store. If
the validity does not have an entry for each value, nothing is made and nothing is allocated; if it
has, only the device can refuse. -/
theorem ofValues_reads_back (formed : machine.heap.WellFormed)
    (wide : type.logical.width? = some host.width) (fit : ∀ value ∈ values, host.Fits value)
    (validity : Option (List Bool)) (resource : Resource) :
    (∀ column after,
      ofValues type host values validity resource machine = (.ok column, after) →
      ∀ later, after.heap.Preserves column.buffers later →
        column.ReadsBack host values validity later) ∧
    (∀ valid ∈ validity, valid.length ≠ values.length →
      ∃ error, ofValues type host values validity resource machine = (.error error, machine) ∧
        error.kind = .shapeMismatch) ∧
    ∀ error after, ofValues type host values validity resource machine = (.error error, after) →
      (∀ valid ∈ validity, valid.length = values.length) →
        ∃ size, error.kind = .device (.allocation size) := by
  refine ⟨?_, ?_, fun error after failed sized => ofValues_error wide sized failed⟩
  · intro column after made later preserves
    have stores := (ofValues_stores formed made).2
    exact (stores.preserved preserves).reads_back fit
  · rintro valid ⟨⟩ different
    refine ⟨.validityLength valid.length values.length, ?_, rfl⟩
    rw [ofValues, if_neg (not_not.mpr wide)]
    exact Action.bind_error (maskOf_mismatch different resource machine)

/-- Three rows, one of them null, and behind them a buffer that is copied into. -/
def shorts : Request :=
  .values "s" ⟨.int16, 0⟩ .i16 [-2, 300, -32768] (some [true, false, true]) "mr"

def shortsColumn : Column := ⟨⟨.int16, 0⟩, 3,
  some ⟨some 0x100000000080, 6, ⟨[Session.trackedLedger]⟩⟩,
  some ⟨some 0x100000000000, 64, ⟨[Session.trackedLedger]⟩⟩, 1, []⟩

def shortsLater : Session :=
  (((Session.initial.perform shorts).2.perform (.buffer "raw" (.zeroed 8) "plain")).2.perform
    (.write (.relative "raw" 1) [7, 8])).2

theorem ofValues_reads_back_shorts :
    shortsColumn.ReadsBack .i16 [-2, 300, -32768] (some [true, false, true])
      shortsLater.machine.heap ∧
    ∃ error, ofValues ⟨.int16, 0⟩ .i16 [-2, 300] (some [true]) ⟨[Session.trackedLedger]⟩
        Session.initial.machine = (.error error, Session.initial.machine) ∧
      error.kind = .shapeMismatch := by
  have formed : Session.initial.machine.heap.WellFormed := Session.Reached.initial.wellFormed
  have column : (ofValues ⟨.int16, 0⟩ .i16 [-2, 300, -32768] (some [true, false, true])
      ⟨[Session.trackedLedger]⟩ Session.initial.machine).1 = .ok shortsColumn := rfl
  have made : ofValues ⟨.int16, 0⟩ .i16 [-2, 300, -32768] (some [true, false, true])
      ⟨[Session.trackedLedger]⟩ Session.initial.machine =
        (.ok shortsColumn, (Session.initial.perform shorts).2.machine) := Prod.ext column rfl
  have leads : Session.Leads (Session.initial.perform shorts).2 _ shortsLater :=
    (Session.Leads.start.step (.buffer "raw" (.zeroed 8) "plain")).step
      (.write (.relative "raw" 1) [7, 8])
  have kept : (Session.initial.perform shorts).2.machine.heap.Preserves shortsColumn.buffers
      shortsLater.machine.heap :=
    leads.preserves (Session.Reached.initial.step shorts) (by decide +kernel) (by decide +kernel)
  constructor
  · exact (ofValues_reads_back formed rfl (by decide) _ _).1 _ _ made _ kept
  · exact (ofValues_reads_back formed rfl (by decide) _ _).2.1 [true] rfl (by decide)

end Column

end DeviceColumns
