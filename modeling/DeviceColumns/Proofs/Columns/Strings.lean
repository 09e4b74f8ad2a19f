import DeviceColumns.Proofs.Columns.Readback
import Mathlib.Data.List.Infix

/-!
Columns of strings keep every string. Offset `i` is the number of bytes of the first `i` strings, so
the offsets start at zero, never fall, end with the characters, and two neighbours bound one string.
-/

namespace DeviceColumns

set_option autoImplicit false

open DeviceColumns.Action

namespace Column

variable {values : List (Option String)} {column : Column} {heap later : Heap}
  {machine after : Machine} {resource : Resource}

section Offsets

variable {index : Nat} {value : Option String}

/-- The bytes of the strings in front of a row. -/
def bytesBefore (values : List (Option String)) (index : Nat) : Nat :=
  ((values.take index).flatMap stringBytes).length

theorem stringOffsets_eq (start : Nat) (values : List (Option String)) :
    stringOffsets start values =
      (List.range (values.length + 1)).map fun index => start + bytesBefore values index := by
  induction values generalizing start with
  | nil => simp [stringOffsets, bytesBefore]
  | cons value rest induction =>
      rw [stringOffsets, induction, List.length_cons,
        List.range_succ_eq_map (n := rest.length + 1), List.map_cons, List.map_map]
      congr 1
      apply List.map_congr_left
      intro index _
      simp [bytesBefore, Nat.add_assoc]

theorem length_stringOffsets (start : Nat) (values : List (Option String)) :
    (stringOffsets start values).length = values.length + 1 := by
  rw [stringOffsets_eq, List.length_map, List.length_range]

theorem bytesBefore_mono {fewer more : Nat} (ordered : fewer ≤ more) :
    bytesBefore values fewer ≤ bytesBefore values more :=
  ((List.take_prefix_take_left ordered).flatMap stringBytes).length_le

theorem bytesBefore_le (values : List (Option String)) (index : Nat) :
    bytesBefore values index ≤ (values.flatMap stringBytes).length :=
  ((List.take_prefix index values).flatMap stringBytes).length_le

theorem stringOffsets_ascending (start : Nat) (values : List (Option String)) :
    (stringOffsets start values).Pairwise (· ≤ ·) := by
  rw [stringOffsets_eq, List.pairwise_map]
  exact List.pairwise_lt_range.imp fun earlier =>
    Nat.add_le_add_left (bytesBefore_mono (Nat.le_of_lt earlier)) start

theorem getLast?_stringOffsets (start : Nat) (values : List (Option String)) :
    (stringOffsets start values).getLast? =
      some (start + (values.flatMap stringBytes).length) := by
  have all : bytesBefore values values.length = (values.flatMap stringBytes).length := by
    rw [bytesBefore, List.take_length]
  rw [stringOffsets_eq, List.getLast?_map, List.getLast?_range, if_neg (Nat.succ_ne_zero _),
    Option.map_some, Nat.add_sub_cancel, all]

theorem getElem?_stringOffsets {start offset : Nat}
    (found : (stringOffsets start values)[index]? = some offset) :
    offset = start + bytesBefore values index := by
  rw [stringOffsets_eq, List.getElem?_map] at found
  obtain ⟨place, counted, rfl⟩ := Option.map_eq_some_iff.mp found
  obtain ⟨inside, same⟩ := List.getElem?_eq_some_iff.mp counted
  rw [← same, List.getElem_range]

/-- Neighbouring offsets bound the bytes of one string. -/
theorem slice_characters (found : values[index]? = some value) :
    ((values.flatMap stringBytes).take (bytesBefore values (index + 1))).drop
      (bytesBefore values index) = stringBytes value := by
  have split : values.take (index + 1) = values.take index ++ [value] := by
    rw [List.take_add_one, found, Option.toList_some]
  have front : (values.flatMap stringBytes).take (bytesBefore values (index + 1)) =
      (values.take (index + 1)).flatMap stringBytes :=
    (List.prefix_iff_eq_take.mp ((List.take_prefix _ values).flatMap stringBytes)).symm
  rw [front, split, List.flatMap_append, List.flatMap_singleton]
  exact List.drop_left' rfl

end Offsets

/-- The validity that a mask of these strings has. Without missing strings there is no mask. -/
def stringValidity (values : List (Option String)) : Option (List Bool) :=
  if none ∈ values then some (values.map Option.isSome) else none

theorem ite_any_isNone (values : List (Option String)) :
    (if values.any Option.isNone then some (values.map Option.isSome) else none) =
      stringValidity values := by
  simp [stringValidity]

theorem stringValidity_none (complete : none ∉ values) : stringValidity values = none :=
  if_neg complete

theorem isSome_stringValidity : (stringValidity values).isSome = true ↔ none ∈ values := by
  unfold stringValidity
  split_ifs with missing <;> simp [missing]

theorem length_stringValidity :
    ∀ valid ∈ stringValidity values, valid.length = values.length := by
  unfold stringValidity
  split_ifs with missing
  · rintro valid ⟨⟩
    rw [List.length_map]
  · simp

theorem count_stringValidity (values : List (Option String)) :
    ((stringValidity values).getD []).count false = values.count none := by
  unfold stringValidity
  split_ifs with missing
  · rw [Option.getD_some, List.count_eq_countP, List.countP_map, List.count_eq_countP]
    congr 1
    funext value
    cases value <;> rfl
  · rw [Option.getD_none, List.count_nil, List.count_eq_zero_of_not_mem missing]

/-- A column of strings, and where their bytes and offsets are stored. -/
structure StoresStrings (column : Column) (values : List (Option String)) (heap : Heap) : Prop where
  type : column.type = ⟨.string, 0⟩
  rows : column.rows = values.length
  present : column.data.isSome = true
  data : heap.Holds column.data (values.flatMap stringBytes)
  marks : heap.Marks column.mask column.nullCount column.rows (stringValidity values)
  offsets : ∃ offsets, column.children = [offsets] ∧
    offsets.Stores ⟨.int32, 0⟩ .i32 ((stringOffsets 0 values).map Int.ofNat) none heap
  bounded : (values.flatMap stringBytes).length < maxCharacters

theorem ofStrings_stores (formed : machine.heap.WellFormed)
    (made : ofStrings values resource machine = (.ok column, after)) :
    machine.heap.Grows after.heap ∧ column.StoresStrings values after.heap := by
  simp only [ofStrings, ite_any_isNone] at made
  split_ifs at made with long
  · cases made
  · obtain ⟨offsets, second, indexed, rest⟩ := bind_eq_ok made
    obtain ⟨⟨mask, nulls⟩, third, masked, rest⟩ := bind_eq_ok rest
    obtain ⟨data, final, filled, returned⟩ := bind_eq_ok rest
    cases returned
    obtain ⟨first, stores⟩ := ofValues_stores formed indexed
    obtain ⟨grown, marks⟩ := maskOf_marks first.formed (undoOnFailure_eq_ok masked)
    obtain ⟨grows, holds⟩ :=
      Buffer.ofBytes_holds grown.formed (mapFault_eq_ok (undoOnFailure_eq_ok filled))
    exact ⟨first.trans (grown.trans grows), rfl, rfl, rfl, holds, marks.grown grows,
      ⟨offsets, rfl, stores.preserved ((grown.trans grows).preserves _)⟩, Nat.lt_of_not_le long⟩

theorem ofStrings_error {error : Error} (short : (values.flatMap stringBytes).length < maxCharacters)
    (failed : ofStrings values resource machine = (.error error, after)) :
    ∃ size, error.kind = .device (.allocation size) := by
  simp only [ofStrings, ite_any_isNone, if_neg (Nat.not_le_of_lt short)] at failed
  obtain unindexed | ⟨offsets, second, indexed, rest⟩ := bind_eq_error failed
  · exact ofValues_error rfl (by simp) unindexed
  · obtain unmasked | ⟨⟨mask, nulls⟩, third, masked, rest⟩ := bind_eq_error rest
    · obtain ⟨left, refused, -⟩ := undoOnFailure_eq_error unmasked
      exact maskOf_error length_stringValidity refused
    · obtain unfilled | ⟨data, final, filled, returned⟩ := bind_eq_error rest
      · obtain ⟨left, refused, -⟩ := undoOnFailure_eq_error unfilled
        exact Buffer.ofBytes_error refused
      · cases returned

/-- The column keeps each string apart, and marks the rows that have none. The offsets are read from
its child, the characters from its data. -/
structure KeepsStrings (column : Column) (values : List (Option String)) (offsets : List Nat)
    (characters : Bytes) (heap : Heap) : Prop where
  rows : column.rows = values.length
  child : ∃ child, column.children = [child] ∧
    child.view.values .i32 heap = .ok (offsets.map Int.ofNat)
  data : ∃ buffer, column.data = some buffer ∧ buffer.length = characters.length ∧
    buffer.read heap = .ok characters
  entries : offsets.length = column.rows + 1
  first : offsets.head? = some 0
  ascending : offsets.Pairwise (· ≤ ·)
  last : offsets.getLast? = some characters.length
  string : ∀ index start stop value, offsets[index]? = some start →
    offsets[index + 1]? = some stop → values[index]? = some value →
      (characters.take stop).drop start = value.elim [] fun text => text.toUTF8.data.toList
  masked : column.mask.isSome = true ↔ none ∈ values
  validity : column.view.validity heap =
    .ok (if none ∈ values then some (values.map Option.isSome) else none)
  nulls : column.nullCount = values.count none

namespace StoresStrings

theorem preserved (stores : column.StoresStrings values heap)
    (preserves : heap.Preserves column.buffers later) : column.StoresStrings values later := by
  obtain ⟨offsets, parts, indexed⟩ := stores.offsets
  have child : offsets ∈ column.children := by simp [parts]
  have kept := indexed.preserved (preserves.mono (child_inside child))
  exact { stores with
    data := preserves.holds column.data_inside stores.data
    marks := stores.marks.preserved preserves column.mask_inside
    offsets := ⟨offsets, parts, kept⟩ }

theorem keeps_each (stores : column.StoresStrings values heap) :
    column.KeepsStrings values (stringOffsets 0 values) (values.flatMap stringBytes) heap where
  rows := stores.rows
  child := by
    obtain ⟨offsets, parts, indexed⟩ := stores.offsets
    refine ⟨offsets, parts, indexed.reads_values fun value member => ?_⟩
    obtain ⟨offset, inside, rfl⟩ := List.mem_map.mp member
    obtain ⟨index, found⟩ := List.mem_iff_getElem?.mp inside
    have counted := getElem?_stringOffsets found
    have within := bytesBefore_le values index
    have bounded := stores.bounded
    simp only [maxCharacters] at bounded
    simp only [HostType.Fits, HostType.isSigned, HostType.width, if_true, Int.ofNat_eq_natCast]
    omega
  data := by
    obtain ⟨buffer, data⟩ := Option.isSome_iff_exists.mp stores.present
    have holds := stores.data
    rw [data] at holds
    have length := holds.length buffer rfl
    refine ⟨buffer, data, length, ?_⟩
    have read := holds.read (Nat.le_of_eq length)
    rwa [length, List.take_length, ← length] at read
  entries := by rw [length_stringOffsets, stores.rows]
  first := by cases values <;> rfl
  ascending := stringOffsets_ascending 0 values
  last := by rw [getLast?_stringOffsets, Nat.zero_add]
  string := by
    intro index start stop value lower upper found
    rw [getElem?_stringOffsets lower, getElem?_stringOffsets upper, Nat.zero_add, Nat.zero_add,
      slice_characters found]
    cases value <;> rfl
  masked := by
    rw [stores.marks.masked, isSome_stringValidity, stores.rows]
    refine and_iff_left_of_imp fun missing empty => ?_
    rw [List.eq_nil_of_length_eq_zero empty] at missing
    exact List.not_mem_nil missing
  validity := by
    rw [validity_of_marks stores.marks, stores.rows]
    change _ = Except.ok (stringValidity values)
    split_ifs with empty
    · rw [List.eq_nil_of_length_eq_zero empty, stringValidity_none List.not_mem_nil]
    · rfl
  nulls := by rw [stores.marks.nulls, count_stringValidity]

end StoresStrings

/-- Each string is kept for as long as the blocks of the column keep what they store. From `2 ^ 31`
bytes on nothing is made and nothing is allocated; below, only the device can refuse. -/
theorem ofStrings_keeps_each (formed : machine.heap.WellFormed) (values : List (Option String))
    (resource : Resource) :
    (∀ column after, ofStrings values resource machine = (.ok column, after) →
      ∀ later, after.heap.Preserves column.buffers later →
        ∃ offsets characters, column.KeepsStrings values offsets characters later) ∧
    (2 ^ 31 ≤ (values.flatMap stringBytes).length →
      ∃ error, ofStrings values resource machine = (.error error, machine) ∧
        error.kind = .shapeMismatch) ∧
    ∀ error after, ofStrings values resource machine = (.error error, after) →
      (values.flatMap stringBytes).length < 2 ^ 31 →
        ∃ size, error.kind = .device (.allocation size) := by
  refine ⟨?_, ?_, fun error after failed short => ofStrings_error short failed⟩
  · intro column after made later preserves
    have stores := (ofStrings_stores formed made).2
    exact ⟨_, _, (stores.preserved preserves).keeps_each⟩
  · intro long
    refine ⟨.stringsTooLong, ?_, rfl⟩
    simp only [ofStrings]
    rw [if_pos (show maxCharacters ≤ _ from long)]
    rfl

/-- A string of two bytes, a missing one, an empty one and a longer one. -/
def words : List (Option String) := [some "é", none, some "", some "abc"]

def wordsColumn : Column := ⟨⟨.string, 0⟩, 4,
  some ⟨some 0x100000000100, 5, ⟨[Session.trackedLedger]⟩⟩,
  some ⟨some 0x100000000080, 64, ⟨[Session.trackedLedger]⟩⟩, 1,
  [⟨⟨.int32, 0⟩, 5, some ⟨some 0x100000000000, 20, ⟨[Session.trackedLedger]⟩⟩, none, 0, []⟩]⟩

def wordsLater : Session :=
  ((Session.initial.perform (.strings "w" words "mr")).2.perform
    (.booleans "b" [true, false] none "mr")).2

theorem ofStrings_keeps_each_words :
    (∃ offsets characters,
      wordsColumn.KeepsStrings words offsets characters wordsLater.machine.heap) ∧
    ∃ error, ofStrings (List.replicate (2 ^ 31) (some "a")) .device Session.initial.machine =
        (.error error, Session.initial.machine) ∧
      error.kind = .shapeMismatch := by
  have formed : Session.initial.machine.heap.WellFormed := Session.Reached.initial.wellFormed
  have column : (ofStrings words ⟨[Session.trackedLedger]⟩ Session.initial.machine).1 =
      .ok wordsColumn := rfl
  have made : ofStrings words ⟨[Session.trackedLedger]⟩ Session.initial.machine =
      (.ok wordsColumn, (Session.initial.perform (.strings "w" words "mr")).2.machine) :=
    Prod.ext column rfl
  have leads : Session.Leads (Session.initial.perform (.strings "w" words "mr")).2 _ wordsLater :=
    Session.Leads.start.step (.booleans "b" [true, false] none "mr")
  have kept : (Session.initial.perform (.strings "w" words "mr")).2.machine.heap.Preserves
      wordsColumn.buffers wordsLater.machine.heap :=
    leads.preserves (Session.Reached.initial.step _) (by decide +kernel) (by decide +kernel)
  have letter : (stringBytes (some "a")).length = 1 := rfl
  have long : ((List.replicate (2 ^ 31) (some "a")).flatMap stringBytes).length = 2 ^ 31 := by
    rw [List.length_flatMap, List.map_replicate, letter, List.sum_replicate_nat, Nat.mul_one]
  constructor
  · exact (ofStrings_keeps_each formed words _).1 _ _ made _ kept
  · exact (ofStrings_keeps_each formed _ .device).2.1 (Nat.le_of_eq long.symm)

end Column

end DeviceColumns
