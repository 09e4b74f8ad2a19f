import DeviceColumns.Kernel.Bitmask
import DeviceColumns.Kernel.Widening

/-!
What the conversion kernels do to bytes. Widening keeps the number that each value stands for, and
packing keeps the bits: they are found again in the same order, lowest first, with clear bits behind
them up to the end of the mask. `packInto` says what a mask is byte by byte, for any length.
-/

namespace DeviceColumns

set_option autoImplicit false

/-- Numbers that are counted piece by piece are counted through. -/
theorem range_tiled (count size : Nat) :
    ((List.range count).flatMap fun piece => (List.range size).map (piece * size + ·)) =
      List.range (count * size) := by
  induction count with
  | zero => simp
  | succ count induction =>
      rw [List.range_succ, List.flatMap_append, List.flatMap_singleton, Nat.succ_mul,
        List.range_add, ← induction]

namespace Bytes

variable {width : Nat} {first rest bytes value : Bytes}

theorem slices_eq (width : Nat) (bytes : Bytes) :
    slices width bytes = (List.range (bytes.length / width)).map fun index =>
      (bytes.drop (index * width)).take width := by
  simp [slices, slice, List.extract_eq_take_drop]

theorem length_slices (width : Nat) (bytes : Bytes) :
    (slices width bytes).length = bytes.length / width := by
  simp [slices]

theorem slices_append (positive : 0 < width) (whole : first.length = width) (rest : Bytes) :
    slices width (first ++ rest) = first :: slices width rest := by
  have pieces : (first ++ rest).length / width = rest.length / width + 1 := by
    rw [List.length_append, whole, Nat.add_div_left _ positive]
  rw [slices_eq, slices_eq, pieces, List.range_succ_eq_map, List.map_cons, List.map_map]
  congr 1
  · rw [Nat.zero_mul, List.drop_zero, List.take_left' whole]
  · apply List.map_congr_left
    intro index _
    have behind : (index + 1) * width = first.length + index * width := by
      rw [whole, Nat.succ_mul, Nat.add_comm]
    rw [Function.comp_apply, behind, List.drop_length_add_append]

theorem slices_flatMap {Value : Type} {encode : Value → Bytes} {values : List Value}
    (positive : 0 < width) (each : ∀ value ∈ values, (encode value).length = width) :
    slices width (values.flatMap encode) = values.map encode := by
  induction values with
  | nil => simp [slices]
  | cons value values induction =>
      obtain ⟨here, others⟩ := List.forall_mem_cons.mp each
      rw [List.flatMap_cons, slices_append positive here, induction others, List.map_cons]

theorem length_of_mem_slices (member : value ∈ slices width bytes) : value.length = width := by
  rw [slices_eq] at member
  obtain ⟨index, inside, rfl⟩ := List.mem_map.mp member
  rw [List.length_take, List.length_drop, Nat.min_eq_left]
  have pieces : (index + 1) * width ≤ bytes.length := calc
    (index + 1) * width ≤ bytes.length / width * width :=
      Nat.mul_le_mul_right width (List.mem_range.mp inside)
    _ ≤ bytes.length := Nat.div_mul_le_self _ _
  rw [Nat.succ_mul] at pieces
  omega

theorem toInt_bounds (value : Bytes) :
    -(256 ^ value.length : Nat) ≤ 2 * toInt value ∧ 2 * toInt value < (256 ^ value.length : Nat) := by
  have positive : 0 < 256 ^ value.length := Nat.pow_pos (by decide)
  have lower := Int.le_bmod (x := toNat value) positive
  have upper := Int.bmod_lt (x := toNat value) positive
  simp only [toInt]
  omega

/-- A signed number is read back from a field that is wide enough for it. -/
theorem toInt_ofInt {number : Int} (lower : -(256 ^ width : Nat) ≤ 2 * number)
    (upper : 2 * number < (256 ^ width : Nat)) : toInt (ofInt width number) = number := by
  have positive : (0 : Int) < (256 ^ width : Nat) := Int.natCast_pos.mpr (Nat.pow_pos (by decide))
  have residue : ((number % (256 ^ width : Nat)).toNat : Int) = number % (256 ^ width : Nat) :=
    Int.toNat_of_nonneg (Int.emod_nonneg _ (Int.ne_of_gt positive))
  rw [toInt, ofInt, length_ofNat, toNat_ofNat, Int.natCast_emod, residue, Int.emod_emod_of_dvd,
    Int.emod_bmod]
  · exact Int.bmod_eq_of_le (by omega) (by omega)
  · exact Int.dvd_refl _

theorem toInt_extend (shorter : value.length ≤ width) :
    toInt (ofInt width (toInt value)) = toInt value := by
  obtain ⟨lower, upper⟩ := toInt_bounds value
  have wider : 256 ^ value.length ≤ 256 ^ width := Nat.pow_le_pow_right (by decide) shorter
  exact toInt_ofInt (by omega) (by omega)

end Bytes

namespace NarrowDecimal

variable (decimal : NarrowDecimal) (narrow : Bytes)

theorem width_pos : 0 < decimal.width := by
  cases decimal <;> decide

theorem length_widenValue (value : Bytes) : (widenValue value).length = wideWidth := by
  simp [widenValue, Bytes.ofInt]

theorem slices_widen : Bytes.slices wideWidth (decimal.widen narrow) =
    (Bytes.slices decimal.width narrow).map widenValue :=
  Bytes.slices_flatMap (by decide) fun value _ => length_widenValue value

theorem length_widen :
    (decimal.widen narrow).length = narrow.length / decimal.width * wideWidth := by
  rw [widen, List.length_flatMap, List.map_congr_left fun value _ => length_widenValue value,
    List.map_const', List.sum_replicate_nat, Bytes.length_slices]

/-- Widening changes the width of each value and not the number. -/
theorem toInt_widen : (Bytes.slices wideWidth (decimal.widen narrow)).map Bytes.toInt =
    (Bytes.slices decimal.width narrow).map Bytes.toInt := by
  rw [slices_widen, List.map_map]
  apply List.map_congr_left
  intro value member
  have short : value.length ≤ wideWidth := by
    rw [Bytes.length_of_mem_slices member]
    cases decimal <;> decide
  rw [Function.comp_apply, widenValue, Bytes.toInt_extend short]

end NarrowDecimal

namespace Bitmask

/-- The byte whose bits are the first eight of these, the lowest first. -/
def byteOf (bits : List Bool) : UInt8 :=
  UInt8.ofNat (bits.foldr (fun bit high => bit.toNat + 2 * high) 0)

/-- The first `length` bytes of the mask of `bits`; bytes past the last bit are zero. -/
def packInto (length : Nat) (bits : List Bool) : Bytes :=
  let stored := bits.toArray
  (List.range length).map fun index =>
    byteOf (stored.extract (index * 8) (index * 8 + 8)).toList

theorem le_pieces (rows : Nat) : rows ≤ 8 * pieces rows 8 := by
  simp only [pieces]
  omega

theorem pieces_le_allocationSize (rows : Nat) : pieces rows 8 ≤ allocationSize rows := by
  simp only [allocationSize, wordBytes, pieces, padding, bitsPerWord]
  omega

theorem wordBytes_eq (count : Nat) : wordBytes count = 4 * ((count + 31) / 32) := rfl

theorem le_wordBytes (count : Nat) : count ≤ 8 * wordBytes count := by
  rw [wordBytes_eq]
  omega

theorem allocationSize_eq_zero {count : Nat} : allocationSize count = 0 ↔ count = 0 := by
  constructor
  · intro empty
    have room := pieces_le_allocationSize count
    simp only [pieces] at room
    omega
  · rintro rfl
    decide

theorem getElem?_bitsOf (byte : UInt8) {index : Nat} (inside : index < 8) :
    (bitsOf byte)[index]? = some (byte.toNat.testBit index) := by
  simp [bitsOf, inside]

@[simp] theorem length_bitsOf (byte : UInt8) : (bitsOf byte).length = 8 := by
  simp [bitsOf]

theorem unpack_cons (byte : UInt8) (rest : Bytes) :
    unpack (byte :: rest) = bitsOf byte ++ unpack rest := List.flatMap_cons

theorem length_unpack (mask : Bytes) : (unpack mask).length = 8 * mask.length := by
  induction mask with
  | nil => rfl
  | cons byte rest induction =>
      rw [unpack_cons, List.length_append, length_bitsOf, induction, List.length_cons]
      omega

@[simp] theorem length_packInto (length : Nat) (bits : List Bool) :
    (packInto length bits).length = length := by
  simp [packInto]

theorem take_packInto {fewer length : Nat} (shorter : fewer ≤ length) (bits : List Bool) :
    (packInto length bits).take fewer = packInto fewer bits := by
  simp [packInto, ← List.map_take, List.take_range, Nat.min_eq_left shorter]

theorem packInto_succ (length : Nat) (bits : List Bool) :
    packInto (length + 1) bits = byteOf (bits.take 8) :: packInto length (bits.drop 8) := by
  simp only [packInto, List.range_succ_eq_map, List.map_cons, List.map_map]
  congr 1
  · simp [List.extract_eq_take_drop]
  · apply List.map_congr_left
    intro index _
    simp [List.extract_eq_take_drop, Nat.succ_mul, Nat.add_comm]

theorem testBit_digits (bits : List Bool) (index : Nat) :
    (bits.foldr (fun (bit : Bool) (high : Nat) => bit.toNat + 2 * high) 0).testBit index =
      bits.getD index false := by
  induction bits generalizing index with
  | nil => simp
  | cons bit bits induction =>
      rw [List.foldr_cons]
      cases index with
      | zero => cases bit <;> simp [Nat.testBit_zero]
      | succ index =>
          have half (high : Nat) : (bit.toNat + 2 * high) / 2 = high := by
            cases bit <;> simp only [Bool.toNat_false, Bool.toNat_true] <;> omega
          rw [Nat.testBit_succ, half, induction, List.getD_cons_succ]

/-- A byte keeps eight bits; the missing ones of a shorter list are clear. -/
theorem bitsOf_byteOf (bits : List Bool) :
    bitsOf (byteOf bits) = (List.range 8).map fun index => bits.getD index false := by
  apply List.map_congr_left
  intro index inside
  have low : index < 8 := List.mem_range.mp inside
  rw [byteOf, UInt8.toNat_ofNat', Nat.testBit_mod_two_pow, testBit_digits]
  simp [low]

/-- The bits come back in their order, with clear bits behind them. -/
theorem unpack_packInto (length : Nat) (bits : List Bool) :
    unpack (packInto length bits) =
      (List.range (8 * length)).map fun index => bits.getD index false := by
  induction length generalizing bits with
  | zero => simp [packInto, unpack]
  | succ length induction =>
      rw [packInto_succ, unpack_cons, bitsOf_byteOf, induction, Nat.mul_succ, Nat.add_comm,
        List.range_add, List.map_append, List.map_map]
      congr 1
      · apply List.map_congr_left
        intro index inside
        simp [List.getD_eq_getElem?_getD, List.mem_range.mp inside]
      · apply List.map_congr_left
        intro index _
        simp [List.getD_eq_getElem?_getD, List.getElem?_drop]

theorem take_unpack_packInto {length : Nat} {bits : List Bool} (room : bits.length ≤ 8 * length) :
    (unpack (packInto length bits)).take bits.length = bits := by
  rw [unpack_packInto, ← List.map_take, List.take_range, Nat.min_eq_left room]
  apply List.ext_getElem
  · simp
  · intro index _ inside
    simp [inside]

theorem clear_behind {length : Nat} {bits : List Bool} {bit : Bool}
    (member : bit ∈ (unpack (packInto length bits)).drop bits.length) : bit = false := by
  rw [unpack_packInto, ← List.map_drop] at member
  obtain ⟨index, behind, rfl⟩ := List.mem_map.mp member
  obtain ⟨place, inside, rfl⟩ := List.mem_drop_iff_getElem.mp behind
  simp

end Bitmask

end DeviceColumns
