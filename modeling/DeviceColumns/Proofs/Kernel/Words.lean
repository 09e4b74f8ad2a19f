import DeviceColumns.Proofs.Kernel.Packing
import Mathlib.Data.List.Induction
import Mathlib.Tactic.SplitIfs

/-!
Packing word by word. After each bit the words show the bits so far and are clear everywhere else,
also where there are no words yet. So the mask has the bits in their order, and is the one that
comes of cutting the bits into bytes.
-/

namespace DeviceColumns.Bitmask

set_option autoImplicit false

variable {words : Array UInt32} {bits : List Bool}

/-- There are as many words as the bits need. Bit for bit they are the given ones, and clear behind
them. -/
structure Shows (words : Array UInt32) (bits : List Bool) : Prop where
  size : words.size = pieces bits.length bitsPerWord
  bit : ∀ word place, place < bitsPerWord →
    (words[word]?.getD 0).toNat.testBit place = bits.getD (word * bitsPerWord + place) false

theorem testBit_or_bit (word : UInt32) {index place : Nat} (low : index < bitsPerWord)
    (inside : place < bitsPerWord) :
    (word ||| 1 <<< UInt32.ofNat index).toNat.testBit place =
      (word.toNat.testBit place || decide (index = place)) := by
  simp only [bitsPerWord] at low inside
  have shift : (UInt32.ofNat index).toNat % 32 = index := by
    rw [UInt32.toNat_ofNat']
    omega
  rw [UInt32.toNat_or, UInt32.toNat_shiftLeft, shift, Nat.testBit_or, Nat.testBit_mod_two_pow]
  simp [inside, Nat.one_shiftLeft, Nat.testBit_two_pow]

theorem getD_concat (bits : List Bool) (bit : Bool) (index : Nat) :
    (bits ++ [bit]).getD index false =
      (bits.getD index false || (bit && decide (bits.length = index))) := by
  grind

theorem getD_beginWord (words : Array UInt32) (index word : Nat) :
    (beginWord words index)[word]?.getD 0 = words[word]?.getD 0 := by
  unfold beginWord
  grind

theorem getD_modify {index : Nat} (inside : index < words.size) (change : UInt32 → UInt32)
    (word : Nat) : (words.modify index change)[word]?.getD 0 =
      if index = word then change (words[word]?.getD 0) else words[word]?.getD 0 := by
  grind

theorem size_beginWord {count : Nat} (size : words.size = pieces count bitsPerWord) :
    (beginWord words count).size = count / bitsPerWord + 1 := by
  unfold beginWord
  split_ifs with full
  · rw [Array.size_push, size]
    simp only [pieces, bitsPerWord] at full ⊢
    omega
  · rw [size]
    simp only [pieces, bitsPerWord] at full ⊢
    omega

theorem size_pushBit (words : Array UInt32) (bit : Bool) (index : Nat) :
    (pushBit words bit index).size = (beginWord words index).size := by
  cases bit with
  | false => rfl
  | true => rw [pushBit, if_pos rfl, Array.size_modify]

/-- One more bit shows as well: the word that it belongs to is the last one, even if it has only
just been begun. -/
theorem Shows.push (shows : Shows words bits) (bit : Bool) :
    Shows (pushBit words bit bits.length) (bits ++ [bit]) := by
  have last := size_beginWord shows.size
  have needed : pieces (bits ++ [bit]).length bitsPerWord = bits.length / bitsPerWord + 1 := by
    simp only [pieces, bitsPerWord, List.length_append, List.length_singleton]
    omega
  refine ⟨(size_pushBit words bit bits.length).trans (last.trans needed.symm),
    fun word place inside => ?_⟩
  have before := shows.bit word place inside
  rw [← getD_beginWord words bits.length] at before
  rw [getD_concat, ← before]
  cases bit with
  | false => rw [Bool.false_and, Bool.or_false]; rfl
  | true =>
      have there : bits.length / bitsPerWord < (beginWord words bits.length).size := by
        rw [last]
        exact Nat.lt_succ_self _
      rw [pushBit, if_pos rfl, last, Nat.add_sub_cancel, getD_modify there, Bool.true_and]
      split_ifs with here
      · have place_iff : bits.length % bitsPerWord = place ↔
            bits.length = word * bitsPerWord + place := by
          rw [← here]
          simp only [bitsPerWord]
          omega
        rw [testBit_or_bit _ (Nat.mod_lt _ (by decide)) inside, decide_eq_decide.mpr place_iff]
      · have elsewhere : bits.length ≠ word * bitsPerWord + place := by
          simp only [bitsPerWord] at here inside ⊢
          omega
        rw [decide_eq_false elsewhere, Bool.or_false]

theorem packWords_concat (bits : List Bool) (bit : Bool) :
    packWords (bits ++ [bit]) = pushBit (packWords bits) bit bits.length := by
  simp [packWords, List.zipIdx_append]

theorem packWords_shows (bits : List Bool) : Shows (packWords bits) bits := by
  -- The loop adds the last bit last, so that is the bit which the induction takes off.
  induction bits using List.reverseRecOn with
  | nil => exact ⟨rfl, by simp [packWords]⟩
  | append_singleton bits bit shows =>
      rw [packWords_concat]
      exact shows.push bit

/-- A set bit behind 32 others is the lowest of the second word. -/
example : packWords (List.replicate 32 false ++ [true]) = #[0, 1] := by decide

/-- The bits of a number of `width` bytes. -/
theorem unpack_ofNat (width number : Nat) :
    unpack (Bytes.ofNat width number) = (List.range (8 * width)).map number.testBit := by
  induction width generalizing number with
  | zero => rfl
  | succ width induction =>
      rw [Bytes.ofNat, unpack_cons, induction, Nat.mul_succ, Nat.add_comm, List.range_add,
        List.map_append, List.map_map]
      congr 1
      · apply List.map_congr_left
        intro index inside
        have low : index < 8 := List.mem_range.mp inside
        have byte : (UInt8.ofNat (number % 256)).toNat = number % 2 ^ 8 := by simp
        rw [byte, Nat.testBit_mod_two_pow, decide_eq_true low, Bool.true_and]
      · apply List.map_congr_left
        intro index _
        have shifted : (number / 2 ^ 8).testBit index = number.testBit (index + 8) :=
          Nat.testBit_div_two_pow number index
        rw [Function.comp_apply, Nat.add_comm 8, ← shifted]

theorem bitsOf_injective {first second : UInt8} (same : bitsOf first = bitsOf second) :
    first = second := by
  apply UInt8.toNat_inj.mp
  apply Nat.eq_of_testBit_eq
  intro index
  by_cases inside : index < 8
  · have bit := congrArg (fun bits => bits[index]?) same
    simpa [getElem?_bitsOf _ inside] using bit
  · have behind (byte : UInt8) : byte.toNat.testBit index = false := by
      apply Nat.testBit_lt_two_pow
      calc byte.toNat < 2 ^ 8 := byte.toNat_lt
        _ ≤ 2 ^ index := Nat.pow_le_pow_right (by decide) (Nat.not_lt.mp inside)
    rw [behind, behind]

/-- A mask is known from its bits. -/
theorem unpack_injective {first second : Bytes} (same : unpack first = unpack second) :
    first = second := by
  have lengths : first.length = second.length := by
    have bits := congrArg List.length same
    rw [length_unpack, length_unpack] at bits
    omega
  induction first generalizing second with
  | nil => exact (List.eq_nil_of_length_eq_zero lengths.symm).symm
  | cons byte rest induction =>
      cases second with
      | nil => simp at lengths
      | cons other others =>
          rw [unpack_cons, unpack_cons] at same
          obtain ⟨here, behind⟩ := List.append_inj same (by simp)
          rw [bitsOf_injective here, induction behind (by simpa using lengths)]

theorem toList_eq_map_range (words : Array UInt32) :
    words.toList = (List.range words.size).map fun word => words[word]?.getD 0 := by
  apply List.ext_getElem
  · simp
  · intro word inside _
    rw [Array.length_toList] at inside
    simp [inside]

theorem unpack_pack (bits : List Bool) : unpack (pack bits) =
    (List.range (8 * wordBytes bits.length)).map fun index => bits.getD index false := by
  obtain ⟨size, shown⟩ := packWords_shows bits
  have each (word : Nat) : unpack (Bytes.ofNat 4 ((packWords bits)[word]?.getD 0).toNat) =
      (List.range bitsPerWord).map fun place => bits.getD (word * bitsPerWord + place) false := by
    rw [unpack_ofNat]
    apply List.map_congr_left
    intro place inside
    exact shown word place (List.mem_range.mp inside)
  have bytes : 8 * wordBytes bits.length = pieces bits.length bitsPerWord * bitsPerWord := by
    simp only [wordBytes, bitsPerWord]
    omega
  calc unpack (pack bits)
    _ = (packWords bits).toList.flatMap fun word => unpack (Bytes.ofNat 4 word.toNat) :=
        List.flatMap_assoc
    _ = (List.range (pieces bits.length bitsPerWord)).flatMap fun word =>
          (List.range bitsPerWord).map fun place =>
            bits.getD (word * bitsPerWord + place) false := by
        rw [toList_eq_map_range, List.flatMap_map, size]
        simp only [each]
    _ = (List.range (8 * wordBytes bits.length)).map fun index => bits.getD index false := by
        rw [bytes, ← range_tiled, List.map_flatMap]
        simp only [List.map_map, Function.comp_def]

theorem pack_eq (bits : List Bool) : pack bits = packInto (wordBytes bits.length) bits :=
  unpack_injective ((unpack_pack bits).trans (unpack_packInto _ bits).symm)

/-- Behind the last bit there are only clear bytes. -/
theorem packInto_add {length : Nat} (room : bits.length ≤ 8 * length) (more : Nat) :
    packInto (length + more) bits = packInto length bits ++ List.replicate more 0 := by
  simp only [packInto, List.range_add, List.map_append, List.map_map]
  congr 1
  apply List.eq_replicate_iff.mpr
  refine ⟨by simp, fun byte member => ?_⟩
  obtain ⟨index, -, rfl⟩ := List.mem_map.mp member
  have nothing : bits.toArray.extract ((length + index) * 8) ((length + index) * 8 + 8) = #[] := by
    apply Array.extract_eq_empty_of_le
    rw [List.size_toArray]
    omega
  rw [Function.comp_apply, nothing]
  rfl

/-- A mask of any size is the same, made word by word and cut or filled up, or byte by byte. -/
theorem resize_pack (size : Nat) (bits : List Bool) :
    resize size (pack bits) = packInto size bits := by
  rw [resize, pack_eq, length_packInto]
  obtain shorter | longer := Nat.le_total size (wordBytes bits.length)
  · rw [take_packInto shorter, Nat.sub_eq_zero_of_le shorter, List.replicate_zero, List.append_nil]
  · have more := packInto_add (le_wordBytes bits.length) (size - wordBytes bits.length)
    rw [Nat.add_sub_cancel' longer] at more
    rw [List.take_of_length_le (by rwa [length_packInto]), more]

end DeviceColumns.Bitmask
