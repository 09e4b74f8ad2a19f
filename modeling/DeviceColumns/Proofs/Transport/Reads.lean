import DeviceColumns.Transport.Decode
import Mathlib.Tactic.SplitIfs

/-!
What it means that a reader undoes an encoding: it takes exactly the encoded bytes off whatever
follows them, and is charged for exactly these. The notion is closed under sequencing, so the round
trip of a format follows the shape of its encoder.
-/

namespace DeviceColumns

set_option autoImplicit false

variable {Value Next : Type}

namespace Reader

/-- `reader` finds `value` in `encoded`, leaves what follows, and uses up one byte of allowance for
each encoded byte. -/
def Reads (reader : Reader Value) (value : Value) (encoded : Bytes) : Prop :=
  ∀ rest allowance,
    reader ⟨encoded ++ rest, encoded.length + allowance⟩ = some (value, ⟨rest, allowance⟩)

theorem reads_pure (value : Value) : Reads (pure value) value [] := by
  intro rest allowance
  simp only [List.nil_append, List.length_nil, Nat.zero_add]
  rfl

theorem reads_bind {reader : Reader Value} {next : Value → Reader Next} {value : Value}
    {result : Next} {first second : Bytes} (head : reader.Reads value first)
    (tail : (next value).Reads result second) :
    (reader >>= next).Reads result (first ++ second) := by
  intro rest allowance
  have taken := head (second ++ rest) (second.length + allowance)
  rw [bind_apply, List.append_assoc, List.length_append, Nat.add_assoc, taken]
  exact tail rest allowance

theorem reads_bind_pure {reader : Reader Value} {next : Value → Reader Next} {value : Value}
    {result : Next} {encoded : Bytes} (head : reader.Reads value encoded)
    (tail : next value = pure result) : (reader >>= next).Reads result encoded := by
  have whole := reads_bind head (tail ▸ reads_pure result)
  rwa [List.append_nil] at whole

theorem reads_byte (value : UInt8) : Reads byte value [value] := by
  intro rest allowance
  rw [List.length_singleton, Nat.add_comm 1 allowance]
  rfl

theorem reads_take (bytes : Bytes) : Reads (take bytes.length) bytes bytes := by
  intro rest allowance
  simp [take]

theorem reads_fixed {width number : Nat} (bounded : number < 256 ^ width) :
    Reads (fixed width) number (Bytes.ofNat width number) := by
  have bytes := reads_take (Bytes.ofNat width number)
  rw [Bytes.length_ofNat] at bytes
  apply reads_bind_pure bytes
  rw [Bytes.toNat_ofNat, Nat.mod_eq_of_lt bounded]

theorem reads_many {reader : Reader Value} {encode : Value → Bytes} (values : List Value)
    (each : ∀ value ∈ values, reader.Reads value (encode value)) :
    (reader.many values.length).Reads values (values.flatMap encode) := by
  induction values with
  | nil => exact reads_pure []
  | cons value values induction =>
      have head := each value (by simp)
      have tail := induction fun later member => each later (by simp [member])
      rw [List.flatMap_cons]
      exact reads_bind head (reads_bind_pure tail rfl)

end Reader

namespace Varint

open Reader

@[simp] theorem encode_ne_nil (number : Nat) : encode number ≠ [] := by
  unfold encode
  split_ifs <;> simp

theorem encode_length_pos (number : Nat) : 0 < (encode number).length :=
  List.length_pos_iff.mpr (encode_ne_nil number)

theorem length_lt (number : Nat) (rest : Bytes) :
    rest.length < (encode number ++ rest).length := by
  have written := encode_length_pos number
  rw [List.length_append]
  omega

theorem length_parts_lt (number : Nat) (first second : Bytes) :
    first.length < (encode number ++ (first ++ second)).length ∧
      second.length < (encode number ++ (first ++ second)).length := by
  have shorter := length_lt number (first ++ second)
  have both : (first ++ second).length = first.length + second.length := List.length_append
  omega

/-- The four forms meet at 251, 2 ^ 16 and 2 ^ 32, and each is read back through its marker. -/
theorem reads_encode {number : Nat} (bounded : number < 2 ^ 64) :
    Reads decode number (encode number) := by
  unfold encode
  split_ifs with small two four
  · have byte : (UInt8.ofNat number).toNat = number := by
      rw [UInt8.toNat_ofNat']
      exact Nat.mod_eq_of_lt (by simp only [firstMarker] at small; omega)
    apply reads_bind_pure (reads_byte _)
    rw [if_pos (by rw [byte]; exact small), byte]
  · exact reads_bind (reads_byte 251) (reads_fixed (by omega))
  · exact reads_bind (reads_byte 252) (reads_fixed (by omega))
  · exact reads_bind (reads_byte 253) (reads_fixed (by omega))

theorem reads_below {bits number : Nat} (bounded : number < 2 ^ bits) (word : bits ≤ 64) :
    Reads (decodeBelow bits) number (encode number) := by
  have word : number < 2 ^ 64 := Nat.lt_of_lt_of_le bounded (Nat.pow_le_pow_right (by omega) word)
  exact reads_bind_pure (reads_encode word) (if_pos bounded)

theorem fold_lt {bits : Nat} {number : Int} (low : -(2 ^ bits : Nat) ≤ number)
    (high : number < (2 ^ bits : Nat)) : fold number < 2 ^ (bits + 1) := by
  rw [Nat.pow_succ]
  cases number with
  | ofNat number =>
      have high : number < 2 ^ bits := Int.ofNat_lt.mp high
      simp only [fold]
      omega
  | negSucc number =>
      simp only [fold]
      omega

theorem reads_signed (bits : Nat) {number : Int} (low : -(2 ^ bits : Nat) ≤ number)
    (high : number < (2 ^ bits : Nat)) (word : bits + 1 ≤ 64) :
    Reads (decodeSigned (bits + 1)) number (encodeSigned number) := by
  have folded : fold number < 2 ^ 64 :=
    Nat.lt_of_lt_of_le (fold_lt low high) (Nat.pow_le_pow_right (by omega) word)
  apply reads_bind_pure (reads_encode folded)
  rw [unfold_fold]
  exact if_pos ⟨low, high⟩

end Varint

end DeviceColumns
