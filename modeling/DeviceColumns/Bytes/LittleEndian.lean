/-!
Numbers as byte strings, least significant byte first, and fixed-width slices of a byte string.
A number of `width` bytes is read back exactly when it is below `256 ^ width`.

How many bytes there are is itself reckoned in words of 64 bits, so a product is exact only while a
word can hold it.
-/

namespace DeviceColumns

set_option autoImplicit false

-- A power of numbers means the same where an algebra library is in sight and where none is.
attribute [scoped instance (high), default_instance (high + 1)] instPowNat

abbrev Bytes := List UInt8

namespace Bytes

/-- The `width` low bytes of `number`, least significant first. -/
def ofNat : Nat → Nat → Bytes
  | 0, _ => []
  | width + 1, number => UInt8.ofNat (number % 256) :: ofNat width (number / 256)

def toNat : Bytes → Nat
  | [] => 0
  | byte :: rest => byte.toNat + 256 * toNat rest

def ofInt (width : Nat) (number : Int) : Bytes :=
  ofNat width (number % (256 ^ width : Nat)).toNat

def toInt (bytes : Bytes) : Int :=
  Int.bmod (toNat bytes) (256 ^ bytes.length)

@[simp] theorem length_ofNat (width number : Nat) : (ofNat width number).length = width := by
  induction width generalizing number with
  | zero => rfl
  | succ width induction => simp [ofNat, induction]

theorem toNat_ofNat (width number : Nat) : toNat (ofNat width number) = number % 256 ^ width := by
  induction width generalizing number with
  | zero => simp [ofNat, toNat, Nat.mod_one]
  | succ width induction =>
      have low : (UInt8.ofNat (number % 256)).toNat = number % 256 := by
        simp
      rw [ofNat, toNat, induction, low, Nat.pow_succ, Nat.mul_comm (256 ^ width),
        Nat.mod_mul]

theorem ofNat_toNat (bytes : Bytes) : ofNat bytes.length (toNat bytes) = bytes := by
  induction bytes with
  | nil => rfl
  | cons byte rest induction =>
      have small : byte.toNat < 256 := byte.toNat_lt
      have low : (byte.toNat + 256 * toNat rest) % 256 = byte.toNat := by omega
      have high : (byte.toNat + 256 * toNat rest) / 256 = toNat rest := by omega
      rw [List.length_cons, toNat, ofNat, low, high, induction, UInt8.ofNat_toNat]

/-- The length of `count` values of `width` bytes each, in a word of 64 bits. What a word cannot hold
is lost without notice. -/
def lengthOf (count width : Nat) : Nat := count * width % 2 ^ 64

theorem lengthOf_eq {count width : Nat} (fits : count * width < 2 ^ 64) :
    lengthOf count width = count * width := Nat.mod_eq_of_lt fits

/-- Four bytes for each of 2 ^ 62 values are too many for a word. -/
example : lengthOf (2 ^ 62) 4 = 0 := by decide

def slice (width : Nat) (bytes : Array UInt8) (index : Nat) : Bytes :=
  (bytes.extract (index * width) (index * width + width)).toList

/-- All complete pieces of `width` bytes, in order; a shorter last piece is dropped. -/
def slices (width : Nat) (bytes : Bytes) : List Bytes :=
  let stored := bytes.toArray
  (List.range (stored.size / width)).map (slice width stored)

end Bytes

end DeviceColumns
