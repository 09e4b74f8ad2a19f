import DeviceColumns.Transport.Reader

/-!
Numbers of variable length. Below 251 a number is its own byte; larger ones follow a marker byte
that says whether two, four or eight bytes come. Writers use the shortest form and readers take any.
Signed numbers are folded onto the unsigned ones, alternating between the signs.
-/

namespace DeviceColumns.Varint

set_option autoImplicit false

/-- The first byte that is a marker and not a number. -/
def firstMarker : Nat := 251

def encode (number : Nat) : Bytes :=
  if number < firstMarker then [UInt8.ofNat number]
  else if number < 2 ^ 16 then 251 :: Bytes.ofNat 2 number
  else if number < 2 ^ 32 then 252 :: Bytes.ofNat 4 number
  else 253 :: Bytes.ofNat 8 number

/-- A number in any of its forms. The two highest markers stand for nothing. -/
def decode : Reader Nat := do
  let first ← Reader.byte
  if first.toNat < firstMarker then return first.toNat
  else if first = 251 then Reader.fixed 2
  else if first = 252 then Reader.fixed 4
  else if first = 253 then Reader.fixed 8
  else Reader.fail

def decodeBelow (bits : Nat) : Reader Nat := do
  let number ← decode
  if number < 2 ^ bits then return number else Reader.fail

/-- Fold the integers onto the natural numbers: 0, -1, 1, -2, 2, … -/
def fold : Int → Nat
  | .ofNat number => 2 * number
  | .negSucc number => 2 * number + 1

def unfold (number : Nat) : Int :=
  if number % 2 = 0 then .ofNat (number / 2) else .negSucc (number / 2)

theorem unfold_fold (number : Int) : unfold (fold number) = number := by
  cases number with
  | ofNat number => simp [fold, unfold]
  | negSucc number =>
      have odd : (2 * number + 1) % 2 = 1 := by omega
      have half : (2 * number + 1) / 2 = number := by omega
      simp [fold, unfold, half]

def encodeSigned (number : Int) : Bytes :=
  encode (fold number)

def decodeSigned (bits : Nat) : Reader Int := do
  let number := unfold (← decode)
  if -(2 ^ (bits - 1) : Nat) ≤ number ∧ number < (2 ^ (bits - 1) : Nat) then return number
  else Reader.fail

end DeviceColumns.Varint
