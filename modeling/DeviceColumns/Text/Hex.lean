import DeviceColumns.Bytes.LittleEndian

/-!
Hexadecimal text: bytes as two lowercase digits each, addresses as `0x` and the digits without
leading zeros.
-/

namespace DeviceColumns.Text

set_option autoImplicit false

def hexDigit (value : Nat) : Char :=
  Nat.digitChar value

def hex (number : Nat) : String :=
  String.ofList (Nat.toDigits 16 number)

def address (number : Nat) : String :=
  "0x" ++ hex number

def hexBytes (bytes : Bytes) : String :=
  String.ofList (bytes.flatMap fun byte => [hexDigit (byte.toNat / 16), hexDigit (byte.toNat % 16)])

def hexValue? (digit : Char) : Option Nat :=
  if digit.isDigit then some (digit.toNat - 48)
  else if 'a' ≤ digit ∧ digit ≤ 'f' then some (digit.toNat - 87)
  else if 'A' ≤ digit ∧ digit ≤ 'F' then some (digit.toNat - 55)
  else none

end DeviceColumns.Text
