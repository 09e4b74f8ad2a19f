import DeviceColumns.Memory.Buffer

/-!
Widening of narrow decimals: each unscaled value of 32 or 64 bits becomes the 128-bit value with the
same sign and magnitude. An incomplete value at the end of the input is dropped.
-/

namespace DeviceColumns

set_option autoImplicit false

inductive NarrowDecimal where
  | bits32
  | bits64
  deriving DecidableEq

namespace NarrowDecimal

def width : NarrowDecimal → Nat
  | bits32 => 4
  | bits64 => 8

def wideWidth : Nat := 16

def widenValue (value : Bytes) : Bytes :=
  Bytes.ofInt wideWidth (Bytes.toInt value)

/-- Every complete value of `narrow` in sixteen bytes. -/
def widen (decimal : NarrowDecimal) (narrow : Bytes) : Bytes :=
  (Bytes.slices decimal.width narrow).flatMap widenValue

/-- A buffer with the `count` values at `source` in sixteen bytes each. Both lengths are reckoned in a
word, and are exact for less than 2 ^ 60 values. -/
def widenAt (decimal : NarrowDecimal) (source count : Nat) (resource : Resource) :
    MemoryAction Buffer := do
  let wide ← Buffer.allocate (Bytes.lengthOf count wideWidth) resource
  if count = 0 then return wide
  let narrow ← (Machine.read source (Bytes.lengthOf count decimal.width)).undoOnFailure wide.free
  wide.fill (decimal.widen narrow)
  return wide

end NarrowDecimal

end DeviceColumns
