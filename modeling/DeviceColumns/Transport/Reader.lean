import DeviceColumns.Bytes.LittleEndian

/-!
Readers of byte strings. A reader takes a value off the front and leaves the rest, or fails. Every
byte that is taken is charged to an allowance; a reader also fails when it would exceed that.
-/

namespace DeviceColumns

set_option autoImplicit false

/-- What is still to be read, and how many bytes may still be taken off it. -/
structure Input where
  bytes : Bytes
  allowance : Nat

def Reader (Value : Type) : Type := Input → Option (Value × Input)

namespace Reader

variable {Value Next : Type}

instance : Monad Reader where
  pure value := fun input => some (value, input)
  bind reader next := fun input =>
    match reader input with
    | some (value, rest) => next value rest
    | none => none

def fail : Reader Value := fun _ => none

def ofOption (value : Option Value) : Reader Value := fun input =>
  value.map fun found => (found, input)

theorem bind_apply (reader : Reader Value) (next : Value → Reader Next) (input : Input) :
    (reader >>= next) input =
      match reader input with
      | some (value, rest) => next value rest
      | none => none := rfl

def take (count : Nat) : Reader Bytes := fun input =>
  if count ≤ input.allowance ∧ count ≤ input.bytes.length then
    some (input.bytes.take count, ⟨input.bytes.drop count, input.allowance - count⟩)
  else none

def byte : Reader UInt8 := fun input =>
  match input with
  | ⟨first :: rest, allowance + 1⟩ => some (first, ⟨rest, allowance⟩)
  | _ => none

def fixed (width : Nat) : Reader Nat := do
  let bytes ← take width
  return Bytes.toNat bytes

def many (reader : Reader Value) : Nat → Reader (List Value)
  | 0 => return []
  | count + 1 => do
      let value ← reader
      let values ← many reader count
      return value :: values

end Reader

end DeviceColumns
