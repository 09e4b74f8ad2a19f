import DeviceColumns.Memory.Machine

/-!
Owned device memory. A buffer gives its block back to the resource it came from when it is freed; a
buffer without bytes owns no block and has no address.
-/

namespace DeviceColumns

set_option autoImplicit false

structure Buffer where
  address : Option Nat
  length : Nat
  resource : Resource
  deriving DecidableEq

namespace Buffer

def allocate (length : Nat) (resource : Resource) : MemoryAction Buffer := do
  if length = 0 then return ⟨none, 0, resource⟩
  let address ← resource.allocate length
  return ⟨some address, length, resource⟩

def free (buffer : Buffer) (machine : Machine) : Machine :=
  match buffer.address with
  | none => machine
  | some address => buffer.resource.free address buffer.length machine

def freeAll (buffers : List Buffer) (machine : Machine) : Machine :=
  buffers.foldl (fun state buffer => buffer.free state) machine

def pointer (buffer : Buffer) : Nat :=
  buffer.address.getD 0

/-- Replace the first bytes of the buffer; a refused copy gives the buffer back. -/
def fill (buffer : Buffer) (bytes : Bytes) : MemoryAction Unit :=
  (Machine.write buffer.pointer bytes).undoOnFailure buffer.free

def ofBytes (bytes : Bytes) (resource : Resource) : MemoryAction Buffer := do
  let buffer ← allocate bytes.length resource
  buffer.fill bytes
  return buffer

def read (buffer : Buffer) (heap : Heap) : Except DeviceError Bytes :=
  heap.read buffer.pointer buffer.length

def text (buffer : Buffer) : String :=
  Text.record "DeviceBuffer" [
    ("ptr", Text.address buffer.pointer),
    ("len", toString buffer.length),
    ("device", Device.host.text)]

end Buffer

end DeviceColumns
