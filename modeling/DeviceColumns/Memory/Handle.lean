import DeviceColumns.Memory.Machine

/-!
Handles that let another holder map a block: 64 bytes naming the issuing process, the base and the
size of the block. A handle always stands for a whole block; an address inside it is given by its
offset. A handle opens exactly while the block it describes is live.
-/

namespace DeviceColumns

set_option autoImplicit false

def processId : Nat := 4242

structure Handle where
  bytes : Bytes
  length_eq : bytes.length = 64

namespace Handle

def magic : Bytes := [0x48, 0x4f, 0x53, 0x54, 0x49, 0x50, 0x43, 0x00]

def ofBytes? (bytes : Bytes) : Except DeviceError Handle :=
  if sized : bytes.length = 64 then .ok ⟨bytes, sized⟩
  else .error (.handleLength bytes.length)

def issue (base size : Nat) : Handle where
  bytes := magic ++ Bytes.ofNat 4 processId ++ Bytes.ofNat 8 base ++ Bytes.ofNat 8 size ++
    List.replicate 36 0
  length_eq := by simp [magic]

def number (handle : Handle) (offset width : Nat) : Nat :=
  Bytes.toNat ((handle.bytes.drop offset).take width)

def process (handle : Handle) : Nat := handle.number 8 4

def base (handle : Handle) : Nat := handle.number 12 8

def size (handle : Handle) : Nat := handle.number 20 8

/-- Fails unless the handle was issued here for a block that is still live. -/
def check (handle : Handle) (heap : Heap) : Except DeviceError Unit :=
  if handle.bytes.take 8 ≠ magic then .error .foreignHandle
  else if handle.process ≠ processId then .error (.foreignProcess handle.process)
  else
    match heap.blockFrom? handle.base with
    | some block =>
        if block.size = handle.size then .ok () else .error (.staleHandle handle.base)
    | none => .error (.staleHandle handle.base)

def text (handle : Handle) : String :=
  "IpcMemHandle(" ++ Text.hexBytes (handle.bytes.take 8) ++ "..)"

end Handle

structure HandleAt where
  handle : Handle
  offset : Nat

namespace Heap

def issueHandle (heap : Heap) (base : Nat) : Except DeviceError Handle :=
  match heap.blockFrom? base with
  | some block => .ok (.issue base block.size)
  | none => .error (.notABase base)

/-- The handle and offset through which another holder reaches `address`. -/
def handleAt (heap : Heap) (address : Nat) : Except DeviceError HandleAt := do
  let (base, _) ← heap.addressRange address
  let handle ← heap.issueHandle base
  return ⟨handle, address - base⟩

end Heap

/-- A block mapped through its handle. It stays counted until it is closed. -/
structure Mapping where
  base : Nat
  deriving DecidableEq

namespace Mapping

def openHandle (handle : Handle) : MemoryAction Mapping := fun machine =>
  match handle.check machine.heap with
  | .error cause => (.error cause, machine)
  | .ok () =>
      (.ok ⟨handle.base⟩, { machine with mappings := machine.mappings.insert handle.base })

def close (mapping : Mapping) (machine : Machine) : Machine :=
  match machine.mappings.close? mapping.base with
  | some mappings => { machine with mappings := mappings }
  | none => machine.warn (.closeFailed mapping.base (.notMapped mapping.base))

def closeAll (mappings : List Mapping) (machine : Machine) : Machine :=
  mappings.foldl (fun state mapping => mapping.close state) machine

def text (mapping : Mapping) : String :=
  Text.record "ImportedPtr" [
    ("device", Device.host.text), ("base", Text.address mapping.base)]

end Mapping

end DeviceColumns
