import DeviceColumns.Device

/-!
Why an operation on device memory fails, and what is said about it. A cause is a value of
`DeviceError`; its kind chooses the headline of the message and the cause gives the detail after it.
-/

namespace DeviceColumns

set_option autoImplicit false

inductive DeviceErrorKind where
  | allocation (bytes : Nat)
  | driver
  | ipc
  | event
  | kernel
  | unsupportedMemory
  | invalidArgument
  deriving DecidableEq

namespace DeviceErrorKind

def name : DeviceErrorKind → String
  | allocation _ => "Allocation"
  | driver => "Driver"
  | ipc => "Ipc"
  | event => "Event"
  | kernel => "Kernel"
  | unsupportedMemory => "UnsupportedMemory"
  | invalidArgument => "InvalidArgument"

def message (kind : DeviceErrorKind) (detail : String) : String :=
  match kind with
  | allocation bytes => "Failed to allocate " ++ toString bytes ++ " bytes: " ++ detail
  | driver => "Driver error: " ++ detail
  | ipc => "IPC handle error: " ++ detail
  | event => "Event error: " ++ detail
  | kernel => "Kernel error: " ++ detail
  | unsupportedMemory => "Unsupported memory: " ++ detail
  | invalidArgument => "Invalid argument: " ++ detail

end DeviceErrorKind

inductive DeviceError where
  /-- More bytes than an aligned block can have. -/
  | oversized (bytes : Nat)
  /-- No room left in the arena. -/
  | exhausted (bytes : Nat)
  | outsideBlocks (address : Nat)
  | overrun (address length base size : Nat)
  | notABase (address : Nat)
  | handleLength (length : Nat)
  | foreignHandle
  | foreignProcess (process : Nat)
  | staleHandle (base : Nat)
  | notMapped (base : Nat)
  | notShareable (address : Nat) (kind : MemoryKind)
  | noBackend (kind : DeviceKind) (id : Int)
  | noAccelerator (ordinal : Nat)
  deriving DecidableEq

namespace DeviceError

def kind : DeviceError → DeviceErrorKind
  | oversized bytes => .allocation bytes
  | exhausted bytes => .allocation bytes
  | outsideBlocks _ => .invalidArgument
  | overrun .. => .invalidArgument
  | notABase _ => .ipc
  | handleLength _ => .ipc
  | foreignHandle => .ipc
  | foreignProcess _ => .ipc
  | staleHandle _ => .ipc
  | notMapped _ => .ipc
  | notShareable .. => .unsupportedMemory
  | noBackend .. => .invalidArgument
  | noAccelerator _ => .invalidArgument

def detail : DeviceError → String
  | oversized _ => "invalid parameters to Layout::from_size_align"
  | exhausted _ => "host allocator returned null"
  | outsideBlocks address => Text.address address ++ " is not inside a live allocation"
  | overrun address length base size =>
      "range " ++ Text.address address ++ "+" ++ toString length ++ " overruns allocation " ++
        Text.address base ++ "+" ++ toString size
  | notABase address => Text.address address ++ " is not an allocation base"
  | handleLength length => "IPC handle must be 64 bytes, got " ++ toString length
  | foreignHandle => "not a host IPC handle"
  | foreignProcess process => "host IPC handle belongs to process " ++ toString process
  | staleHandle base => "allocation " ++ Text.address base ++ " behind the handle is no longer live"
  | notMapped base => Text.address base ++ " has no open IPC mapping"
  | notShareable address kind =>
      Text.address address ++ " is " ++ kind.name ++ " memory and cannot be shared over IPC"
  | noBackend kind id => "no backend available for " ++ kind.name ++ " device " ++ toString id
  | noAccelerator ordinal =>
      "CUDA device " ++ toString ordinal ++ " requested but built without the `cuda` feature"

def message (error : DeviceError) : String :=
  error.kind.message error.detail

end DeviceError

end DeviceColumns
