import DeviceColumns.Text.Quoted

/-!
Devices and where their memory lives. The kinds carry the numbers that the device data interface
gives them. Only the host-resident backend can be opened; its identifier is `-1` whatever identifier
was asked for, as the interface has it for memory of the processor.

The backend that runs kernels on a graphics device has no counterpart here. A stream of the host has
done its work when a call returns, so nothing remains of a stream but how it is written.
-/

namespace DeviceColumns

set_option autoImplicit false

inductive DeviceKind where
  | cpu
  | cuda
  | cudaHost
  | cudaManaged
  deriving DecidableEq

namespace DeviceKind

def name : DeviceKind → String
  | cpu => "Cpu"
  | cuda => "Cuda"
  | cudaHost => "CudaHost"
  | cudaManaged => "CudaManaged"

def code : DeviceKind → Int
  | cpu => 1
  | cuda => 2
  | cudaHost => 3
  | cudaManaged => 13

def all : List DeviceKind := [cpu, cuda, cudaHost, cudaManaged]

def ofCode? (number : Int) : Option DeviceKind :=
  all.find? fun kind => kind.code = number

theorem ofCode?_code (kind : DeviceKind) : ofCode? kind.code = some kind := by
  cases kind <;> rfl

end DeviceKind

inductive MemoryKind where
  | device
  | unregistered
  deriving DecidableEq

def MemoryKind.name : MemoryKind → String
  | device => "Device"
  | unregistered => "Unregistered"

inductive Device where
  | host
  deriving DecidableEq

namespace Device

def kind : Device → DeviceKind
  | host => .cpu

def id : Device → Int
  | host => -1

/-- The device a recorded kind and identifier stand for, if a backend serves that kind. -/
def ofDescriptor? : DeviceKind → Int → Option Device
  | .cpu, _ => some host
  | _, _ => none

def text (device : Device) : String :=
  Text.record "Device" [("kind", device.kind.name), ("id", toString device.id)]

def streamText (device : Device) : String :=
  Text.record "Stream" [("device", device.text), ("kind", Text.quoted "host")]

end Device

end DeviceColumns
