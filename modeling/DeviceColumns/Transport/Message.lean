import DeviceColumns.Arrow.Type
import DeviceColumns.Bytes.LittleEndian

/-!
Messages that share a table: the device it lives on, its schema, and for each column a tree of the
handles of its buffers. For a list the tree of the offsets comes first, although the schema does not
mention them.
-/

namespace DeviceColumns

set_option autoImplicit false

/-- One shared buffer: the handle of its block, where in the block it starts, and its bytes. -/
structure Descriptor where
  handle : Bytes
  offset : UInt64
  size : UInt64
  deriving DecidableEq

structure HandleTree where
  rows : UInt64
  nullCount : UInt64
  data : Option Descriptor
  validity : Option Descriptor
  children : List HandleTree

structure Message where
  version : UInt32
  deviceCode : Int32
  deviceId : Int64
  schema : Schema
  columns : List HandleTree

namespace Message

def magic : Bytes := [0x47, 0x50, 0x55, 0x49, 0x50, 0x43, 0x00, 0x00]

def currentVersion : UInt32 := 1

end Message

end DeviceColumns
