import DeviceColumns.Error
import DeviceColumns.Transport.Encode

/-!
Messages from bytes. Nesting is followed to a given depth; as every level takes up a byte at least,
no message nests deeper than it has bytes, so the number of bytes is always deep enough and the
limit never shows. Counts are not believed: a sequence is read element by element, and each element
takes up bytes of its own.
-/

namespace DeviceColumns

set_option autoImplicit false

namespace Wire

variable {Value : Type}

def readBool : Reader Bool := do
  let byte ← Reader.byte
  if byte = 0 then return false
  else if byte = 1 then return true
  else Reader.fail

def readCount : Reader Nat := Varint.decodeBelow 64

def readBytes : Reader Bytes := do
  let length ← readCount
  Reader.take length

def readString : Reader String := do
  let encoded ← readBytes
  Reader.ofOption (String.fromUTF8? ⟨encoded.toArray⟩)

def readOption (reader : Reader Value) : Reader (Option Value) := do
  if ← readBool then
    let value ← reader
    return some value
  else return none

def readMany (reader : Reader Value) : Reader (List Value) := do
  let count ← readCount
  reader.many count

def readEntry : Reader (String × String) := do
  let key ← readString
  let value ← readString
  return (key, value)

def readMetadata : Reader (List (String × String)) := readMany readEntry

def readTag : Reader Nat := Varint.decodeBelow 32

def readInt32 : Reader Int32 := do
  let number ← Varint.decodeSigned 32
  return Int32.ofInt number

def readInt64 : Reader Int64 := do
  let number ← Varint.decodeSigned 64
  return Int64.ofInt number

def readInt8 : Reader Int8 := do
  let byte ← Reader.byte
  return byte.toInt8

def readUInt64 : Reader UInt64 := do
  let number ← Varint.decodeBelow 64
  return UInt64.ofNat number

def readTimeUnit : Reader TimeUnit := do
  let tag ← readTag
  Reader.ofOption TimeUnit.all[tag]?

def readIntervalUnit : Reader IntervalUnit := do
  let tag ← readTag
  Reader.ofOption IntervalUnit.all[tag]?

def readUnionMode : Reader UnionMode := do
  let tag ← readTag
  Reader.ofOption UnionMode.all[tag]?

end Wire

namespace Field

open Wire

def read (type : Reader ArrowType) : Reader Field := do
  let name ← readString
  let arrow ← type
  let nullable ← readBool
  let dictId ← readInt64
  let dictOrdered ← readBool
  let metadata ← readMetadata
  return ⟨name, arrow, nullable, dictId, dictOrdered, metadata⟩

def readMember (type : Reader ArrowType) : Reader (Int8 × Field) := do
  let tag ← readInt8
  let field ← read type
  return (tag, field)

end Field

namespace ArrowType

open Wire

/-- The parts of the type with number `tag`, types inside it being read by `inner`. -/
def readParts (inner : Reader ArrowType) (tag : Nat) : Reader ArrowType :=
  match tag with
  | 0 => return .null
  | 1 => return .boolean
  | 2 => return .int8
  | 3 => return .int16
  | 4 => return .int32
  | 5 => return .int64
  | 6 => return .uint8
  | 7 => return .uint16
  | 8 => return .uint32
  | 9 => return .uint64
  | 10 => return .float16
  | 11 => return .float32
  | 12 => return .float64
  | 13 => do
      let unit ← readTimeUnit
      let zone ← readOption readString
      return .timestamp unit zone
  | 14 => return .date32
  | 15 => return .date64
  | 16 => do return .time32 (← readTimeUnit)
  | 17 => do return .time64 (← readTimeUnit)
  | 18 => do return .duration (← readTimeUnit)
  | 19 => do return .interval (← readIntervalUnit)
  | 20 => return .binary
  | 21 => do return .fixedSizeBinary (← readInt32)
  | 22 => return .largeBinary
  | 23 => return .binaryView
  | 24 => return .utf8
  | 25 => return .largeUtf8
  | 26 => return .utf8View
  | 27 => do return .list (← Field.read inner)
  | 28 => do return .listView (← Field.read inner)
  | 29 => do
      let item ← Field.read inner
      let count ← readInt32
      return .fixedSizeList item count
  | 30 => do return .largeList (← Field.read inner)
  | 31 => do return .largeListView (← Field.read inner)
  | 32 => do return .struct (← readMany (Field.read inner))
  | 33 => do
      let members ← readMany (Field.readMember inner)
      let mode ← readUnionMode
      return .union members mode
  | 34 => do
      let key ← inner
      let value ← inner
      return .dictionary key value
  | 35 => do
      let precision ← Reader.byte
      let scale ← readInt8
      return .decimal128 precision scale
  | 36 => do
      let precision ← Reader.byte
      let scale ← readInt8
      return .decimal256 precision scale
  | 37 => do
      let entries ← Field.read inner
      let sorted ← readBool
      return .map entries sorted
  | 38 => do
      let runEnds ← Field.read inner
      let values ← Field.read inner
      return .runEndEncoded runEnds values
  | _ => Reader.fail

def read : Nat → Reader ArrowType
  | 0 => Reader.fail
  | depth + 1 => do
      let tag ← readTag
      readParts (read depth) tag

end ArrowType

open Wire

def Schema.read (depth : Nat) : Reader Schema := do
  let fields ← readMany (Field.read (ArrowType.read depth))
  let metadata ← readMetadata
  return ⟨fields, metadata⟩

def Descriptor.read : Reader Descriptor := do
  let handle ← readBytes
  let offset ← readUInt64
  let size ← readUInt64
  return ⟨handle, offset, size⟩

def HandleTree.read : Nat → Reader HandleTree
  | 0 => Reader.fail
  | depth + 1 => do
      let rows ← readUInt64
      let nullCount ← readUInt64
      let data ← readOption Descriptor.read
      let validity ← readOption Descriptor.read
      let children ← readMany (HandleTree.read depth)
      return ⟨rows, nullCount, data, validity, children⟩

namespace Message

def read (depth : Nat) : Reader Message := do
  let version ← Varint.decodeBelow 32
  let deviceCode ← readInt32
  let deviceId ← readInt64
  let schema ← Schema.read depth
  let columns ← readMany (HandleTree.read depth)
  return ⟨UInt32.ofNat version, deviceCode, deviceId, schema, columns⟩

/-- The message that the bytes after the magic hold, all of them. No more bytes may be taken than
there are. -/
def ofBody? (body : Bytes) : Option Message :=
  match read body.length ⟨body, body.length⟩ with
  | some (message, ⟨[], _⟩) => some message
  | _ => none

/-- The message that bytes hold: magic, then a body of the current version and nothing behind it. -/
def decode (bytes : Bytes) : Except Error Message :=
  if bytes.take magic.length ≠ magic then .error .missingMagic
  else
    match ofBody? (bytes.drop magic.length) with
    | none => .error .undecodable
    | some message =>
        if message.version = currentVersion then .ok message
        else .error (.version message.version.toNat currentVersion.toNat)

end Message

end DeviceColumns
