import DeviceColumns.Transport.Message
import DeviceColumns.Transport.Varint

/-!
Messages as bytes. Everything is written without padding: a sequence as its count and its elements,
an alternative as its number and its parts, an optional part as one byte and the part.
-/

namespace DeviceColumns

set_option autoImplicit false

namespace Wire

variable {Value : Type}

def bool (value : Bool) : Bytes := [if value then 1 else 0]

def bytes (value : Bytes) : Bytes := Varint.encode value.length ++ value

def string (value : String) : Bytes := bytes value.toUTF8.data.toList

def option (encode : Value → Bytes) : Option Value → Bytes
  | none => [0]
  | some value => 1 :: encode value

def entry (pair : String × String) : Bytes := string pair.1 ++ string pair.2

def metadata (entries : List (String × String)) : Bytes :=
  Varint.encode entries.length ++ entries.flatMap entry

end Wire

def TimeUnit.tag : TimeUnit → Nat
  | second => 0
  | millisecond => 1
  | microsecond => 2
  | nanosecond => 3

def IntervalUnit.tag : IntervalUnit → Nat
  | yearMonth => 0
  | dayTime => 1
  | monthDayNano => 2

def UnionMode.tag : UnionMode → Nat
  | sparse => 0
  | dense => 1

mutual

def ArrowType.encode : ArrowType → Bytes
  | .null => Varint.encode 0
  | .boolean => Varint.encode 1
  | .int8 => Varint.encode 2
  | .int16 => Varint.encode 3
  | .int32 => Varint.encode 4
  | .int64 => Varint.encode 5
  | .uint8 => Varint.encode 6
  | .uint16 => Varint.encode 7
  | .uint32 => Varint.encode 8
  | .uint64 => Varint.encode 9
  | .float16 => Varint.encode 10
  | .float32 => Varint.encode 11
  | .float64 => Varint.encode 12
  | .timestamp unit zone =>
      Varint.encode 13 ++ Varint.encode unit.tag ++ Wire.option Wire.string zone
  | .date32 => Varint.encode 14
  | .date64 => Varint.encode 15
  | .time32 unit => Varint.encode 16 ++ Varint.encode unit.tag
  | .time64 unit => Varint.encode 17 ++ Varint.encode unit.tag
  | .duration unit => Varint.encode 18 ++ Varint.encode unit.tag
  | .interval unit => Varint.encode 19 ++ Varint.encode unit.tag
  | .binary => Varint.encode 20
  | .fixedSizeBinary width => Varint.encode 21 ++ Varint.encodeSigned width.toInt
  | .largeBinary => Varint.encode 22
  | .binaryView => Varint.encode 23
  | .utf8 => Varint.encode 24
  | .largeUtf8 => Varint.encode 25
  | .utf8View => Varint.encode 26
  | .list item => Varint.encode 27 ++ item.encode
  | .listView item => Varint.encode 28 ++ item.encode
  | .fixedSizeList item count =>
      Varint.encode 29 ++ item.encode ++ Varint.encodeSigned count.toInt
  | .largeList item => Varint.encode 30 ++ item.encode
  | .largeListView item => Varint.encode 31 ++ item.encode
  | .struct fields => Varint.encode 32 ++ Varint.encode fields.length ++ Field.encodeAll fields
  | .union members mode =>
      Varint.encode 33 ++ Varint.encode members.length ++ Field.encodeMembers members ++
        Varint.encode mode.tag
  | .dictionary key value => Varint.encode 34 ++ key.encode ++ value.encode
  | .decimal128 precision scale => Varint.encode 35 ++ [precision, scale.toUInt8]
  | .decimal256 precision scale => Varint.encode 36 ++ [precision, scale.toUInt8]
  | .map entries sorted => Varint.encode 37 ++ entries.encode ++ Wire.bool sorted
  | .runEndEncoded runEnds values => Varint.encode 38 ++ runEnds.encode ++ values.encode

def Field.encode : Field → Bytes
  | ⟨name, type, nullable, dictId, dictOrdered, metadata⟩ =>
      Wire.string name ++ type.encode ++ Wire.bool nullable ++
        Varint.encodeSigned dictId.toInt ++ Wire.bool dictOrdered ++ Wire.metadata metadata

def Field.encodeAll : List Field → Bytes
  | [] => []
  | field :: rest => field.encode ++ Field.encodeAll rest

def Field.encodeMembers : List (Int8 × Field) → Bytes
  | [] => []
  | (tag, field) :: rest => tag.toUInt8 :: (field.encode ++ Field.encodeMembers rest)

end

def Schema.encode (schema : Schema) : Bytes :=
  Varint.encode schema.fields.length ++ Field.encodeAll schema.fields ++
    Wire.metadata schema.metadata

def Descriptor.encode (descriptor : Descriptor) : Bytes :=
  Wire.bytes descriptor.handle ++ Varint.encode descriptor.offset.toNat ++
    Varint.encode descriptor.size.toNat

mutual

def HandleTree.encode : HandleTree → Bytes
  | ⟨rows, nullCount, data, validity, children⟩ =>
      Varint.encode rows.toNat ++ Varint.encode nullCount.toNat ++
        Wire.option Descriptor.encode data ++ Wire.option Descriptor.encode validity ++
        Varint.encode children.length ++ HandleTree.encodeAll children

def HandleTree.encodeAll : List HandleTree → Bytes
  | [] => []
  | tree :: rest => tree.encode ++ HandleTree.encodeAll rest

end

namespace Message

def body (message : Message) : Bytes :=
  Varint.encode message.version.toNat ++ Varint.encodeSigned message.deviceCode.toInt ++
    Varint.encodeSigned message.deviceId.toInt ++ message.schema.encode ++
    Varint.encode message.columns.length ++ HandleTree.encodeAll message.columns

def encode (message : Message) : Bytes :=
  magic ++ message.body

end Message

end DeviceColumns
