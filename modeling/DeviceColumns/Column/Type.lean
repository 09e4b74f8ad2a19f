import DeviceColumns.Bytes.LittleEndian

/-!
Logical types of columns, and the host types that values are given in. Fixed-width types say how
many bytes a value takes up; the others keep no values of their own or keep them in children.
-/

namespace DeviceColumns

set_option autoImplicit false

inductive LogicalType where
  | empty
  | int8
  | int16
  | int32
  | int64
  | uint8
  | uint16
  | uint32
  | uint64
  | float32
  | float64
  | bool8
  | timestampDays
  | timestampSeconds
  | timestampMilliseconds
  | timestampMicroseconds
  | timestampNanoseconds
  | durationDays
  | durationSeconds
  | durationMilliseconds
  | durationMicroseconds
  | durationNanoseconds
  | dictionary32
  | string
  | list
  | decimal32
  | decimal64
  | decimal128
  | struct
  deriving DecidableEq

namespace LogicalType

def all : List LogicalType := [
  empty, int8, int16, int32, int64, uint8, uint16, uint32, uint64, float32, float64, bool8,
  timestampDays, timestampSeconds, timestampMilliseconds, timestampMicroseconds,
  timestampNanoseconds, durationDays, durationSeconds, durationMilliseconds,
  durationMicroseconds, durationNanoseconds, dictionary32, string, list, decimal32, decimal64,
  decimal128, struct]

def name : LogicalType → String
  | empty => "Empty"
  | int8 => "Int8"
  | int16 => "Int16"
  | int32 => "Int32"
  | int64 => "Int64"
  | uint8 => "UInt8"
  | uint16 => "UInt16"
  | uint32 => "UInt32"
  | uint64 => "UInt64"
  | float32 => "Float32"
  | float64 => "Float64"
  | bool8 => "Bool8"
  | timestampDays => "TimestampDays"
  | timestampSeconds => "TimestampSeconds"
  | timestampMilliseconds => "TimestampMilliseconds"
  | timestampMicroseconds => "TimestampMicroseconds"
  | timestampNanoseconds => "TimestampNanoseconds"
  | durationDays => "DurationDays"
  | durationSeconds => "DurationSeconds"
  | durationMilliseconds => "DurationMilliseconds"
  | durationMicroseconds => "DurationMicroseconds"
  | durationNanoseconds => "DurationNanoseconds"
  | dictionary32 => "Dictionary32"
  | string => "String"
  | list => "List"
  | decimal32 => "Decimal32"
  | decimal64 => "Decimal64"
  | decimal128 => "Decimal128"
  | struct => "Struct"

def ofName? (name : String) : Option LogicalType :=
  all.find? fun type => type.name = name

def width? : LogicalType → Option Nat
  | int8 | uint8 | bool8 => some 1
  | int16 | uint16 => some 2
  | int32 | uint32 | float32 | timestampDays | durationDays | decimal32 => some 4
  | int64 | uint64 | float64 | timestampSeconds | timestampMilliseconds | timestampMicroseconds
  | timestampNanoseconds | durationSeconds | durationMilliseconds | durationMicroseconds
  | durationNanoseconds | decimal64 => some 8
  | decimal128 => some 16
  | empty | dictionary32 | string | list | struct => none

def isNested : LogicalType → Bool
  | list | struct | dictionary32 => true
  | _ => false

def isInteger : LogicalType → Bool
  | int8 | int16 | int32 | int64 | uint8 | uint16 | uint32 | uint64 => true
  | _ => false

def isDecimal : LogicalType → Bool
  | decimal32 | decimal64 | decimal128 => true
  | _ => false

end LogicalType

/-- A logical type with the scale of its decimals. A value stands for `unscaled * 10 ^ scale`, so
fractional digits have a negative scale. -/
structure ColumnType where
  logical : LogicalType
  scale : Int := 0
  deriving DecidableEq

def ColumnType.text (type : ColumnType) : String :=
  "DataType \x7b id: " ++ type.logical.name ++ ", scale: " ++ toString type.scale ++ " \x7d"

/-- The type in which host values are given and taken. Floats are known by their bits alone. -/
inductive HostType where
  | i8
  | i16
  | i32
  | i64
  | i128
  | u8
  | u16
  | u24
  | u32
  | u64
  | u128
  | f32
  | f64
  deriving DecidableEq

namespace HostType

def width : HostType → Nat
  | i8 | u8 => 1
  | i16 | u16 => 2
  | u24 => 3
  | i32 | u32 | f32 => 4
  | i64 | u64 | f64 => 8
  | i128 | u128 => 16

def isSigned : HostType → Bool
  | i8 | i16 | i32 | i64 | i128 => true
  | _ => false

def encode (host : HostType) (value : Int) : Bytes :=
  Bytes.ofInt host.width value

def decode (host : HostType) (bytes : Bytes) : Int :=
  if host.isSigned then Bytes.toInt bytes else Bytes.toNat bytes

end HostType

end DeviceColumns
