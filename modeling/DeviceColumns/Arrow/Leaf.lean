import DeviceColumns.Error

/-!
The Arrow types of flat columns, and back. Decimals are always exchanged with 128 bits; the
precision tells how wide they were. Arrow counts fractional digits where columns have an exponent,
so scales change sign.
-/

namespace DeviceColumns

set_option autoImplicit false

def decimal32Precision : UInt8 := 9

def decimal64Precision : UInt8 := 18

def decimal128Precision : UInt8 := 38

namespace ColumnType

def arrowScale (type : ColumnType) : Except Error Int8 :=
  if -128 ≤ -type.scale ∧ -type.scale ≤ 127 then .ok (Int8.ofInt (-type.scale))
  else .error (.scaleRange type.scale)

/-- The Arrow type of a flat column. Nested types are not leaves and days of duration have no
counterpart. -/
def toArrow (type : ColumnType) : Except Error ArrowType :=
  match type.logical with
  | .empty => .ok .null
  | .int8 => .ok .int8
  | .int16 => .ok .int16
  | .int32 => .ok .int32
  | .int64 => .ok .int64
  | .uint8 => .ok .uint8
  | .uint16 => .ok .uint16
  | .uint32 => .ok .uint32
  | .uint64 => .ok .uint64
  | .float32 => .ok .float32
  | .float64 => .ok .float64
  | .bool8 => .ok .boolean
  | .string => .ok .utf8
  | .timestampDays => .ok .date32
  | .timestampSeconds => .ok (.timestamp .second none)
  | .timestampMilliseconds => .ok (.timestamp .millisecond none)
  | .timestampMicroseconds => .ok (.timestamp .microsecond none)
  | .timestampNanoseconds => .ok (.timestamp .nanosecond none)
  | .durationSeconds => .ok (.duration .second)
  | .durationMilliseconds => .ok (.duration .millisecond)
  | .durationMicroseconds => .ok (.duration .microsecond)
  | .durationNanoseconds => .ok (.duration .nanosecond)
  | .decimal32 => type.arrowScale.map (.decimal128 decimal32Precision)
  | .decimal64 => type.arrowScale.map (.decimal128 decimal64Precision)
  | .decimal128 => type.arrowScale.map (.decimal128 decimal128Precision)
  | .durationDays => .error .noArrowType
  | .list | .struct | .dictionary32 => .error (.nestedLeaf type.logical)

end ColumnType

namespace ArrowType

/-- The width of decimals that a precision was recorded for. -/
def decimalOfPrecision (precision : UInt8) : LogicalType :=
  if precision = decimal32Precision then .decimal32
  else if precision = decimal64Precision then .decimal64
  else .decimal128

/-- The column type that an Arrow type stands for; of a nested type only the kind of nesting. -/
def toColumn (arrow : ArrowType) : Except Error ColumnType :=
  match arrow with
  | .null => .ok ⟨.empty, 0⟩
  | .int8 => .ok ⟨.int8, 0⟩
  | .int16 => .ok ⟨.int16, 0⟩
  | .int32 => .ok ⟨.int32, 0⟩
  | .int64 => .ok ⟨.int64, 0⟩
  | .uint8 => .ok ⟨.uint8, 0⟩
  | .uint16 => .ok ⟨.uint16, 0⟩
  | .uint32 => .ok ⟨.uint32, 0⟩
  | .uint64 => .ok ⟨.uint64, 0⟩
  | .float32 => .ok ⟨.float32, 0⟩
  | .float64 => .ok ⟨.float64, 0⟩
  | .boolean => .ok ⟨.bool8, 0⟩
  | .utf8 => .ok ⟨.string, 0⟩
  | .date32 => .ok ⟨.timestampDays, 0⟩
  | .timestamp .second none => .ok ⟨.timestampSeconds, 0⟩
  | .timestamp .millisecond none => .ok ⟨.timestampMilliseconds, 0⟩
  | .timestamp .microsecond none => .ok ⟨.timestampMicroseconds, 0⟩
  | .timestamp .nanosecond none => .ok ⟨.timestampNanoseconds, 0⟩
  | .duration .second => .ok ⟨.durationSeconds, 0⟩
  | .duration .millisecond => .ok ⟨.durationMilliseconds, 0⟩
  | .duration .microsecond => .ok ⟨.durationMicroseconds, 0⟩
  | .duration .nanosecond => .ok ⟨.durationNanoseconds, 0⟩
  | .decimal128 precision scale => .ok ⟨decimalOfPrecision precision, -scale.toInt⟩
  | .list _ => .ok ⟨.list, 0⟩
  | .struct _ => .ok ⟨.struct, 0⟩
  | .dictionary _ _ => .ok ⟨.dictionary32, 0⟩
  | other => .error (.noColumnType other)

end ArrowType

end DeviceColumns
