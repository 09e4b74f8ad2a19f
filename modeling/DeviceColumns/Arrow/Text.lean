import DeviceColumns.Arrow.Type
import DeviceColumns.Text.Quoted

/-!
How Arrow types are written in messages: the name of the type, its parameters in parentheses, fields
as records. Of several metadata entries with one key the last counts.
-/

namespace DeviceColumns

set_option autoImplicit false

/-- The entries that count: of each key the last one. -/
def effectiveEntries : List (String × String) → List (String × String)
  | [] => []
  | entry :: later =>
      if later.any fun other => other.1 = entry.1 then effectiveEntries later
      else entry :: effectiveEntries later

def metadataText (metadata : List (String × String)) : String :=
  "\x7b" ++
    ", ".intercalate ((effectiveEntries metadata).map fun entry =>
      Text.quoted entry.1 ++ ": " ++ Text.quoted entry.2) ++ "\x7d"

mutual

def ArrowType.text : ArrowType → String
  | .null => "Null"
  | .boolean => "Boolean"
  | .int8 => "Int8"
  | .int16 => "Int16"
  | .int32 => "Int32"
  | .int64 => "Int64"
  | .uint8 => "UInt8"
  | .uint16 => "UInt16"
  | .uint32 => "UInt32"
  | .uint64 => "UInt64"
  | .float16 => "Float16"
  | .float32 => "Float32"
  | .float64 => "Float64"
  | .timestamp unit zone =>
      "Timestamp(" ++ unit.name ++ ", " ++ Text.optional (zone.map Text.quoted) ++ ")"
  | .date32 => "Date32"
  | .date64 => "Date64"
  | .time32 unit => "Time32(" ++ unit.name ++ ")"
  | .time64 unit => "Time64(" ++ unit.name ++ ")"
  | .duration unit => "Duration(" ++ unit.name ++ ")"
  | .interval unit => "Interval(" ++ unit.name ++ ")"
  | .binary => "Binary"
  | .fixedSizeBinary width => "FixedSizeBinary(" ++ toString width.toInt ++ ")"
  | .largeBinary => "LargeBinary"
  | .binaryView => "BinaryView"
  | .utf8 => "Utf8"
  | .largeUtf8 => "LargeUtf8"
  | .utf8View => "Utf8View"
  | .list item => "List(" ++ item.text ++ ")"
  | .listView item => "ListView(" ++ item.text ++ ")"
  | .fixedSizeList item count =>
      "FixedSizeList(" ++ item.text ++ ", " ++ toString count.toInt ++ ")"
  | .largeList item => "LargeList(" ++ item.text ++ ")"
  | .largeListView item => "LargeListView(" ++ item.text ++ ")"
  | .struct fields => "Struct(" ++ Text.bracketed (Field.texts fields) ++ ")"
  | .union members mode =>
      "Union(" ++ Text.bracketed (Field.memberTexts members) ++ ", " ++ mode.name ++ ")"
  | .dictionary key value => "Dictionary(" ++ key.text ++ ", " ++ value.text ++ ")"
  | .decimal128 precision scale =>
      "Decimal128(" ++ toString precision.toNat ++ ", " ++ toString scale.toInt ++ ")"
  | .decimal256 precision scale =>
      "Decimal256(" ++ toString precision.toNat ++ ", " ++ toString scale.toInt ++ ")"
  | .map entries sorted => "Map(" ++ entries.text ++ ", " ++ toString sorted ++ ")"
  | .runEndEncoded runEnds values =>
      "RunEndEncoded(" ++ runEnds.text ++ ", " ++ values.text ++ ")"

def Field.text : Field → String
  | ⟨name, type, nullable, dictId, dictOrdered, metadata⟩ =>
      Text.record "Field" [
        ("name", Text.quoted name),
        ("data_type", type.text),
        ("nullable", toString nullable),
        ("dict_id", toString dictId.toInt),
        ("dict_is_ordered", toString dictOrdered),
        ("metadata", metadataText metadata)]

def Field.texts : List Field → List String
  | [] => []
  | field :: rest => field.text :: Field.texts rest

def Field.memberTexts : List (Int8 × Field) → List String
  | [] => []
  | (tag, field) :: rest =>
      ("(" ++ toString tag.toInt ++ ", " ++ field.text ++ ")") :: Field.memberTexts rest

end

end DeviceColumns
