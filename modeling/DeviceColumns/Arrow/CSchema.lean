import DeviceColumns.Arrow.Schema

/-!
Schemas in the form of the C data interface: a format string for each type, the field's name, flags,
and the schemas of the children. A dictionary type has the format of its keys and describes its
values in a schema of their own. Names are terminated strings, so none may hold a zero character.
-/

namespace DeviceColumns

set_option autoImplicit false

structure CSchema where
  format : String
  name : Option String
  flags : Nat
  children : List CSchema
  dictionary : Option CSchema

namespace CSchema

def dictionaryOrderedFlag : Nat := 1

def nullableFlag : Nat := 2

def sortedKeysFlag : Nat := 4

end CSchema

def TimeUnit.letter : TimeUnit → String
  | second => "s"
  | millisecond => "m"
  | microsecond => "u"
  | nanosecond => "n"

def IntervalUnit.letter : IntervalUnit → String
  | yearMonth => "M"
  | dayTime => "D"
  | monthDayNano => "n"

def UnionMode.letter : UnionMode → String
  | sparse => "s"
  | dense => "d"

namespace ArrowType

def format : ArrowType → String
  | .null => "n"
  | .boolean => "b"
  | .int8 => "c"
  | .uint8 => "C"
  | .int16 => "s"
  | .uint16 => "S"
  | .int32 => "i"
  | .uint32 => "I"
  | .int64 => "l"
  | .uint64 => "L"
  | .float16 => "e"
  | .float32 => "f"
  | .float64 => "g"
  | .binary => "z"
  | .largeBinary => "Z"
  | .binaryView => "vz"
  | .utf8 => "u"
  | .largeUtf8 => "U"
  | .utf8View => "vu"
  | .fixedSizeBinary width => "w:" ++ toString width.toInt
  | .decimal128 precision scale =>
      "d:" ++ toString precision.toNat ++ "," ++ toString scale.toInt
  | .decimal256 precision scale =>
      "d:" ++ toString precision.toNat ++ "," ++ toString scale.toInt ++ ",256"
  | .date32 => "tdD"
  | .date64 => "tdm"
  | .time32 unit | .time64 unit => "tt" ++ unit.letter
  | .timestamp unit zone => "ts" ++ unit.letter ++ ":" ++ zone.getD ""
  | .duration unit => "tD" ++ unit.letter
  | .interval unit => "ti" ++ unit.letter
  | .list _ => "+l"
  | .listView _ => "+vl"
  | .largeList _ => "+L"
  | .largeListView _ => "+vL"
  | .fixedSizeList _ count => "+w:" ++ toString count.toInt
  | .struct _ => "+s"
  | .union members mode =>
      "+u" ++ mode.letter ++ ":" ++
        ",".intercalate (members.map fun member => toString member.1.toInt)
  | .map _ _ => "+m"
  | .runEndEncoded _ _ => "+r"
  | .dictionary key _ => key.format

/-- The flags that a type brings along, whatever its field says. -/
def flags : ArrowType → Nat
  | .map _ true => CSchema.sortedKeysFlag
  | _ => 0

end ArrowType

mutual

def ArrowType.cSchema : ArrowType → CSchema
  | .list item => ⟨"+l", none, 0, [item.cSchema], none⟩
  | .listView item => ⟨"+vl", none, 0, [item.cSchema], none⟩
  | .largeList item => ⟨"+L", none, 0, [item.cSchema], none⟩
  | .largeListView item => ⟨"+vL", none, 0, [item.cSchema], none⟩
  | .fixedSizeList item count =>
      ⟨(ArrowType.fixedSizeList item count).format, none, 0, [item.cSchema], none⟩
  | .struct fields => ⟨"+s", none, 0, Field.cSchemas fields, none⟩
  | .union members mode =>
      ⟨(ArrowType.union members mode).format, none, 0, Field.memberCSchemas members, none⟩
  | .map entries sorted =>
      ⟨"+m", none, (ArrowType.map entries sorted).flags, [entries.cSchema], none⟩
  | .runEndEncoded runEnds values => ⟨"+r", none, 0, [runEnds.cSchema, values.cSchema], none⟩
  | .dictionary key value => ⟨key.format, none, 0, [], some value.cSchema⟩
  | flat => ⟨flat.format, none, 0, [], none⟩

def Field.cSchema : Field → CSchema
  | ⟨name, type, nullable, _, dictOrdered, _⟩ =>
      let node := type.cSchema
      { node with
        name := some name
        flags :=
          node.flags + (if nullable then CSchema.nullableFlag else 0) +
            (if dictOrdered && node.dictionary.isSome then CSchema.dictionaryOrderedFlag else 0) }

def Field.cSchemas : List Field → List CSchema
  | [] => []
  | field :: rest => field.cSchema :: Field.cSchemas rest

def Field.memberCSchemas : List (Int8 × Field) → List CSchema
  | [] => []
  | (_, field) :: rest => field.cSchema :: Field.memberCSchemas rest

end

namespace CSchema

def holdsNul (name : Option String) : Bool :=
  (name.getD "").toList.contains '\x00'

mutual

def isWritable : CSchema → Bool
  | ⟨_, name, _, children, dictionary⟩ =>
      !holdsNul name && allWritable children && isWritable? dictionary

def allWritable : List CSchema → Bool
  | [] => true
  | node :: rest => node.isWritable && allWritable rest

def isWritable? : Option CSchema → Bool
  | none => true
  | some node => node.isWritable

end

end CSchema

/-- The schema as one struct of its fields, unless a name in it cannot be written. -/
def Schema.toC (schema : Schema) : Except Unanswerable CSchema :=
  let node := (ArrowType.struct schema.fields).cSchema
  if node.isWritable then .ok node else .error .nulInName

end DeviceColumns
