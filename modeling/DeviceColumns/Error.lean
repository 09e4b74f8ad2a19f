import DeviceColumns.Arrow.Text
import DeviceColumns.Column.Type
import DeviceColumns.Memory.Error

/-!
Why an operation on columns fails, and what is said about it. The kind of a cause chooses the
headline of its message. Two inputs lie outside what an operation can answer at all, not even with a
message: a bit past the end of a mask, and a name that cannot be written as a terminated string.
-/

namespace DeviceColumns

set_option autoImplicit false

inductive ErrorKind where
  | unsupportedType
  | shapeMismatch
  | device (kind : DeviceErrorKind)
  | abiBuild
  | transport
  deriving DecidableEq

namespace ErrorKind

def name : ErrorKind → String
  | unsupportedType => "UnsupportedType"
  | shapeMismatch => "ShapeMismatch"
  | device kind => "Device." ++ kind.name
  | abiBuild => "AbiBuild"
  | transport => "Transport"

def message (kind : ErrorKind) (detail : String) : String :=
  match kind with
  | unsupportedType => "Unsupported type: " ++ detail
  | shapeMismatch => "Shape mismatch: " ++ detail
  | device kind => "Device resource error: " ++ kind.message detail
  | abiBuild => "Failed to build Arrow ABI structure: C Data interface error: " ++ detail
  | transport => "Malformed transport buffer: " ++ detail

end ErrorKind

inductive BufferRole where
  | data
  | validity
  deriving DecidableEq

def BufferRole.name : BufferRole → String
  | data => "data"
  | validity => "validity"

inductive Error where
  | device (cause : DeviceError)
  /-- Host values of the wrong width for the column. -/
  | hostWidth (bytes : Nat) (type : LogicalType)
  | dictionaryIndices (type : LogicalType)
  | namedDictionaryIndices (name : String) (type : LogicalType)
  | notArrayExportable (type : LogicalType)
  | notShareable (type : LogicalType)
  | fieldlessStruct
  | notImportable (type : LogicalType)
  | noArrowType
  | nestedLeaf (type : LogicalType)
  | scaleRange (scale : Int)
  | noColumnType (type : ArrowType)
  | stringsTooLong
  | noOffsets
  | offsetsEnd (last : Int) (rows : Nat)
  | structField (index rows expected : Nat)
  | validityLength (entries rows : Nat)
  | noData (type : LogicalType)
  | unevenColumns (index rows first : Nat)
  | listChildren (count : Nat)
  | listElementMissing (name : String)
  | structNames (name : String) (children names : Nat)
  | dictionaryChildren (name : String)
  | tableNames (columns names : Nat)
  | missingMagic
  | undecodable
  | version (found expected : Nat)
  | unknownDevice (code : Int)
  | fieldTrees (fields trees : Nat)
  | shortBuffer (role : BufferRole) (name : String) (bytes : Nat)
  | overrun (offset bytes mapped : Nat)
  | childTrees (name : String) (trees needed : Nat)

namespace Error

def kind : Error → ErrorKind
  | device cause => .device cause.kind
  | hostWidth .. => .unsupportedType
  | dictionaryIndices _ => .unsupportedType
  | namedDictionaryIndices .. => .unsupportedType
  | notArrayExportable _ => .unsupportedType
  | notShareable _ => .unsupportedType
  | fieldlessStruct => .unsupportedType
  | notImportable _ => .unsupportedType
  | noArrowType => .unsupportedType
  | nestedLeaf _ => .unsupportedType
  | scaleRange _ => .unsupportedType
  | noColumnType _ => .unsupportedType
  | stringsTooLong => .shapeMismatch
  | noOffsets => .shapeMismatch
  | offsetsEnd .. => .shapeMismatch
  | structField .. => .shapeMismatch
  | validityLength .. => .shapeMismatch
  | noData _ => .shapeMismatch
  | unevenColumns .. => .shapeMismatch
  | listChildren _ => .shapeMismatch
  | listElementMissing _ => .shapeMismatch
  | structNames .. => .shapeMismatch
  | dictionaryChildren _ => .shapeMismatch
  | tableNames .. => .shapeMismatch
  | missingMagic => .transport
  | undecodable => .transport
  | version .. => .transport
  | unknownDevice _ => .transport
  | fieldTrees .. => .transport
  | shortBuffer .. => .transport
  | overrun .. => .transport
  | childTrees .. => .transport

def detail : Error → String
  | device cause => cause.detail
  | hostWidth bytes type =>
      toString bytes ++ "-byte host values cannot back a " ++ type.name ++ " column"
  | dictionaryIndices type => "dictionary indices must be integers, got " ++ type.name
  | namedDictionaryIndices name type =>
      "dictionary indices of '" ++ name ++ "' are " ++ type.name
  | notArrayExportable type =>
      type.name ++ " columns cannot be exported to an Arrow device array"
  | notShareable type => type.name ++ " columns cannot be exported over IPC"
  | fieldlessStruct => "struct column without fields cannot be exported over IPC"
  | notImportable type => type.name ++ " columns cannot be imported over IPC"
  | noArrowType => "duration in days has no Arrow equivalent"
  | nestedLeaf type => type.name ++ " is nested, not a leaf type"
  | scaleRange scale => "decimal scale " ++ toString scale ++ " does not fit an Arrow scale"
  | noColumnType type => "Arrow type " ++ type.text ++ " has no column equivalent"
  | stringsTooLong => "string column exceeds 2^31 bytes"
  | noOffsets => "list offsets cannot be empty"
  | offsetsEnd last rows =>
      "list offsets end at " ++ toString last ++ " but the element column has " ++
        toString rows ++ " rows"
  | structField index rows expected =>
      "struct field " ++ toString index ++ " has " ++ toString rows ++ " rows, expected " ++
        toString expected
  | validityLength entries rows =>
      "validity has " ++ toString entries ++ " entries for " ++ toString rows ++ " rows"
  | noData type => type.name ++ " view has no data"
  | unevenColumns index rows first =>
      "column " ++ toString index ++ " has " ++ toString rows ++ " rows, column 0 has " ++
        toString first
  | listChildren count =>
      "list column has " ++ toString count ++ " children, expected offsets and element"
  | listElementMissing name => "list column '" ++ name ++ "' has offsets but no element child"
  | structNames name children names =>
      "struct column '" ++ name ++ "' has " ++ toString children ++
        " children but metadata names " ++ toString names
  | dictionaryChildren name => "dictionary column '" ++ name ++ "' needs indices and keys"
  | tableNames columns names =>
      "table has " ++ toString columns ++ " columns but metadata names " ++ toString names
  | missingMagic => "missing magic"
  | undecodable => "decode failed"
  | version found expected =>
      "unsupported format version " ++ toString found ++ " (expected " ++ toString expected ++ ")"
  | unknownDevice code => "unknown device type " ++ toString code
  | fieldTrees fields trees =>
      "schema has " ++ toString fields ++ " fields but " ++ toString trees ++ " handle trees"
  | shortBuffer role name bytes =>
      role.name ++ " buffer of column '" ++ name ++ "' spans " ++ toString bytes ++
        " bytes, too few for its rows"
  | overrun offset bytes mapped =>
      "buffer at offset " ++ toString offset ++ " of " ++ toString bytes ++ " bytes overruns a " ++
        toString mapped ++ "-byte mapping"
  | childTrees name trees needed =>
      "column '" ++ name ++ "' has " ++ toString trees ++ " child handle trees, its type needs " ++
        toString needed

def message (error : Error) : String :=
  error.kind.message error.detail

end Error

/-- Inputs that an operation has no answer for. -/
inductive Unanswerable where
  | bitPastMask
  | nulInName
  deriving DecidableEq

end DeviceColumns
