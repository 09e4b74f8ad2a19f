/-!
Arrow types and fields: the vocabulary of exchanged schemas. Types nest through named fields, whose
dictionary settings and metadata are carried along although the columns here do not use them.
-/

namespace DeviceColumns

set_option autoImplicit false

inductive TimeUnit where
  | second
  | millisecond
  | microsecond
  | nanosecond
  deriving DecidableEq

def TimeUnit.name : TimeUnit → String
  | second => "Second"
  | millisecond => "Millisecond"
  | microsecond => "Microsecond"
  | nanosecond => "Nanosecond"

def TimeUnit.all : List TimeUnit := [.second, .millisecond, .microsecond, .nanosecond]

inductive IntervalUnit where
  | yearMonth
  | dayTime
  | monthDayNano
  deriving DecidableEq

def IntervalUnit.name : IntervalUnit → String
  | yearMonth => "YearMonth"
  | dayTime => "DayTime"
  | monthDayNano => "MonthDayNano"

def IntervalUnit.all : List IntervalUnit := [.yearMonth, .dayTime, .monthDayNano]

inductive UnionMode where
  | sparse
  | dense
  deriving DecidableEq

def UnionMode.name : UnionMode → String
  | sparse => "Sparse"
  | dense => "Dense"

def UnionMode.all : List UnionMode := [.sparse, .dense]

mutual

inductive ArrowType where
  | null
  | boolean
  | int8
  | int16
  | int32
  | int64
  | uint8
  | uint16
  | uint32
  | uint64
  | float16
  | float32
  | float64
  | timestamp (unit : TimeUnit) (zone : Option String)
  | date32
  | date64
  | time32 (unit : TimeUnit)
  | time64 (unit : TimeUnit)
  | duration (unit : TimeUnit)
  | interval (unit : IntervalUnit)
  | binary
  | fixedSizeBinary (width : Int32)
  | largeBinary
  | binaryView
  | utf8
  | largeUtf8
  | utf8View
  | list (item : Field)
  | listView (item : Field)
  | fixedSizeList (item : Field) (count : Int32)
  | largeList (item : Field)
  | largeListView (item : Field)
  | struct (fields : List Field)
  | union (members : List (Int8 × Field)) (mode : UnionMode)
  | dictionary (key value : ArrowType)
  | decimal128 (precision : UInt8) (scale : Int8)
  | decimal256 (precision : UInt8) (scale : Int8)
  | map (entries : Field) (sorted : Bool)
  | runEndEncoded (runEnds values : Field)

structure Field where
  name : String
  type : ArrowType
  nullable : Bool
  dictId : Int64
  dictOrdered : Bool
  metadata : List (String × String)

end

instance : Inhabited ArrowType := ⟨.null⟩

def Field.plain (name : String) (type : ArrowType) (nullable : Bool) : Field :=
  ⟨name, type, nullable, 0, false, []⟩

structure Schema where
  fields : List Field
  metadata : List (String × String) := []

end DeviceColumns
