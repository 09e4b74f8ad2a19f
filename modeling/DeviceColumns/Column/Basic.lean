import DeviceColumns.Column.View

/-!
Columns that own their memory. A column holds its data buffer, an optional mask and its children
until it is emptied, and `buffers` lists everything that it owns in the order in which it is given
back. The layout is: fixed-width values one after another in the data buffer; for strings one child
with offsets and the characters as data; for lists the offsets and the elements as children; for
dictionaries the indices and the keys; for structs the fields.
-/

namespace DeviceColumns

set_option autoImplicit false

abbrev ColumnAction (Value : Type) : Type := Action Machine Error Value

def MemoryAction.onColumns {Value : Type} (act : MemoryAction Value) : ColumnAction Value :=
  Action.mapFault Error.device act

structure Column where
  type : ColumnType
  rows : Nat
  data : Option Buffer
  mask : Option Buffer
  nullCount : Nat
  children : List Column

namespace Column

mutual

/-- Everything the column owns: its data, its mask, then what its children own. -/
def buffers : Column → List Buffer
  | ⟨_, _, data, mask, _, children⟩ => data.toList ++ mask.toList ++ buffersOfAll children

def buffersOfAll : List Column → List Buffer
  | [] => []
  | column :: rest => column.buffers ++ buffersOfAll rest

end

def free (column : Column) (machine : Machine) : Machine :=
  Buffer.freeAll column.buffers machine

def freeAll (columns : List Column) (machine : Machine) : Machine :=
  Buffer.freeAll (buffersOfAll columns) machine

def isNullable (column : Column) : Bool := column.mask.isSome

/-- What remains of a column whose buffers and children were taken: the type alone. -/
def emptied (column : Column) : Column :=
  ⟨column.type, 0, none, none, 0, []⟩

mutual

def view : Column → View
  | ⟨type, rows, data, mask, nullCount, children⟩ =>
      ⟨type, rows, data.bind Buffer.address, mask.bind Buffer.address, nullCount,
        viewAll children⟩

def viewAll : List Column → List View
  | [] => []
  | column :: rest => column.view :: viewAll rest

end

mutual

def text : Column → String
  | ⟨type, rows, data, mask, nullCount, children⟩ =>
      Text.record "DeviceColumn" [
        ("dtype", type.text),
        ("size", toString rows),
        ("data", Text.optional (data.map Buffer.text)),
        ("null_mask", Text.optional (mask.map Buffer.text)),
        ("null_count", toString nullCount),
        ("children", Text.bracketed (textAll children))]

def textAll : List Column → List String
  | [] => []
  | column :: rest => column.text :: textAll rest

end

end Column

end DeviceColumns
