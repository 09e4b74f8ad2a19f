import DeviceColumns.Arrow.Array
import DeviceColumns.Column.Table
import DeviceColumns.Kernel.Widening

/-!
Columns become arrays by handing over their buffers. Only narrow decimals and one-byte booleans need
new memory, which is filled before the column gives anything up, so a failed conversion leaves its
column as it was. A table is converted column by column: when a column fails, those before it have
already been emptied and what was made from them is given back.
-/

namespace DeviceColumns

set_option autoImplicit false

namespace Column

def checkArray (type : LogicalType) : Except Error Unit :=
  match type with
  | .string | .list | .dictionary32 | .struct | .durationDays => .error (.notArrayExportable type)
  | _ => .ok ()

/-- The slot that a buffer fills; a buffer without bytes leaves it empty. -/
def slot (buffer : Option Buffer) : Option Buffer :=
  buffer.filter fun held => held.address.isSome

def dataPointer (column : Column) : Nat :=
  (column.data.map Buffer.pointer).getD 0

def convertedData (column : Column) (resource : Resource) : MemoryAction (Option Buffer) :=
  match column.type.logical with
  | .decimal32 => some <$> NarrowDecimal.bits32.widenAt column.dataPointer column.rows resource
  | .decimal64 => some <$> NarrowDecimal.bits64.widenAt column.dataPointer column.rows resource
  | .bool8 => some <$> Bitmask.ofBooleans column.dataPointer column.rows resource
  | _ => pure none

/-- The array of a flat column, which takes over the column's buffers. The column counts as emptied
from then on; on failure it still owns all it had. -/
def toArray (column : Column) (resource : Resource) : ColumnAction ArrayNode := do
  Action.ofExcept (checkArray column.type.logical)
  if column.type.logical = .empty then
    Action.modify column.free
    return .make column.rows column.rows [] [] none
  let converted ← MemoryAction.onColumns (column.convertedData resource)
  let leftover := if converted.isSome then column.data.toList else []
  Action.modify (Buffer.freeAll (leftover ++ buffersOfAll column.children))
  return .make column.rows column.nullCount [slot column.mask, slot (converted <|> column.data)]
    [] none

/-- What became of the columns of a table: the arrays made so far, the columns in their present
state, and why the work stopped, if it did. -/
structure Conversion where
  nodes : List ArrayNode
  columns : List Column
  fault : Option Error

def convertAll (resource : Resource) : List Column → Machine → Conversion × Machine
  | [], machine => (⟨[], [], none⟩, machine)
  | column :: rest, machine =>
      match column.toArray resource machine with
      | (.error fault, after) => (⟨[], column :: rest, some fault⟩, after)
      | (.ok node, after) =>
          let (later, final) := convertAll resource rest after
          (⟨node :: later.nodes, column.emptied :: later.columns, later.fault⟩, final)

end Column

namespace Table

def checkArrays : List Column → Except Error Unit
  | [] => .ok ()
  | column :: rest => do
      Column.checkArray column.type.logical
      checkArrays rest

/-- Export every column as one struct array with a completion event. All columns are checked before
any is touched. The table that is returned holds the columns in their state afterwards. -/
def toDeviceArray (table : Table) (resource : Resource) (machine : Machine) :
    Except Error DeviceArray × Table × Machine :=
  match checkArrays table.columns with
  | .error fault => (.error fault, table, machine)
  | .ok () =>
      let (event, numbered) := machine.createEvent
      let (conversion, after) := Column.convertAll resource table.columns numbered
      let remaining : Table := ⟨table.device, conversion.columns⟩
      match conversion.fault with
      | some fault => (.error fault, remaining, ArrayNode.freeAll conversion.nodes after)
      | none =>
          let array := ArrayNode.make table.rows 0 [none] conversion.nodes (some event)
          (.ok ⟨array, table.device⟩, remaining, after)

end Table

end DeviceColumns
