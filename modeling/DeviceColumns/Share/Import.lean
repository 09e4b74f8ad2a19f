import DeviceColumns.Arrow.Leaf
import DeviceColumns.Column.Basic
import DeviceColumns.Memory.Handle
import DeviceColumns.Transport.Decode

/-!
Shared tables are opened from messages. Every handle in the message is opened anew; the view that
comes out points into the mapped blocks, and the owners that come with it keep the mappings open.
The sizes in a message are not believed: a buffer must hold the rows of its column, and must lie in
the block that its handle opens. If anything fails, whatever was opened so far is closed again.
-/

namespace DeviceColumns

set_option autoImplicit false

structure SharedColumn where
  name : String
  data : Option Mapping
  validity : Option Mapping
  children : List SharedColumn

namespace SharedColumn

mutual

def mappings : SharedColumn → List Mapping
  | ⟨_, data, validity, children⟩ => data.toList ++ validity.toList ++ mappingsOfAll children

def mappingsOfAll : List SharedColumn → List Mapping
  | [] => []
  | column :: rest => column.mappings ++ mappingsOfAll rest

end

def close (column : SharedColumn) (machine : Machine) : Machine :=
  Mapping.closeAll column.mappings machine

def closeAll (columns : List SharedColumn) (machine : Machine) : Machine :=
  Mapping.closeAll (mappingsOfAll columns) machine

mutual

def text : SharedColumn → String
  | ⟨name, data, validity, children⟩ =>
      Text.record "ImportedColumn" [
        ("name", Text.quoted name),
        ("data", Text.optional (data.map Mapping.text)),
        ("validity", Text.optional (validity.map Mapping.text)),
        ("children", Text.bracketed (textAll children))]

def textAll : List SharedColumn → List String
  | [] => []
  | column :: rest => column.text :: textAll rest

end

end SharedColumn

structure SharedTable where
  view : TableView
  owners : List SharedColumn

namespace SharedTable

/-- Fails unless the descriptor, if there is one, spans at least `needed` bytes. -/
def checkSpan (role : BufferRole) (name : String) (descriptor : Option Descriptor)
    (needed : Option Nat) : Except Error Unit :=
  match descriptor, needed with
  | some found, some bytes =>
      if bytes ≤ found.size.toNat then .ok ()
      else .error (.shortBuffer role name found.size.toNat)
  | _, _ => .ok ()

/-- Open one buffer. The mapping is closed again if the buffer reaches past the mapped block. -/
def openBuffer (descriptor : Descriptor) : ColumnAction (Mapping × Nat) := do
  let handle ← Action.ofExcept ((Handle.ofBytes? descriptor.handle).mapError Error.device)
  let mapping ← MemoryAction.onColumns (Mapping.openHandle handle)
  Action.undoOnFailure (do
    let machine ← Action.get
    let (_, mapped) ←
      Action.ofExcept ((machine.heap.addressRange mapping.base).mapError Error.device)
    if descriptor.offset.toNat + descriptor.size.toNat ≤ mapped then
      return (mapping, mapping.base + descriptor.offset.toNat)
    else
      Action.fail (.overrun descriptor.offset.toNat descriptor.size.toNat mapped))
    mapping.close

def openBuffer? (descriptor : Option Descriptor) : ColumnAction (Option Mapping × Option Nat) :=
  match descriptor with
  | none => return (none, none)
  | some found => do
      let (mapping, address) ← openBuffer found
      return (some mapping, some address)

/-- The names and types of the children that a type's handle tree must have. -/
def childTypes : ArrowType → List (String × ArrowType)
  | .list item => [("offsets", .int32), (item.name, item.type)]
  | .struct fields => fields.map fun field => (field.name, field.type)
  | _ => []

def columnType (arrow : ArrowType) : Except Error ColumnType := do
  let type ← arrow.toColumn
  match type.logical with
  | .string | .dictionary32 | .empty => .error (.notImportable type.logical)
  | _ => return type

mutual

def openColumn (name : String) (arrow : ArrowType) :
    HandleTree → ColumnAction (View × SharedColumn)
  | ⟨rows, nullCount, data, validity, children⟩ => do
    let type ← Action.ofExcept (columnType arrow)
    Action.ofExcept
      (checkSpan .data name data (type.logical.width?.map (rows.toNat * ·)))
    Action.ofExcept (checkSpan .validity name validity (some (Bitmask.pieces rows.toNat 8)))
    let (dataMapping, dataAddress) ← openBuffer? data
    let (maskMapping, maskAddress) ←
      (openBuffer? validity).undoOnFailure (Mapping.closeAll dataMapping.toList)
    let (views, owners) ←
      Action.undoOnFailure
        (if (childTypes arrow).length = children.length then
          openColumns (childTypes arrow) children
        else
          Action.fail (.childTrees name children.length (childTypes arrow).length))
        (Mapping.closeAll (maskMapping.toList ++ dataMapping.toList))
    return (⟨type, rows.toNat, dataAddress, maskAddress, nullCount.toNat, views⟩,
      ⟨name, dataMapping, maskMapping, owners⟩)

def openColumns : List (String × ArrowType) → List HandleTree →
    ColumnAction (List View × List SharedColumn)
  | (name, arrow) :: types, tree :: trees => do
      let (view, owner) ← openColumn name arrow tree
      let (views, owners) ← (openColumns types trees).undoOnFailure owner.close
      return (view :: views, owner :: owners)
  | _, _ => return ([], [])

end

def ofMessage (message : Message) : ColumnAction SharedTable := do
  let kind ←
    match DeviceKind.ofCode? message.deviceCode.toInt with
    | some kind => pure kind
    | none => Action.fail (.unknownDevice message.deviceCode.toInt)
  let device ←
    match Device.ofDescriptor? kind message.deviceId.toInt with
    | some device => pure device
    | none => Action.fail (.device (.noBackend kind message.deviceId.toInt))
  let fields := message.schema.fields
  if fields.length ≠ message.columns.length then
    Action.fail (.fieldTrees fields.length message.columns.length)
  let (views, owners) ←
    openColumns (fields.map fun field => (field.name, field.type)) message.columns
  return ⟨⟨device, views⟩, owners⟩

def ofBytes (bytes : Bytes) : ColumnAction SharedTable := do
  let message ← Action.ofExcept (Message.decode bytes)
  ofMessage message

def close (table : SharedTable) (machine : Machine) : Machine :=
  SharedColumn.closeAll table.owners machine

end SharedTable

end DeviceColumns
