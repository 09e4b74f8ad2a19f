import DeviceColumns.Arrow.Schema
import DeviceColumns.Memory.Handle
import DeviceColumns.Transport.Encode

/-!
Tables become messages without copying any device memory: each buffer is described by the handle of
its block. Types and shapes are checked for all columns first, then the schema is made, and only
then are handles asked for.
-/

namespace DeviceColumns

set_option autoImplicit false

namespace View

mutual

/-- Fixed-width columns can be shared, and structs and lists of them. -/
def checkShareable : View → Except Error Unit
  | ⟨type, _, _, _, _, children⟩ =>
    match type.logical with
    | .string | .dictionary32 | .empty => .error (.notShareable type.logical)
    | .struct =>
        if children.isEmpty then .error .fieldlessStruct else checkShareableAll children
    | .list =>
        if children.length ≠ 2 then .error (.listChildren children.length)
        else checkShareableAll children
    | _ => .ok ()

def checkShareableAll : List View → Except Error Unit
  | [] => .ok ()
  | view :: rest => do
      view.checkShareable
      checkShareableAll rest

end

/-- Describe the buffer of `size` bytes at `address`. With `strict`, memory of any other kind than
device memory is refused before a handle is asked for. -/
def describe (heap : Heap) (strict : Bool) (address size : Nat) : Except Error Descriptor :=
  if strict ∧ heap.memoryKind address ≠ .device then
    .error (.device (.notShareable address (heap.memoryKind address)))
  else
    match heap.handleAt address with
    | .error cause => .error (.device cause)
    | .ok place =>
        .ok ⟨place.handle.bytes, UInt64.ofNat place.offset, UInt64.ofNat size⟩

def describe? (heap : Heap) (strict : Bool) (address : Option Nat) (size : Nat) :
    Except Error (Option Descriptor) :=
  match address with
  | none => .ok none
  | some found => (describe heap strict found size).map some

mutual

def handles (heap : Heap) (strict : Bool) : View → Except Error HandleTree
  | ⟨type, rows, data, mask, nullCount, children⟩ => do
    let size := (type.logical.width?.map (Bytes.lengthOf rows)).getD 0
    let described ← describe? heap strict data size
    let validity ← describe? heap strict mask (Bitmask.allocationSize rows)
    let trees ← handlesOfAll heap strict children
    return ⟨UInt64.ofNat rows, UInt64.ofNat nullCount, described, validity, trees⟩

def handlesOfAll (heap : Heap) (strict : Bool) : List View → Except Error (List HandleTree)
  | [] => .ok []
  | view :: rest => do
      let tree ← view.handles heap strict
      let trees ← handlesOfAll heap strict rest
      return tree :: trees

end

end View

namespace TableView

def toMessage (table : TableView) (names : List NameTree) (strict : Bool) (heap : Heap) :
    Except Error Message := do
  View.checkShareableAll table.columns
  let schema ← table.schema names
  let columns ← View.handlesOfAll heap strict table.columns
  return {
    version := Message.currentVersion
    deviceCode := Int32.ofInt table.device.kind.code
    deviceId := Int64.ofInt table.device.id
    schema := schema
    columns := columns }

def share (table : TableView) (names : List NameTree) (strict : Bool) (heap : Heap) :
    Except Error Bytes :=
  (table.toMessage names strict heap).map Message.encode

end TableView

end DeviceColumns
