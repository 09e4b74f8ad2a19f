import DeviceColumns.Error
import DeviceColumns.Kernel.Bitmask

/-!
Descriptions of columns. A view gives the addresses of a column's buffers without owning them; it is
what schemas and messages are made from, and what values are read back through.
-/

namespace DeviceColumns

set_option autoImplicit false

/-- Where a column lies in device memory. An absent buffer has no address. -/
structure View where
  type : ColumnType
  rows : Nat
  data : Option Nat
  mask : Option Nat
  nullCount : Nat
  children : List View

namespace View

mutual

private def decideEq : (left right : View) → Decidable (left = right)
  | ⟨type, rows, data, mask, nullCount, children⟩,
      ⟨type', rows', data', mask', nullCount', children'⟩ =>
    match decideEqAll children children' with
    | isTrue same =>
        if flat : type = type' ∧ rows = rows' ∧ data = data' ∧ mask = mask' ∧
            nullCount = nullCount' then
          isTrue (by
            obtain ⟨rfl, rfl, rfl, rfl, rfl⟩ := flat
            rw [same])
        else
          isFalse (by
            intro equal
            injection equal with types sizes datas masks nulls
            exact flat ⟨types, sizes, datas, masks, nulls⟩)
    | isFalse different =>
        isFalse (by
          intro equal
          injection equal with _ _ _ _ _ same
          exact different same)

private def decideEqAll : (left right : List View) → Decidable (left = right)
  | [], [] => isTrue rfl
  | [], _ :: _ => isFalse (by intro equal; cases equal)
  | _ :: _, [] => isFalse (by intro equal; cases equal)
  | first :: rest, first' :: rest' =>
    match decideEq first first', decideEqAll rest rest' with
    | isTrue same, isTrue sameRest => isTrue (by rw [same, sameRest])
    | isFalse different, _ =>
        isFalse (by intro equal; injection equal with same; exact different same)
    | _, isFalse different =>
        isFalse (by intro equal; injection equal with _ same; exact different same)

end

instance : DecidableEq View := decideEq

def isNullable (view : View) : Bool := view.mask.isSome

/-- The length of the data, if the type has a width. A view may claim more rows than a word can count
the bytes of; no such rows are in memory. -/
def dataBytes? (view : View) : Option Nat :=
  view.type.logical.width?.map (Bytes.lengthOf view.rows)

/-- The length of the mask with its padding. As a byte holds eight rows, a word that counts the rows
also counts its bytes. -/
def maskBytes (view : View) : Nat := Bitmask.allocationSize view.rows

/-- The values read back as a host type. Without rows nothing is read. -/
def values (view : View) (host : HostType) (heap : Heap) : Except Error (List Int) :=
  if view.rows = 0 then .ok []
  else
    match view.data with
    | none => .error (.noData view.type.logical)
    | some address =>
        match heap.read address (Bytes.lengthOf view.rows host.width) with
        | .error cause => .error (.device cause)
        | .ok bytes => .ok ((Bytes.slices host.width bytes).map host.decode)

def validity (view : View) (heap : Heap) : Except Error (Option (List Bool)) :=
  match view.mask with
  | none => .ok none
  | some address =>
      match heap.read address (Bitmask.pieces view.rows 8) with
      | .error cause => .error (.device cause)
      | .ok bytes => .ok (some ((Bitmask.unpack bytes).take view.rows))

end View

structure TableView where
  device : Device
  columns : List View

def TableView.rows (table : TableView) : Nat :=
  (table.columns.head?.map View.rows).getD 0

end DeviceColumns
