import DeviceColumns.Column.Basic

/-!
Tables: columns of one device that share a row count.
-/

namespace DeviceColumns

set_option autoImplicit false

structure Table where
  device : Device
  columns : List Column

namespace Table

def unevenColumn? (columns : List Column) : Option Error :=
  match columns with
  | [] => none
  | first :: _ =>
      (columns.zipIdx.find? fun entry => entry.1.rows ≠ first.rows).map fun entry =>
        .unevenColumns entry.2 entry.1.rows first.rows

/-- A table of columns with one row count; otherwise the columns are given back. -/
def ofColumns (device : Device) (columns : List Column) : ColumnAction Table := fun machine =>
  match unevenColumn? columns with
  | some error => (.error error, Column.freeAll columns machine)
  | none => (.ok ⟨device, columns⟩, machine)

def rows (table : Table) : Nat :=
  (table.columns.head?.map Column.rows).getD 0

def view (table : Table) : TableView :=
  ⟨table.device, Column.viewAll table.columns⟩

end Table

end DeviceColumns
