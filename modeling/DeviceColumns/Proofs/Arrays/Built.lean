import DeviceColumns.Column.Build
import DeviceColumns.Column.Table
import DeviceColumns.Proofs.Kernel.Words
import DeviceColumns.Proofs.Memory.Contents
import DeviceColumns.Proofs.Triple
import Mathlib.Tactic.SplitIfs

/-!
Columns of values, of booleans and of nulls, and the tables made of them. Whatever they were made
from, they are flat: values of the width of their type fill the data buffer, a mask has a bit for
each row, and there are no children.
-/

namespace DeviceColumns

set_option autoImplicit false

open DeviceColumns.Action

namespace Column

/-- One value for each row, and a mask only if there are rows. Without a type, all rows are null. -/
structure Flat (column : Column) : Prop where
  kind : column.type.logical = .empty ∨ column.type.logical.width?.isSome
  bare : column.children = []
  data : (column.data.map Buffer.length).getD 0 =
    column.rows * column.type.logical.width?.getD 0
  mask : ∀ mask ∈ column.mask,
    column.rows ≠ 0 ∧ mask.length = Bitmask.allocationSize column.rows
  nulls : column.nullCount ≤ column.rows
  untyped : column.type.logical = .empty → column.mask = none ∧ column.nullCount = column.rows

/-- Columns that were made of host values, of booleans, or of nothing but a row count. -/
inductive Built : Column → Prop where
  | values {type : ColumnType} {host : HostType} {values : List Int}
      {validity : Option (List Bool)} {resource : Resource} {machine after : Machine}
      {column : Column}
      (made : ofValues type host values validity resource machine = (.ok column, after)) :
      Built column
  | booleans {values : List Bool} {validity : Option (List Bool)} {resource : Resource}
      {machine after : Machine} {column : Column}
      (made : ofBools values validity resource machine = (.ok column, after)) : Built column
  | nulls (rows : Nat) : Built (ofNulls rows)

end Column

/-- A table that was made of such columns. -/
inductive Table.Built : Table → Prop where
  | made {device : Device} {columns : List Column} {machine after : Machine} {table : Table}
      (each : ∀ column ∈ columns, column.Built)
      (accepted : ofColumns device columns machine = (.ok table, after)) : Built table

theorem Buffer.ofBytes_length (bytes : Bytes) (resource : Resource) :
    Triple (fun _ => True) (Buffer.ofBytes bytes resource)
      (fun buffer _ => buffer.length = bytes.length) fun _ => True := by
  have allocated : Triple (fun _ => True) (Buffer.allocate bytes.length resource)
      (fun buffer _ => buffer.length = bytes.length) fun _ => True := by
    intro machine _
    rcases granted : Buffer.allocate bytes.length resource machine with ⟨cause | buffer, after⟩
    · trivial
    · obtain ⟨empty, rfl, _⟩ | ⟨_, _, rfl, _⟩ := allocate_ok granted
      · exact empty.symm
      · rfl
  refine Triple.bindOnly allocated fun buffer length => ?_
  exact Triple.bindOnly (Triple.always _) fun _ _ => Triple.pure fun _ _ => length

namespace Column

theorem maskOf_fits (validity : Option (List Bool)) (rows : Nat) (resource : Resource) :
    Triple (fun _ => True) (maskOf validity rows resource)
      (fun made _ => made.2 ≤ rows ∧
        ∀ mask ∈ made.1, rows ≠ 0 ∧ mask.length = Bitmask.allocationSize rows)
      fun _ => True := by
  unfold maskOf
  cases validity with
  | none => exact Triple.pure fun _ _ => ⟨Nat.zero_le _, by simp⟩
  | some valid =>
      simp only
      split_ifs with different _ empty
      · exact Triple.stop fun _ _ => trivial
      · exact Triple.stop fun _ _ => trivial
      · exact Triple.pure fun _ _ => ⟨Nat.zero_le _, by simp⟩
      · refine Triple.bindOnly (Buffer.ofBytes_length _ _).mapFault fun mask length => ?_
        refine Triple.pure fun _ _ => ⟨?_, ?_⟩
        · rw [← not_not.mp different]
          exact List.count_le_length
        · rintro _ ⟨⟩
          exact ⟨empty, by rw [length, Bitmask.resize_pack, Bitmask.length_packInto]⟩

theorem ofValues_flat (type : ColumnType) (host : HostType) (values : List Int)
    (validity : Option (List Bool)) (resource : Resource) :
    Triple (fun _ => True) (ofValues type host values validity resource)
      (fun column _ => column.Flat) fun _ => True := by
  unfold ofValues
  split_ifs with different
  · exact Triple.stop fun _ _ => trivial
  · have wide : type.logical.width? = some host.width := not_not.mp different
    refine Triple.bindOnly (maskOf_fits validity values.length resource) fun made fits => ?_
    obtain ⟨mask, nulls⟩ := made
    refine Triple.bindOnly ((Buffer.ofBytes_length _ _).mapFault.undoOnFailure
      fun _ _ => trivial) fun data length => ?_
    refine Triple.pure fun _ _ => ⟨.inr (by simp [wide]), rfl, ?_, fits.2, fits.1, fun untyped => ?_⟩
    · simp [wide, length, HostType.encode, Bytes.ofInt]
    · rw [show type.logical = .empty from untyped] at wide
      cases wide

theorem Built.flat {column : Column} (built : column.Built) : column.Flat := by
  cases built with
  | values made => exact (ofValues_flat _ _ _ _ _).ok trivial made
  | booleans made => exact (ofValues_flat _ _ _ _ _).ok trivial made
  | nulls rows =>
      exact ⟨.inl rfl, rfl, by simp [ofNulls, LogicalType.width?], by simp [ofNulls], Nat.le_refl _,
        fun _ => ⟨rfl, rfl⟩⟩

end Column

namespace Table

variable {table : Table} {device : Device} {columns : List Column} {machine after : Machine}

theorem ofColumns_ok (accepted : ofColumns device columns machine = (.ok table, after)) :
    table = ⟨device, columns⟩ ∧ unevenColumn? columns = none := by
  unfold ofColumns at accepted
  cases uneven : unevenColumn? columns with
  | some error => simp [uneven] at accepted
  | none =>
      rw [uneven] at accepted
      cases accepted
      exact ⟨rfl, rfl⟩

def Even (table : Table) : Prop := ∀ column ∈ table.columns, column.rows = table.rows

theorem ofColumns_even (accepted : ofColumns device columns machine = (.ok table, after)) :
    table.Even := by
  obtain ⟨rfl, even⟩ := ofColumns_ok accepted
  cases columns with
  | nil => exact fun _ member => absurd member List.not_mem_nil
  | cons first rest =>
      simp only [unevenColumn?, Option.map_eq_none_iff, List.find?_eq_none,
        decide_eq_true_eq] at even
      intro column member
      obtain ⟨index, found⟩ := List.mem_iff_getElem?.mp member
      exact Decidable.not_not.mp (even (column, index) (List.mem_zipIdx_iff_getElem?.mpr found))

theorem Built.flat (built : table.Built) : ∀ column ∈ table.columns, column.Flat := by
  obtain ⟨each, accepted⟩ := built
  obtain ⟨rfl, -⟩ := ofColumns_ok accepted
  exact fun column member => (each column member).flat

theorem Built.even (built : table.Built) : table.Even := by
  obtain ⟨-, accepted⟩ := built
  exact ofColumns_even accepted

end Table

end DeviceColumns
