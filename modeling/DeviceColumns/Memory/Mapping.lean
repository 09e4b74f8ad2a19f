import DeviceColumns.Memory.Error

/-!
How often each block is currently mapped through a handle. A base is in the table exactly while it
has open mappings, so no entry counts zero.
-/

namespace DeviceColumns

set_option autoImplicit false

structure MappingTable where
  entries : List (Nat × Nat)

namespace MappingTable

def empty : MappingTable := ⟨[]⟩

def count (table : MappingTable) (base : Nat) : Nat :=
  (table.entries.lookup base).getD 0

def isMapped (table : MappingTable) (base : Nat) : Bool :=
  (table.entries.lookup base).isSome

def remove (table : MappingTable) (base : Nat) : MappingTable :=
  ⟨table.entries.filter fun entry => entry.1 != base⟩

def insert (table : MappingTable) (base : Nat) : MappingTable :=
  ⟨(base, table.count base + 1) :: (table.remove base).entries⟩

/-- One mapping of `base` less, or nothing if there is none to close. -/
def close? (table : MappingTable) (base : Nat) : Option MappingTable :=
  match table.entries.lookup base with
  | none => none
  | some count =>
      if count = 1 then some (table.remove base)
      else some ⟨(base, count - 1) :: (table.remove base).entries⟩

end MappingTable

end DeviceColumns
