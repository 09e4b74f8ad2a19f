import DeviceColumns.Column.Basic

/-!
Columns from host values. Every constructor checks what it is given before it allocates, takes the
mask from the given validity, and gives back what it has allocated or was handed when it fails.
-/

namespace DeviceColumns.Column

set_option autoImplicit false

/-- The mask of a validity and the number of its invalid rows. Without validity, or without rows,
there is no mask. -/
def maskOf (validity : Option (List Bool)) (rows : Nat) (resource : Resource) :
    ColumnAction (Option Buffer × Nat) :=
  match validity with
  | none => return (none, 0)
  | some valid => do
      if valid.length ≠ rows then Action.fail (.validityLength valid.length rows)
      if rows = 0 then return (none, 0)
      let mask ← MemoryAction.onColumns
        (Buffer.ofBytes (Bitmask.resize (Bitmask.allocationSize rows) (Bitmask.pack valid)) resource)
      return (some mask, valid.count false)

def freeMask (mask : Option Buffer) : Machine → Machine :=
  Buffer.freeAll mask.toList

/-- A column of fixed-width values. The host type must be as wide as the column's type. -/
def ofValues (type : ColumnType) (host : HostType) (values : List Int)
    (validity : Option (List Bool)) (resource : Resource) : ColumnAction Column := do
  if type.logical.width? ≠ some host.width then
    Action.fail (.hostWidth host.width type.logical)
  let (mask, nullCount) ← maskOf validity values.length resource
  let data ← (MemoryAction.onColumns
    (Buffer.ofBytes (values.flatMap host.encode) resource)).undoOnFailure (freeMask mask)
  return ⟨type, values.length, some data, mask, nullCount, []⟩

def ofBools (values : List Bool) (validity : Option (List Bool)) (resource : Resource) :
    ColumnAction Column :=
  ofValues ⟨.bool8, 0⟩ .u8 (values.map fun value => Int.ofNat value.toNat) validity resource

def ofNulls (rows : Nat) : Column :=
  ⟨⟨.empty, 0⟩, rows, none, none, rows, []⟩

def stringBytes (value : Option String) : Bytes :=
  ((value.getD "").toUTF8).data.toList

def stringOffsets (start : Nat) : List (Option String) → List Nat
  | [] => [start]
  | value :: rest => start :: stringOffsets (start + (stringBytes value).length) rest

/-- Offsets are signed 32-bit numbers, so the characters must stay below this many bytes. -/
def maxCharacters : Nat := 2 ^ 31

/-- A column of strings. It has a mask exactly if some string is missing. -/
def ofStrings (values : List (Option String)) (resource : Resource) : ColumnAction Column := do
  let characters := values.flatMap stringBytes
  if maxCharacters ≤ characters.length then Action.fail .stringsTooLong
  let validity :=
    if values.any Option.isNone then some (values.map Option.isSome) else none
  let offsets ← ofValues ⟨.int32, 0⟩ .i32 ((stringOffsets 0 values).map Int.ofNat) none resource
  let (mask, nullCount) ←
    (maskOf validity values.length resource).undoOnFailure offsets.free
  let data ← (MemoryAction.onColumns (Buffer.ofBytes characters resource)).undoOnFailure
    fun machine => offsets.free (freeMask mask machine)
  return ⟨⟨.string, 0⟩, values.length, some data, mask, nullCount, [offsets]⟩

/-- The number of elements that a last offset stands for. Offsets are counted in 64-bit words, in
which a negative one is huge. -/
def elementCount (last : Int) : Nat := (last % (2 ^ 64 : Nat)).toNat

/-- A column of lists over the rows of `element`. Row `i` reaches from offset `i` to the next one;
the last offset must stand for the number of elements. -/
def ofLists (offsets : List Int) (element : Column) (validity : Option (List Bool))
    (resource : Resource) : ColumnAction Column :=
  Action.undoOnFailure
    (match offsets.getLast? with
      | none => Action.fail .noOffsets
      | some last => do
          if elementCount last ≠ element.rows then Action.fail (.offsetsEnd last element.rows)
          let rows := offsets.length - 1
          let offsetColumn ← ofValues ⟨.int32, 0⟩ .i32 offsets none resource
          let (mask, nullCount) ←
            (maskOf validity rows resource).undoOnFailure offsetColumn.free
          return ⟨⟨.list, 0⟩, rows, none, mask, nullCount, [offsetColumn, element]⟩)
    element.free

def ofFields (rows : Nat) (fields : List Column) (validity : Option (List Bool))
    (resource : Resource) : ColumnAction Column :=
  Action.undoOnFailure
    (do
      match fields.zipIdx.find? fun entry => entry.1.rows ≠ rows with
      | some (field, index) => Action.fail (.structField index field.rows rows)
      | none => pure ()
      let (mask, nullCount) ← maskOf validity rows resource
      return ⟨⟨.struct, 0⟩, rows, none, mask, nullCount, fields⟩)
    (freeAll fields)

/-- A dictionary column: row `i` stands for the key that index `i` selects. -/
def ofDictionary (indices keys : Column) (validity : Option (List Bool)) (resource : Resource) :
    ColumnAction Column :=
  Action.undoOnFailure
    (do
      if indices.type.logical.isInteger = false then
        Action.fail (.dictionaryIndices indices.type.logical)
      let (mask, nullCount) ← maskOf validity indices.rows resource
      return ⟨⟨.dictionary32, 0⟩, indices.rows, none, mask, nullCount, [indices, keys]⟩)
    (fun machine => indices.free (keys.free machine))

end DeviceColumns.Column
