import DeviceColumns.Arrow.Conversion
import DeviceColumns.Proofs.Kernel.Packing
import DeviceColumns.Proofs.Sharing.Layout

/-!
What columns and arrays say, row by row. A column is understood through its type and an array through
the type of its field; each of the two kinds of types tells how rows are laid out in a data buffer.
An exported column says the same under the type of its field as it did under its own.
-/

namespace DeviceColumns

set_option autoImplicit false

/-- What the bytes of a value stand for. -/
inductive ValueKind where
  | signed
  | unsigned
  | float
  | date
  | instant (unit : TimeUnit) (zone : Option String)
  | duration (unit : TimeUnit)
  deriving DecidableEq

/-- What one row says. A decimal is `unscaled * 10 ^ exponent`. -/
inductive Cell where
  | nothing
  | truth (flag : Bool)
  | decimal (unscaled exponent : Int)
  | value (kind : ValueKind) (bytes : Bytes)
  deriving DecidableEq

/-- How the rows of a data buffer are laid out: not at all, one bit for each, lowest first, one byte
for each, which is zero for false, or values of some width. -/
inductive Encoding where
  | absent
  | bits
  | flags
  | decimals (width : Nat) (exponent : Int)
  | values (kind : ValueKind) (width : Nat)
  deriving DecidableEq

namespace Encoding

/-- The number of bytes that rows take up. -/
def size (encoding : Encoding) (rows : Nat) : Nat :=
  match encoding with
  | absent => 0
  | bits => Bitmask.pieces rows 8
  | flags => rows
  | decimals width _ => rows * width
  | values _ width => rows * width

def cells (encoding : Encoding) (rows : Nat) (bytes : Bytes) : List Cell :=
  match encoding with
  | absent => List.replicate rows .nothing
  | bits => ((Bitmask.unpack bytes).take rows).map .truth
  | flags => bytes.map fun byte => .truth (byte != 0)
  | decimals width exponent =>
      (Bytes.slices width bytes).map fun value => .decimal (Bytes.toInt value) exponent
  | values kind width => (Bytes.slices width bytes).map (.value kind)

/-- How many slots an array has for its rows: none, or one for a mask and one for the data. -/
def slotCount : Encoding → Nat
  | absent => 0
  | _ => 2

/-- Copy out the bytes that the rows take up, and no more, and tell what they say. -/
def read (encoding : Encoding) (rows : Nat) (address : Option Nat) (heap : Heap) :
    Except DeviceError (List Cell) :=
  (heap.read (address.getD 0) (encoding.size rows)).map (encoding.cells rows)

end Encoding

def ColumnType.encoding? (type : ColumnType) : Option Encoding :=
  match type.logical with
  | .empty => some .absent
  | .bool8 => some .flags
  | .int8 => some (.values .signed 1)
  | .int16 => some (.values .signed 2)
  | .int32 => some (.values .signed 4)
  | .int64 => some (.values .signed 8)
  | .uint8 => some (.values .unsigned 1)
  | .uint16 => some (.values .unsigned 2)
  | .uint32 => some (.values .unsigned 4)
  | .uint64 => some (.values .unsigned 8)
  | .float32 => some (.values .float 4)
  | .float64 => some (.values .float 8)
  | .timestampDays => some (.values .date 4)
  | .timestampSeconds => some (.values (.instant .second none) 8)
  | .timestampMilliseconds => some (.values (.instant .millisecond none) 8)
  | .timestampMicroseconds => some (.values (.instant .microsecond none) 8)
  | .timestampNanoseconds => some (.values (.instant .nanosecond none) 8)
  | .durationSeconds => some (.values (.duration .second) 8)
  | .durationMilliseconds => some (.values (.duration .millisecond) 8)
  | .durationMicroseconds => some (.values (.duration .microsecond) 8)
  | .durationNanoseconds => some (.values (.duration .nanosecond) 8)
  | .decimal32 => some (.decimals 4 type.scale)
  | .decimal64 => some (.decimals 8 type.scale)
  | .decimal128 => some (.decimals 16 type.scale)
  | .durationDays | .string | .list | .dictionary32 | .struct => none

/-- Decimals with 128 bits take up sixteen bytes and have a scale that counts fractional digits. -/
def ArrowType.encoding? : ArrowType → Option Encoding
  | .null => some .absent
  | .boolean => some .bits
  | .int8 => some (.values .signed 1)
  | .int16 => some (.values .signed 2)
  | .int32 => some (.values .signed 4)
  | .int64 => some (.values .signed 8)
  | .uint8 => some (.values .unsigned 1)
  | .uint16 => some (.values .unsigned 2)
  | .uint32 => some (.values .unsigned 4)
  | .uint64 => some (.values .unsigned 8)
  | .float16 => some (.values .float 2)
  | .float32 => some (.values .float 4)
  | .float64 => some (.values .float 8)
  | .date32 => some (.values .date 4)
  | .timestamp unit zone => some (.values (.instant unit zone) 8)
  | .duration unit => some (.values (.duration unit) 8)
  | .decimal128 _ scale => some (.decimals 16 (-scale.toInt))
  | _ => none

/-- What a conversion makes of the bytes of a column with some number of rows. -/
def ColumnType.converted (type : ColumnType) (rows : Nat) (bytes : Bytes) : Bytes :=
  match type.logical with
  | .decimal32 => NarrowDecimal.bits32.widen bytes
  | .decimal64 => NarrowDecimal.bits64.widen bytes
  | .bool8 => Bitmask.packInto (Bitmask.allocationSize rows) (bytes.map (· != 0))
  | _ => bytes

/-- What fills a slot; nothing fills a slot that the node does not have. -/
def ArrayNode.part (node : ArrayNode) (index : Nat) : Option Buffer := (node.slots[index]?).join

theorem ArrayNode.part_mem {node : ArrayNode} {index : Nat} {buffer : Buffer}
    (here : node.part index = some buffer) : buffer ∈ node.buffers := by
  cases node with
  | released => simp [part, slots] at here
  | held length nullCount slots children event =>
      obtain ⟨slot, found, rfl⟩ : ∃ slot, slots[index]? = some slot ∧ slot = some buffer := by
        simpa [part, ArrayNode.slots, Option.join_eq_some_iff] using here
      rw [buffers]
      refine List.mem_append_right _ (List.mem_filterMap.mpr ⟨_, ?_, rfl⟩)
      exact List.mem_of_getElem? found

/-- What the rows of a column say under its own type. -/
def Column.cells? (column : Column) (heap : Heap) : Option (List Cell) :=
  column.type.encoding?.bind fun encoding =>
    (encoding.read column.rows (column.data.bind Buffer.address) heap).toOption

/-- What the rows of an array say under the type of its field. -/
def ArrayNode.cells? (node : ArrayNode) (arrow : ArrowType) (heap : Heap) : Option (List Cell) :=
  arrow.encoding?.bind fun encoding =>
    (encoding.read node.length.toNat ((node.part 1).bind Buffer.address) heap).toOption

/-- Which rows of an array are valid; without a mask, all of them are. -/
def ArrayNode.validity (node : ArrayNode) (heap : Heap) : Except DeviceError (Option (List Bool)) :=
  match node.part 0 with
  | none => .ok none
  | some mask =>
      (heap.read mask.pointer (Bitmask.pieces node.length.toNat 8)).map fun bytes =>
        some ((Bitmask.unpack bytes).take node.length.toNat)

namespace ColumnType

variable {type : ColumnType} {own : Encoding} {rows : Nat} {bytes : Bytes}

theorem encoding?_size (known : type.encoding? = some own) (rows : Nat) :
    own.size rows = rows * type.logical.width?.getD 0 := by
  obtain ⟨logical, scale⟩ := type
  cases logical <;> cases known <;> simp [Encoding.size, LogicalType.width?]

theorem encoding?_known {arrow : ArrowType}
    (kind : type.logical = .empty ∨ type.logical.width?.isSome)
    (mapped : type.toArrow = .ok arrow) : ∃ own, type.encoding? = some own := by
  obtain ⟨logical, scale⟩ := type
  cases logical
  case durationDays | list | struct | dictionary32 => cases mapped
  case string => simp [LogicalType.width?] at kind
  all_goals exact ⟨_, rfl⟩

theorem length_cells (known : type.encoding? = some own) (sized : bytes.length = own.size rows) :
    (own.cells rows bytes).length = rows := by
  obtain ⟨logical, scale⟩ := type
  cases logical <;> cases known <;>
    simp_all [Encoding.size, Encoding.cells, Bytes.length_slices]

theorem decimal_encoding {precision : UInt8} {arrow : ArrowType}
    (mapped : type.arrowScale.map (.decimal128 precision) = .ok arrow) :
    arrow.encoding? = some (.decimals 16 type.scale) := by
  cases fits : type.arrowScale with
  | error fault => simp [fits, Except.map] at mapped
  | ok digits =>
      rw [fits] at mapped
      cases mapped
      rw [ArrowType.encoding?, arrowScale_ok fits]

theorem toArrow_null (mapped : type.toArrow = .ok .null) : type.logical = .empty := by
  obtain ⟨logical, scale⟩ := type
  cases logical
  case empty => rfl
  case decimal32 | decimal64 | decimal128 =>
    have decimal := decimal_encoding mapped
    cases decimal
  all_goals cases mapped

theorem slotCount_eq {arrow : ArrowType} {theirs : Encoding} (mapped : type.toArrow = .ok arrow)
    (understood : arrow.encoding? = some theirs) :
    theirs.slotCount = if type.logical = .empty then 0 else 2 := by
  obtain ⟨logical, scale⟩ := type
  cases logical
  case decimal32 | decimal64 | decimal128 =>
    rw [decimal_encoding mapped] at understood
    cases understood
    rfl
  all_goals cases mapped <;> cases understood <;> rfl

theorem cells_widened (decimal : NarrowDecimal) (exponent : Int)
    (sized : bytes.length = rows * decimal.width) :
    (Encoding.decimals 16 exponent).size rows ≤ (decimal.widen bytes).length ∧
      (Encoding.decimals 16 exponent).cells rows
          ((decimal.widen bytes).take ((Encoding.decimals 16 exponent).size rows)) =
        (Encoding.decimals decimal.width exponent).cells rows bytes := by
  have size : (Encoding.decimals 16 exponent).size rows = (decimal.widen bytes).length := by
    rw [decimal.length_widen, sized, Nat.mul_div_cancel _ decimal.width_pos]
    rfl
  have numbers := congrArg (List.map fun number => Cell.decimal number exponent)
    (decimal.toInt_widen bytes)
  rw [List.map_map, List.map_map] at numbers
  refine ⟨Nat.le_of_eq size, ?_⟩
  rw [size, List.take_length]
  exact numbers

theorem cells_packed (bytes : Bytes) (sized : bytes.length = rows) :
    Encoding.bits.size rows ≤ (Bitmask.packInto (Bitmask.allocationSize rows)
        (bytes.map (· != 0))).length ∧
      Encoding.bits.cells rows ((Bitmask.packInto (Bitmask.allocationSize rows)
        (bytes.map (· != 0))).take (Encoding.bits.size rows)) =
        Encoding.flags.cells rows bytes := by
  have room : Encoding.bits.size rows ≤ Bitmask.allocationSize rows :=
    Bitmask.pieces_le_allocationSize rows
  refine ⟨by rwa [Bitmask.length_packInto], ?_⟩
  have enough : (bytes.map (· != 0)).length ≤ 8 * Encoding.bits.size rows := by
    simp only [List.length_map, sized, Encoding.size, Bitmask.pieces]
    omega
  have same := Bitmask.take_unpack_packInto enough
  rw [List.length_map, sized] at same
  rw [Bitmask.take_packInto room, Encoding.cells, same, List.map_map]
  rfl

/-- Under the type of its field, the converted data of a column says what it said before. -/
theorem cells_converted {arrow : ArrowType} (known : type.encoding? = some own)
    (mapped : type.toArrow = .ok arrow) :
    ∃ theirs, arrow.encoding? = some theirs ∧
      ∀ rows bytes, bytes.length = own.size rows →
        theirs.size rows ≤ (type.converted rows bytes).length ∧
        theirs.cells rows ((type.converted rows bytes).take (theirs.size rows)) =
          own.cells rows bytes := by
  obtain ⟨logical, scale⟩ := type
  cases logical
  case decimal32 =>
    cases known
    exact ⟨_, decimal_encoding mapped, fun rows bytes sized => cells_widened .bits32 scale sized⟩
  case decimal64 =>
    cases known
    exact ⟨_, decimal_encoding mapped, fun rows bytes sized => cells_widened .bits64 scale sized⟩
  case decimal128 =>
    cases known
    refine ⟨_, decimal_encoding mapped, fun rows bytes sized => ⟨Nat.le_of_eq sized.symm, ?_⟩⟩
    rw [← sized, converted, List.take_length]
  case bool8 =>
    cases known
    cases mapped
    exact ⟨_, rfl, fun rows bytes sized => cells_packed bytes sized⟩
  all_goals first
    | contradiction
    | cases known
      cases mapped
      refine ⟨_, rfl, fun rows bytes sized => ⟨Nat.le_of_eq sized.symm, ?_⟩⟩
      rw [← sized, converted, List.take_length]

end ColumnType

end DeviceColumns
