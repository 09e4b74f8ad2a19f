import DeviceColumns.Arrow.CSchema
import DeviceColumns.Session.Object

/-!
What a session answers. Views and arrays are shown together with the bytes behind their addresses,
so an answer tells what a reader of the memory would see at that moment.
-/

namespace DeviceColumns

set_option autoImplicit false

inductive Reading (Fault Value : Type) where
  | absent
  | found (value : Value)
  | failed (fault : Fault)
  /-- More than an answer shows. -/
  | tooLarge

/-- Answers show no more than this many bytes of one buffer, or rows of one mask. -/
def shownLimit : Nat := 2 ^ 20

structure ShownView where
  view : View
  bytes : Reading DeviceError Bytes
  validity : Reading Error (List Bool)
  children : List ShownView

namespace ShownView

/-- The data bytes of a view: those of its rows, or all to the end of the block for types without a
width. -/
def readBytes (heap : Heap) (view : View) : Reading DeviceError Bytes :=
  match view.data with
  | none => .absent
  | some address =>
      let length : Except DeviceError Nat :=
        match view.dataBytes? with
        | some bytes => .ok bytes
        | none => (heap.addressRange address).map fun range => range.1 + range.2 - address
      match length with
      | .error fault => .failed fault
      | .ok bytes =>
          if shownLimit < bytes then .tooLarge
          else
            match heap.read address bytes with
            | .ok found => .found found
            | .error fault => .failed fault

def readValidity (heap : Heap) (view : View) : Reading Error (List Bool) :=
  if view.mask.isSome ∧ shownLimit < view.rows then .tooLarge
  else
    match view.validity heap with
    | .ok none => .absent
    | .ok (some bits) => .found bits
    | .error fault => .failed fault

mutual

def ofView (heap : Heap) : View → ShownView
  | ⟨type, rows, data, mask, nullCount, children⟩ =>
      let view : View := ⟨type, rows, data, mask, nullCount, children⟩
      ⟨view, readBytes heap view, readValidity heap view, ofViews heap children⟩

def ofViews (heap : Heap) : List View → List ShownView
  | [] => []
  | view :: rest => ofView heap view :: ofViews heap rest

end

end ShownView

structure ShownTable where
  rows : Nat
  device : Device
  columns : List ShownView

def ShownTable.ofView (heap : Heap) (table : TableView) : ShownTable :=
  ⟨table.rows, table.device, ShownView.ofViews heap table.columns⟩

structure ShownSlot where
  address : Nat
  bytes : Bytes

structure ShownArray where
  node : ArrayNode
  slots : List (Option ShownSlot)
  children : List ShownArray

namespace ShownArray

/-- A buffer as its slot is shown. If its block was freed over its head, it has no bytes left. -/
def slotOf (heap : Heap) (buffer : Buffer) : ShownSlot :=
  match heap.blockFrom? buffer.pointer with
  | some block => ⟨buffer.pointer, block.bytes.toList⟩
  | none => ⟨buffer.pointer, []⟩

mutual

def ofNode (heap : Heap) : ArrayNode → ShownArray
  | .released length nullCount slotCount childCount =>
      ⟨.released length nullCount slotCount childCount, [], []⟩
  | .held length nullCount slots children event =>
      ⟨.held length nullCount slots children event, slots.map (·.map (slotOf heap)),
        ofNodes heap children⟩

def ofNodes (heap : Heap) : List ArrayNode → List ShownArray
  | [] => []
  | node :: rest => ofNode heap node :: ofNodes heap rest

end

end ShownArray

structure Contents where
  type : LogicalType
  rows : Nat
  nullCount : Nat
  nullable : Bool
  dataLength : Option Nat
  maskLength : Option Nat
  childCount : Nat

def Contents.ofColumn (column : Column) : Contents where
  type := column.type.logical
  rows := column.rows
  nullCount := column.nullCount
  nullable := column.isNullable
  dataLength := column.data.map Buffer.length
  maskLength := column.mask.map Buffer.length
  childCount := column.children.length

structure AddressInfo where
  kind : MemoryKind
  range : Except DeviceError (Nat × Nat)
  isBase : Bool
  mappings : Nat

inductive Answer where
  | done
  | flag (value : Bool)
  | count (value : Nat)
  | address (value : Nat)
  | bytes (value : Bytes)
  | text (value : String)
  | stats (ledger : Option Ledger)
  | engine (engine : Engine) (ledger : Option Ledger)
  | buffer (buffer : Buffer)
  | address? (info : AddressInfo)
  | handle (place : HandleAt)
  | mapping (base count : Nat)
  | event (number : Nat)
  | contents (contents : Contents)
  | contentsOfAll (contents : List Contents)
  | parts (left : Contents) (data mask : Option Nat) (children : Nat)
  | table (rows columns : Nat)
  | shown (table : ShownTable)
  | values (host : HostType) (values : List Int)
  | validity (bits : Option (List Bool))
  | field (field : Field)
  | fields (fields : List Field)
  | schema (node : CSchema)
  | array (array : ShownArray)
  | deviceArray (array : ShownArray) (device : Device)
  | callback (had released : Bool)
  | message (bytes : Bytes)
  | shared (view : ShownTable) (owners : List SharedColumn)

inductive Malformed where
  | noObject (name : String)
  | wrongObject (name : String)
  | noPart (name : String)

def Malformed.message : Malformed → String
  | noObject name => "no object " ++ name
  | wrongObject name => "wrong kind of object " ++ name
  | noPart name => "no such part of " ++ name

inductive Failure where
  | memory (cause : DeviceError)
  | columns (cause : Error)
  | unanswerable (why : Unanswerable)
  | malformed (why : Malformed)

/-- All that is reported about one request: its outcome, the live blocks and bytes after it, and
what was logged on the way. -/
structure Report where
  outcome : Except Failure Answer
  liveCount : Nat
  liveBytes : Nat
  warnings : List Warning

end DeviceColumns
