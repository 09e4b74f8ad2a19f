import DeviceColumns.Arrow.Array
import DeviceColumns.Column.Table
import DeviceColumns.Engine
import DeviceColumns.Share.Import

/-!
A session keeps objects under names, next to the machine that they live on. What an object owns is
given back when the object is dropped; dropping a raw block gives nothing back, as nobody owns it.
-/

namespace DeviceColumns

set_option autoImplicit false

inductive Object where
  | resource (resource : Resource)
  | engine (engine : Engine)
  | block (address : Nat)
  | buffer (buffer : Buffer)
  | mapping (mapping : Mapping)
  | event (number : Nat)
  | column (column : Column)
  | table (table : Table)
  | view (table : TableView)
  | array (node : ArrayNode)
  | deviceArray (exported : DeviceArray)
  | message (bytes : Bytes)
  | shared (table : SharedTable)

namespace Object

def buffers : Object → List Buffer
  | .buffer owned => [owned]
  | .column owned => owned.buffers
  | .table owned => Column.buffersOfAll owned.columns
  | .array node => node.buffers
  | .deviceArray exported => exported.array.buffers
  | _ => []

def mappings : Object → List Mapping
  | .mapping opened => [opened]
  | .shared opened => SharedColumn.mappingsOfAll opened.owners
  | _ => []

def drop (object : Object) (machine : Machine) : Machine :=
  Mapping.closeAll object.mappings (Buffer.freeAll object.buffers machine)

end Object

/-- A machine and the objects that live on it, latest first. -/
structure Session where
  machine : Machine
  objects : List (String × Object)

namespace Session

/-- Name of the counting resource that every session starts with. Requests that name no resource use
it, also as the one that a new resource builds on. -/
def trackedName : String := "mr"

def plainName : String := "plain"

def trackedLedger : LedgerId := 0

def start (arena : Arena) : Session :=
  let (resource, machine) := (Machine.start arena).track .device
  ⟨machine, [(trackedName, .resource resource), (plainName, .resource .device)]⟩

/-- The session that runs begin with. -/
def initial : Session := start .small

def find? (session : Session) (name : String) : Option Object :=
  session.objects.lookup name

def forget (session : Session) (name : String) : Session :=
  { session with objects := session.objects.filter fun entry => entry.1 != name }

/-- Give an object a name. What had that name before is dropped. -/
def bind (session : Session) (name : String) (object : Object) : Session :=
  let replaced := session.find? name
  let renamed : Session :=
    { session with objects := (name, object) :: (session.forget name).objects }
  match replaced with
  | none => renamed
  | some old => { renamed with machine := old.drop renamed.machine }

def update (session : Session) (name : String) (object : Object) : Session :=
  { session with
    objects := session.objects.map fun entry =>
      if entry.1 = name then (name, object) else entry }

def dropAll (session : Session) : Session :=
  { machine := session.objects.foldl (fun machine entry => entry.2.drop machine) session.machine
    objects := [] }

end Session

end DeviceColumns
