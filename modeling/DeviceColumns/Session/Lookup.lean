import DeviceColumns.Session.Answer
import DeviceColumns.Session.Request

/-!
Computations on a session: finding objects by name, taking them away, naming new ones, and following
pointers. A request that takes objects takes them even when it fails: they have been dropped by
then, by whoever they were handed to or because the request names something that is not there.
-/

namespace DeviceColumns

set_option autoImplicit false

abbrev SessionAction (Value : Type) : Type := Action Session Failure Value

namespace SessionAction

variable {Value : Type}

def onMachine {Fault : Type} (wrap : Fault → Failure) (act : Action Machine Fault Value) :
    SessionAction Value := fun session =>
  match act session.machine with
  | (.ok value, machine) => (.ok value, { session with machine := machine })
  | (.error fault, machine) => (.error (wrap fault), { session with machine := machine })

def memory (act : MemoryAction Value) : SessionAction Value := onMachine Failure.memory act

def columns (act : ColumnAction Value) : SessionAction Value := onMachine Failure.columns act

def malformed (why : Malformed) : SessionAction Value := Action.fail (.malformed why)

def heap : SessionAction Heap := fun session => (.ok session.machine.heap, session)

def find (name : String) : SessionAction Object := fun session =>
  match session.find? name with
  | some object => (.ok object, session)
  | none => (.error (.malformed (.noObject name)), session)

def take (name : String) : SessionAction Object := do
  let object ← find name
  Action.modify (·.forget name)
  return object

def takeAs (select : Object → Option Value) (name : String) : SessionAction Value := do
  let object ← find name
  match select object with
  | some value => do
      Action.modify (·.forget name)
      return value
  | none => malformed (.wrongObject name)

/-- If `act` fails, drop what was taken for it. -/
def droppingOnFailure (taken : Object) (act : SessionAction Value) : SessionAction Value :=
  act.undoOnFailure fun session => { session with machine := taken.drop session.machine }

def findAs (select : Object → Option Value) (name : String) : SessionAction Value := do
  let object ← find name
  match select object with
  | some value => return value
  | none => malformed (.wrongObject name)

def bind (name : String) (object : Object) : SessionAction Unit :=
  Action.modify (·.bind name object)

end SessionAction

namespace Object

def column? : Object → Option Column
  | .column found => some found
  | _ => none

def buffer? : Object → Option Buffer
  | .buffer found => some found
  | _ => none

def table? : Object → Option Table
  | .table found => some found
  | _ => none

def engine? : Object → Option Engine
  | .engine found => some found
  | _ => none

def message? : Object → Option Bytes
  | .message found => some found
  | _ => none

def shared? : Object → Option SharedTable
  | .shared found => some found
  | _ => none

def resource? : Object → Option Resource
  | .resource found => some found
  | .engine found => some found.resource
  | _ => none

def columns? : Object → Option (List Column)
  | .column found => some [found]
  | .table found => some found.columns
  | _ => none

def view? : Object → Option TableView
  | .column found => some ⟨.host, [found.view]⟩
  | .table found => some found.view
  | .view found => some found
  | .shared found => some found.view
  | _ => none

def address? : Object → Option Nat
  | .block address => some address
  | .buffer found => some found.pointer
  | .mapping found => some found.base
  | _ => none

def array? : Object → Option ArrayNode
  | .array node => some node
  | .deviceArray exported => some exported.array
  | _ => none

def withArray (node : ArrayNode) : Object → Object
  | .deviceArray exported => .deviceArray { exported with array := node }
  | _ => .array node

def text? (machine : Machine) : Object → Option String
  | .resource found => some (found.text machine)
  | .buffer found => some found.text
  | .mapping found => some found.text
  | .column found => some found.text
  | .shared found => some (Text.bracketed (SharedColumn.textAll found.owners))
  | _ => none

def shownArray? (heap : Heap) : Object → Option Answer
  | .array node => some (.array (ShownArray.ofNode heap node))
  | .deviceArray exported =>
      some (.deviceArray (ShownArray.ofNode heap exported.array) exported.device)
  | _ => none

end Object

/-- The view at a path: first the number of a column, then of a child, and so on. -/
def View.atPath? (views : List View) : List Nat → Option View
  | [] => none
  | index :: rest =>
      match views[index]? with
      | none => none
      | some view => if rest.isEmpty then some view else View.atPath? view.children rest

namespace SessionAction

/-- Addresses are 64-bit words, so offsets wrap around. -/
def resolve (pointer : Pointer) : SessionAction Nat :=
  match pointer with
  | .absolute address => return address
  | .relative object offset => do
      let start ← findAs Object.address? object
      return (((start : Int) + offset) % (2 ^ 64 : Nat)).toNat

/-- An absent pointer, and one that leads to address zero, stand for an absent buffer. -/
def resolve? (pointer : Option Pointer) : SessionAction (Option Nat) :=
  match pointer with
  | none => return none
  | some given => do
      let address ← resolve given
      return if address = 0 then none else some address

mutual

def resolveView : ViewSpec → SessionAction View
  | ⟨type, rows, data, mask, nullCount, children⟩ => do
      let dataAddress ← resolve? data
      let maskAddress ← resolve? mask
      let views ← resolveViews children
      return ⟨type, rows, dataAddress, maskAddress, nullCount, views⟩

def resolveViews : List ViewSpec → SessionAction (List View)
  | [] => return []
  | spec :: rest => do
      let view ← resolveView spec
      let views ← resolveViews rest
      return view :: views

end

def resourceOf (via : String) : SessionAction Resource := findAs Object.resource? via

def ledgerOf (subject : String) : SessionAction (Option Ledger) := do
  let resource ← findAs Object.resource? subject
  let session ← Action.get
  return resource.ledger? session.machine

end SessionAction

end DeviceColumns
