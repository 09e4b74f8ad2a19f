import DeviceColumns.Session.Lookup

/-!
Requests about resources, raw blocks, buffers, handles and events.
-/

namespace DeviceColumns.SessionAction

set_option autoImplicit false

def bindBuffer (name : String) (buffer : Buffer) : SessionAction Answer := do
  bind name (.buffer buffer)
  return .buffer buffer

def newResource (name below : String) : SessionAction Answer := do
  let base ← resourceOf below
  let resource ← fun session =>
    let (resource, machine) := session.machine.track base
    (.ok resource, { session with machine := machine })
  bind name (.resource resource)
  return .done

def newEngine (name : String) (config : EngineConfig) : SessionAction Answer := do
  let engine ← columns (Engine.create config)
  bind name (.engine engine)
  let ledger ← ledgerOf name
  return .engine engine ledger

def stats (subject : String) : SessionAction Answer := do
  return .stats (← ledgerOf subject)

def isOutstanding (subject : String) (pointer : Pointer) : SessionAction Answer := do
  let address ← resolve pointer
  let ledger ← ledgerOf subject
  return .flag ((ledger.map (·.isOutstanding address)).getD false)

/-- Allocate a block that nobody owns. -/
def allocateBlock (name : String) (size : Nat) (via : String) : SessionAction Answer := do
  let resource ← resourceOf via
  let address ← memory (resource.allocate size)
  bind name (.block address)
  return .address address

/-- Free an address through a resource, whoever owns it. -/
def freeBlock (pointer : Pointer) (size : Nat) (via : String) : SessionAction Answer := do
  let resource ← resourceOf via
  let address ← resolve pointer
  memory (Action.modify (resource.free address size))
  return .done

def newBuffer (name : String) (content : BufferContent) (via : String) : SessionAction Answer := do
  let resource ← resourceOf via
  let buffer ← memory
    (match content with
    | .zeroed length => Buffer.allocate length resource
    | .bytes bytes => Buffer.ofBytes bytes resource)
  bindBuffer name buffer

def readBuffer (subject : String) : SessionAction Answer := do
  let buffer ← findAs Object.buffer? subject
  let bytes ← memory (Machine.read buffer.pointer buffer.length)
  return .bytes bytes

def dropObject (subject : String) : SessionAction Answer := do
  let object ← take subject
  memory (Action.modify object.drop)
  return .done

def writeBytes (pointer : Pointer) (bytes : Bytes) : SessionAction Answer := do
  let address ← resolve pointer
  memory (Machine.write address bytes)
  return .done

def readBytes (pointer : Pointer) (length : Nat) : SessionAction Answer := do
  let address ← resolve pointer
  let bytes ← memory (Machine.read address length)
  return .bytes bytes

def query (pointer : Pointer) : SessionAction Answer := do
  let address ← resolve pointer
  let session ← Action.get
  let machine := session.machine
  return .address? {
    kind := machine.heap.memoryKind address
    range := machine.heap.addressRange address
    isBase := machine.heap.isLive address
    mappings := machine.mappings.count address }

def handleOf (pointer : Pointer) : SessionAction Answer := do
  let address ← resolve pointer
  let heap ← heap
  let place ← Action.ofExcept ((heap.handleAt address).mapError Failure.memory)
  return .handle place

def openHandle (name : String) (bytes : Bytes) : SessionAction Answer := do
  let handle ← Action.ofExcept ((Handle.ofBytes? bytes).mapError Failure.memory)
  let mapping ← memory (Mapping.openHandle handle)
  let session ← Action.get
  let count := session.machine.mappings.count mapping.base
  bind name (.mapping mapping)
  return .mapping mapping.base count

def describe (subject : String) : SessionAction Answer := do
  let session ← Action.get
  let text ← findAs (Object.text? session.machine) subject
  return .text text

def newEvent (name : String) : SessionAction Answer := do
  let number ← fun session =>
    let (number, machine) := session.machine.createEvent
    (.ok number, { session with machine := machine })
  bind name (.event number)
  return .event number

def widen (name : String) (decimal : NarrowDecimal) (pointer : Pointer) (count : Nat)
    (via : String) : SessionAction Answer := do
  let resource ← resourceOf via
  let source ← resolve pointer
  let buffer ← memory (decimal.widenAt source count resource)
  bindBuffer name buffer

def pack (name : String) (pointer : Pointer) (count : Nat) (via : String) :
    SessionAction Answer := do
  let resource ← resourceOf via
  let source ← resolve pointer
  let buffer ← memory (Bitmask.ofBooleans source count resource)
  bindBuffer name buffer

end DeviceColumns.SessionAction
