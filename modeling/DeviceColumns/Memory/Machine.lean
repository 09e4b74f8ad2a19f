import DeviceColumns.Action
import DeviceColumns.Memory.Heap
import DeviceColumns.Memory.Ledger
import DeviceColumns.Memory.Mapping

/-!
The whole state behind device memory as one value: the heap, the open mappings, the books of all
counting resources, the number of events created, and the warnings logged. A resource is the list of
ledgers that an allocation passes on its way to the device, outermost first; the plain device
resource has none.

One call follows another. Waiting for an event has no effect, so events are only counted.
-/

namespace DeviceColumns

set_option autoImplicit false

/-- Something that went wrong without failing the operation. -/
inductive Warning where
  | unknownFree (address : Nat)
  | freedWhileMapped (address : Nat)
  | freeSizeDiffers (address given recorded : Nat)
  | freeNotOutstanding (address : Nat)
  | closeFailed (base : Nat) (cause : DeviceError)
  deriving DecidableEq

def Warning.message : Warning → String
  | unknownFree address => "host deallocate of unknown pointer " ++ Text.address address
  | freedWhileMapped address =>
      "freeing " ++ Text.address address ++ " while IPC mappings of it are still open"
  | freeSizeDiffers address given recorded =>
      "free of " ++ Text.address address ++ " with size " ++ toString given ++
        " but it was allocated with " ++ toString recorded
  | freeNotOutstanding address => "free of " ++ Text.address address ++ " which is not outstanding"
  | closeFailed base cause =>
      "Failed to close IPC mapping at " ++ Text.address base ++ ": " ++ cause.message

abbrev LedgerId := Nat

/-- Where allocations come from: the ledgers passed on the way, outermost first. -/
structure Resource where
  ledgers : List LedgerId
  deriving DecidableEq

def Resource.device : Resource := ⟨[]⟩

structure Machine where
  heap : Heap
  mappings : MappingTable
  ledgers : List Ledger
  eventCount : Nat
  log : List Warning

abbrev MemoryAction (Value : Type) : Type := Action Machine DeviceError Value

namespace Machine

def start (arena : Arena) : Machine := ⟨.empty arena, .empty, [], 0, []⟩

def initial : Machine := start .small

def warn (machine : Machine) (warning : Warning) : Machine :=
  { machine with log := machine.log ++ [warning] }

/-- The books with a given index; an index never handed out stands for empty books. -/
def ledger (machine : Machine) (id : LedgerId) : Ledger :=
  (machine.ledgers[id]?).getD {}

def updateLedger (machine : Machine) (id : LedgerId) (change : Ledger → Ledger) : Machine :=
  { machine with ledgers := machine.ledgers.modify id change }

def track (machine : Machine) (base : Resource) : Resource × Machine :=
  (⟨machine.ledgers.length :: base.ledgers⟩, { machine with ledgers := machine.ledgers ++ [{}] })

def createEvent (machine : Machine) : Nat × Machine :=
  (machine.eventCount + 1, { machine with eventCount := machine.eventCount + 1 })

/-- Free a block on the device itself. An unknown base and a block that is still mapped are only
worth a warning. -/
def freeBlock (machine : Machine) (base : Nat) : Machine :=
  if machine.heap.isLive base then
    let warned :=
      if machine.mappings.isMapped base then machine.warn (.freedWhileMapped base) else machine
    { warned with heap := warned.heap.free base }
  else machine.warn (.unknownFree base)

/-- Free through the given ledgers. Each forwards the size it has booked, whatever size it is given,
and keeps a free that it has not booked from going further. -/
def freeThrough : List LedgerId → Nat → Nat → Machine → Machine
  | [], address, _, machine => machine.freeBlock address
  | id :: below, address, size, machine =>
      match (machine.ledger id).size? address with
      | some booked =>
          let warned :=
            if booked = size then machine
            else machine.warn (.freeSizeDiffers address size booked)
          freeThrough below address booked (warned.updateLedger id (·.recordFree address))
      | none =>
          (machine.warn (.freeNotOutstanding address)).updateLedger id (·.recordBogusFree)

def bookAllocation (ids : List LedgerId) (address size : Nat) (machine : Machine) : Machine :=
  ids.foldl (fun booked id => booked.updateLedger id (·.recordAllocation address size)) machine

end Machine

namespace Resource

/-- Allocate `size` bytes; only an allocation that the device grants is booked. -/
def allocate (resource : Resource) (size : Nat) : MemoryAction Nat := fun machine =>
  match machine.heap.allocate size with
  | .error cause => (.error cause, machine)
  | .ok (address, heap) =>
      (.ok address,
        Machine.bookAllocation resource.ledgers address size { machine with heap := heap })

def free (resource : Resource) (address size : Nat) (machine : Machine) : Machine :=
  Machine.freeThrough resource.ledgers address size machine

def ledger? (resource : Resource) (machine : Machine) : Option Ledger :=
  resource.ledgers.head?.map machine.ledger

def text (resource : Resource) (machine : Machine) : String :=
  resource.ledgers.foldr
    (fun id below => Text.record "TrackingResource" [
      ("upstream", below), ("stats", (machine.ledger id).text)])
    (Text.record "DeviceMemoryResource" [("device", Device.host.text)])

end Resource

namespace Machine

def read (address length : Nat) : MemoryAction Bytes := fun machine =>
  (machine.heap.read address length, machine)

def write (address : Nat) (bytes : Bytes) : MemoryAction Unit := fun machine =>
  match machine.heap.write address bytes with
  | .error cause => (.error cause, machine)
  | .ok heap => (.ok (), { machine with heap := heap })

end Machine

end DeviceColumns
