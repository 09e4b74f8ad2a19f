import DeviceColumns.Text.Quoted

/-!
The books of a counting resource: which addresses it has handed out and not taken back, with the
size each was asked for, and how many allocations, frees and bogus frees it has seen.
-/

namespace DeviceColumns

set_option autoImplicit false

-- The sum of a list starts from the literal zero, whatever algebra is in sight.
attribute [local instance (high)] Zero.ofOfNat0

/-- Allocation counters with the outstanding addresses and their sizes. -/
structure Ledger where
  outstanding : List (Nat × Nat) := []
  allocations : Nat := 0
  frees : Nat := 0
  bogusFrees : Nat := 0

namespace Ledger

/-- The size under which an outstanding address was handed out. -/
def size? (ledger : Ledger) (address : Nat) : Option Nat :=
  ledger.outstanding.lookup address

def isOutstanding (ledger : Ledger) (address : Nat) : Bool :=
  (ledger.size? address).isSome

/-- The bytes of all outstanding blocks. As the blocks lie side by side in one address space, a word
can count them. -/
def outstandingBytes (ledger : Ledger) : Nat :=
  (ledger.outstanding.map Prod.snd).sum

def recordAllocation (ledger : Ledger) (address size : Nat) : Ledger :=
  { ledger with
    outstanding := (address, size) :: ledger.outstanding.filter fun entry => entry.1 != address
    allocations := ledger.allocations + 1 }

def recordFree (ledger : Ledger) (address : Nat) : Ledger :=
  { ledger with
    outstanding := ledger.outstanding.filter fun entry => entry.1 != address
    frees := ledger.frees + 1 }

def recordBogusFree (ledger : Ledger) : Ledger :=
  { ledger with bogusFrees := ledger.bogusFrees + 1 }

def text (ledger : Ledger) : String :=
  Text.record "AllocationStats" [
    ("allocations", toString ledger.allocations),
    ("deallocations", toString ledger.frees),
    ("invalid_deallocations", toString ledger.bogusFrees),
    ("outstanding", toString ledger.outstanding.length),
    ("outstanding_bytes", toString ledger.outstandingBytes)]

end Ledger

end DeviceColumns
