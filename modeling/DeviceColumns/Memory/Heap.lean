import DeviceColumns.Memory.Error

/-!
The registry of live blocks and their bytes. Blocks are laid out one after another in one arena,
each zeroed when it is handed out, with a gap of one alignment unit behind it; an address is never
handed out twice. Copies are refused unless the whole range lies in one live block.

The arena may have any size that can be addressed. Runs use a small one.
-/

namespace DeviceColumns

set_option autoImplicit false

-- The sum of a list starts from the literal zero, whatever algebra is in sight.
attribute [local instance (high)] Zero.ofOfNat0

def alignment : Nat := 64

def arenaStart : Nat := 0x100000000000

/-- The addresses that blocks are handed out from. None of them needs more than 56 bits. -/
structure Arena where
  size : Nat
  addressable : arenaStart + size ≤ 2 ^ 56

namespace Arena

def finish (arena : Arena) : Nat := arenaStart + arena.size

/-- One mebibyte, which is soon used up. -/
def small : Arena := ⟨2 ^ 20, by decide⟩

end Arena

def maxBlockSize : Nat := 2 ^ 63 - alignment

structure Block where
  base : Nat
  bytes : Array UInt8

namespace Block

def size (block : Block) : Nat := block.bytes.size

/-- The address is one of the block's bytes. A block without bytes has none, not even its base. -/
def holds (block : Block) (address : Nat) : Bool :=
  block.base ≤ address && address < block.base + block.size

def read (block : Block) (offset length : Nat) : Bytes :=
  (block.bytes.extract offset (offset + length)).toList

def write (block : Block) (offset : Nat) (bytes : Bytes) : Block :=
  { block with
    bytes := block.bytes.extract 0 offset ++ bytes.toArray ++
      block.bytes.extract (offset + bytes.length) block.bytes.size }

end Block

/-- The live blocks, latest first, and the base of the next one. -/
structure Heap where
  blocks : List Block
  next : Nat
  arena : Arena

namespace Heap

def empty (arena : Arena) : Heap := ⟨[], arenaStart, arena⟩

/-- The first base that leaves a gap behind a block of `size` bytes at `base`. -/
def frontierAfter (arena : Arena) (base size : Nat) : Nat :=
  min arena.finish (((base + max size 1 + (alignment - 1)) / alignment) * alignment + alignment)

/-- Hand out a zeroed block of `size` bytes. Even an empty block takes up one byte of the arena. -/
def allocate (heap : Heap) (size : Nat) : Except DeviceError (Nat × Heap) :=
  if maxBlockSize < size then .error (.oversized size)
  else if heap.arena.finish - heap.next < max size 1 then .error (.exhausted size)
  else
    .ok (heap.next,
      { heap with
        blocks := ⟨heap.next, Array.replicate size 0⟩ :: heap.blocks
        next := frontierAfter heap.arena heap.next size })

def blockFrom? (heap : Heap) (base : Nat) : Option Block :=
  heap.blocks.find? fun block => block.base = base

/-- The live block that an address belongs to: the one starting there, else the one holding it. -/
def blockAt? (heap : Heap) (address : Nat) : Option Block :=
  heap.blockFrom? address <|> heap.blocks.find? fun block => block.holds address

def isLive (heap : Heap) (base : Nat) : Bool :=
  (heap.blockFrom? base).isSome

def memoryKind (heap : Heap) (address : Nat) : MemoryKind :=
  if (heap.blockAt? address).isSome then .device else .unregistered

def addressRange (heap : Heap) (address : Nat) : Except DeviceError (Nat × Nat) :=
  match heap.blockAt? address with
  | some block => .ok (block.base, block.size)
  | none => .error (.outsideBlocks address)

def locate (heap : Heap) (address length : Nat) : Except DeviceError Block :=
  match heap.blockAt? address with
  | none => .error (.outsideBlocks address)
  | some block =>
      if address + length ≤ block.base + block.size then .ok block
      else .error (.overrun address length block.base block.size)

/-- Copy `length` bytes out. Reading nothing succeeds at any address. -/
def read (heap : Heap) (address length : Nat) : Except DeviceError Bytes :=
  if length = 0 then .ok []
  else do
    let block ← heap.locate address length
    return block.read (address - block.base) length

/-- Copy `bytes` in. Writing nothing succeeds at any address. -/
def write (heap : Heap) (address : Nat) (bytes : Bytes) : Except DeviceError Heap :=
  if bytes.isEmpty then .ok heap
  else do
    let target ← heap.locate address bytes.length
    return { heap with
      blocks := heap.blocks.map fun block =>
        if block.base = target.base then block.write (address - block.base) bytes else block }

def free (heap : Heap) (base : Nat) : Heap :=
  { heap with blocks := heap.blocks.eraseP fun block => block.base = base }

def totalSize (heap : Heap) : Nat :=
  (heap.blocks.map Block.size).sum

end Heap

end DeviceColumns
