import DeviceColumns.Memory.Buffer

/-!
Bitmasks: one bit per value, the lowest bit of the first byte first, in whole 32-bit words. In
device memory a mask is padded to a multiple of 64 bytes; every bit past the last value is clear.
-/

namespace DeviceColumns.Bitmask

set_option autoImplicit false

/-- Masks in device memory are multiples of this many bytes. -/
def padding : Nat := 64

def bitsPerWord : Nat := 32

/-- `count / size`, rounded up. -/
def pieces (count size : Nat) : Nat := (count + (size - 1)) / size

def wordBytes (count : Nat) : Nat := 4 * pieces count bitsPerWord

def allocationSize (count : Nat) : Nat := pieces (wordBytes count) padding * padding

/-- The words with one that can take the bit at `index`: each 32 bits a clear word is begun. -/
def beginWord (words : Array UInt32) (index : Nat) : Array UInt32 :=
  if index % bitsPerWord = 0 then words.push 0 else words

/-- The words with the bit at `index` behind those of before. It goes into the last word. -/
def pushBit (words : Array UInt32) (bit : Bool) (index : Nat) : Array UInt32 :=
  let begun := beginWord words index
  if bit then
    begun.modify (begun.size - 1) fun word => word ||| 1 <<< UInt32.ofNat (index % bitsPerWord)
  else begun

def packWords (bits : List Bool) : Array UInt32 :=
  bits.zipIdx.foldl (fun words entry => pushBit words entry.1 entry.2) #[]

/-- The mask of `bits` in whole words, each with its lowest byte first. -/
def pack (bits : List Bool) : Bytes :=
  (packWords bits).toList.flatMap fun word => Bytes.ofNat 4 word.toNat

/-- The mask cut off at `size` bytes, or continued with clear ones up to there. -/
def resize (size : Nat) (mask : Bytes) : Bytes :=
  mask.take size ++ List.replicate (size - mask.length) 0

def bitsOf (byte : UInt8) : List Bool :=
  (List.range 8).map fun index => byte.toNat.testBit index

def unpack (mask : Bytes) : List Bool :=
  mask.flatMap bitsOf

def isSet? (mask : Bytes) (index : Nat) : Option Bool :=
  (mask[index / 8]?).map fun byte => byte.toNat.testBit (index % 8)

/-- A padded mask of the `count` one-byte booleans at `source`, in which any nonzero byte counts as
true. -/
def ofBooleans (source count : Nat) (resource : Resource) : MemoryAction Buffer := do
  let size := allocationSize count
  let packed ← Buffer.allocate size resource
  if size = 0 then return packed
  let booleans ← (Machine.read source count).undoOnFailure packed.free
  packed.fill (resize size (pack (booleans.map (· != 0))))
  return packed

end DeviceColumns.Bitmask
