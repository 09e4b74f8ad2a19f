import DeviceColumns.Column.Basic

/-!
Exported arrays. A node holds its buffers and children until it is released; after that only its
counts are left. A consumer may take a child over as a node of its own: in the parent the child then
counts as released, so that each buffer is given back once, by whoever holds it.
-/

namespace DeviceColumns

set_option autoImplicit false

inductive ArrayNode where
  /-- Nothing is held any more; the counts are those from before. -/
  | released (length nullCount : Int) (slotCount childCount : Nat)
  | held (length nullCount : Int) (slots : List (Option Buffer)) (children : List ArrayNode)
      (event : Option Nat)

namespace ArrayNode

/-- Row counts of arrays are signed 64-bit words. -/
def word (count : Nat) : Int := Int.bmod count (2 ^ 64)

def blank : ArrayNode := .released 0 0 0 0

def make (rows nullCount : Nat) (slots : List (Option Buffer)) (children : List ArrayNode)
    (event : Option Nat) : ArrayNode :=
  .held (word rows) (word nullCount) slots children event

def isReleased : ArrayNode → Bool
  | .released .. => true
  | .held .. => false

def length : ArrayNode → Int
  | .released length .. => length
  | .held length .. => length

def nullCount : ArrayNode → Int
  | .released _ nullCount .. => nullCount
  | .held _ nullCount .. => nullCount

def slotCount : ArrayNode → Nat
  | .released _ _ slotCount _ => slotCount
  | .held _ _ slots _ _ => slots.length

def childCount : ArrayNode → Nat
  | .released _ _ _ childCount => childCount
  | .held _ _ _ children _ => children.length

def slots : ArrayNode → List (Option Buffer)
  | .released .. => []
  | .held _ _ slots _ _ => slots

def children : ArrayNode → List ArrayNode
  | .released .. => []
  | .held _ _ _ children _ => children

def event : ArrayNode → Option Nat
  | .released .. => none
  | .held _ _ _ _ event => event

def spent (node : ArrayNode) : ArrayNode :=
  .released node.length node.nullCount node.slotCount node.childCount

mutual

/-- Everything the node holds: first what its children hold, then its own slots. -/
def buffers : ArrayNode → List Buffer
  | .released .. => []
  | .held _ _ slots children _ => buffersOfAll children ++ slots.filterMap id

def buffersOfAll : List ArrayNode → List Buffer
  | [] => []
  | node :: rest => node.buffers ++ buffersOfAll rest

end

/-- Release the node: give back all it holds and leave the counts. A second release does nothing. -/
def release (node : ArrayNode) (machine : Machine) : ArrayNode × Machine :=
  (node.spent, Buffer.freeAll node.buffers machine)

def freeAll (nodes : List ArrayNode) (machine : Machine) : Machine :=
  Buffer.freeAll (buffersOfAll nodes) machine

/-- Take child `index` over: the child, and the node with that child marked released. -/
def moveChild? (node : ArrayNode) (index : Nat) : Option (ArrayNode × ArrayNode) :=
  match node with
  | .released .. => none
  | .held length nullCount slots children event =>
      children[index]?.map fun child =>
        (child, .held length nullCount slots (children.set index child.spent) event)

end ArrayNode

structure DeviceArray where
  array : ArrayNode
  device : Device

end DeviceColumns
