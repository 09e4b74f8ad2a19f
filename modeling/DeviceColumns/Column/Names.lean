/-!
Names for columns. A view carries no names; whoever exports a table supplies a tree of them.
-/

namespace DeviceColumns

set_option autoImplicit false

structure NameTree where
  name : String
  children : List NameTree

namespace NameTree

def leaf (name : String) : NameTree := ⟨name, []⟩

/-- The names of part `index`, or a default name. -/
def child (names : NameTree) (index : Nat) (default : String) : NameTree :=
  (names.children[index]?).getD (leaf default)

end NameTree

end DeviceColumns
