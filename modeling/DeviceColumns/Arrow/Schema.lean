import DeviceColumns.Arrow.Leaf
import DeviceColumns.Column.Names
import DeviceColumns.Column.View

/-!
Schemas of described columns. A field takes its name from the name tree and is nullable exactly when
its column has a mask; a column whose type is unknown, because it is empty or because a nested
column has no children, becomes a field of nulls.
-/

namespace DeviceColumns

set_option autoImplicit false

namespace View

def elementName : String := "element"

def keysName : String := "keys"

/-- A column whose children, if any, do not tell what it holds. -/
def isUntyped (view : View) : Bool :=
  view.type.logical = .empty || (view.type.logical.isNested && view.children.isEmpty)

mutual

/-- The field of one column. Lists name their elements by the first child of the name tree,
dictionaries their keys; structs need a name for every child. -/
def field : View → NameTree → Except Error Field
  | ⟨type, rows, data, mask, nullCount, children⟩, names =>
    if isUntyped ⟨type, rows, data, mask, nullCount, children⟩ then
      .ok (.plain names.name .null true)
    else do
      let arrow ←
        match type.logical, children with
        | .list, _ :: element :: _ => do
            let item ← element.field (names.child 0 elementName)
            pure (.list item)
        | .list, _ => .error (.listElementMissing names.name)
        | .struct, children =>
            if names.children.length ≠ children.length then
              .error (.structNames names.name children.length names.children.length)
            else do
              let fields ← fieldsOf children names.children
              pure (.struct fields)
        | .dictionary32, indices :: keys :: _ =>
            if indices.type.logical.isInteger = false then
              .error (.namedDictionaryIndices names.name indices.type.logical)
            else do
              let values ← keys.field (names.child 0 keysName)
              let key ← indices.type.toArrow
              pure (.dictionary key values.type)
        | .dictionary32, _ => .error (.dictionaryChildren names.name)
        | _, _ => type.toArrow
      return .plain names.name arrow mask.isSome

def fieldsOf : List View → List NameTree → Except Error (List Field)
  | view :: views, names :: more => do
      let first ← view.field names
      let rest ← fieldsOf views more
      return first :: rest
  | _, _ => .ok []

end

end View

/-- One field for each column; every column needs a name. -/
def TableView.schema (table : TableView) (names : List NameTree) : Except Error Schema :=
  if names.length ≠ table.columns.length then
    .error (.tableNames table.columns.length names.length)
  else do
    let fields ← View.fieldsOf table.columns names
    return ⟨fields, []⟩

end DeviceColumns
