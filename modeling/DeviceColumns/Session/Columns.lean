import DeviceColumns.Column.Build
import DeviceColumns.Session.Lookup

/-!
Requests about columns, tables and their descriptions.
-/

namespace DeviceColumns.SessionAction

set_option autoImplicit false

def bindColumn (name : String) (column : Column) : SessionAction Answer := do
  bind name (.column column)
  return .contents (Contents.ofColumn column)

/-- Name columns after their place, counting from `index`. -/
def bindColumns (into : String) : Nat → List Column → SessionAction Unit
  | _, [] => return ()
  | index, column :: rest => do
      bind (into ++ "." ++ toString index) (.column column)
      bindColumns into (index + 1) rest

def bindPart (name : String) (part : Option Buffer) : SessionAction Unit :=
  match part with
  | none => return ()
  | some buffer => bind name (.buffer buffer)

def takeBuffer? (name : Option String) : SessionAction (Option Buffer) :=
  match name with
  | none => return none
  | some found => some <$> takeAs Object.buffer? found

def takeColumns : List String → SessionAction (List Column)
  | [] => return []
  | name :: rest => do
      let column ← takeAs Object.column? name
      let columns ← droppingOnFailure (.column column) (takeColumns rest)
      return column :: columns

def viewAt (subject : String) (path : List Nat) : SessionAction View := do
  let table ← findAs Object.view? subject
  match View.atPath? table.columns path with
  | some view => return view
  | none => malformed (.noPart subject)

def columnOfValues (name : String) (type : ColumnType) (host : HostType) (values : List Int)
    (validity : Option (List Bool)) (via : String) : SessionAction Answer := do
  let resource ← resourceOf via
  let column ← columns (Column.ofValues type host values validity resource)
  bindColumn name column

def columnOfBools (name : String) (values : List Bool) (validity : Option (List Bool))
    (via : String) : SessionAction Answer := do
  let resource ← resourceOf via
  let column ← columns (Column.ofBools values validity resource)
  bindColumn name column

def columnOfNulls (name : String) (rows : Nat) : SessionAction Answer :=
  bindColumn name (Column.ofNulls rows)

def columnOfStrings (name : String) (values : List (Option String)) (via : String) :
    SessionAction Answer := do
  let resource ← resourceOf via
  let column ← columns (Column.ofStrings values resource)
  bindColumn name column

def columnOfLists (name : String) (offsets : List Int) (element : String)
    (validity : Option (List Bool)) (via : String) : SessionAction Answer := do
  let resource ← resourceOf via
  let elements ← takeAs Object.column? element
  let column ← columns (Column.ofLists offsets elements validity resource)
  bindColumn name column

def columnOfFields (name : String) (rows : Nat) (fields : List String)
    (validity : Option (List Bool)) (via : String) : SessionAction Answer := do
  let resource ← resourceOf via
  let parts ← takeColumns fields
  let column ← columns (Column.ofFields rows parts validity resource)
  bindColumn name column

def columnOfDictionary (name indices keys : String) (validity : Option (List Bool)) (via : String) :
    SessionAction Answer := do
  let resource ← resourceOf via
  let indexColumn ← takeAs Object.column? indices
  let keyColumn ← droppingOnFailure (.column indexColumn) (takeAs Object.column? keys)
  let column ← columns (Column.ofDictionary indexColumn keyColumn validity resource)
  bindColumn name column

/-- A new column from buffers and columns that are taken as they are. -/
def assemble (name : String) (type : ColumnType) (rows : Nat) (data mask : Option String)
    (nullCount : Nat) (children : List String) : SessionAction Answer := do
  let dataBuffer ← takeBuffer? data
  let maskBuffer ← droppingOnFailure (.column ⟨type, rows, dataBuffer, none, nullCount, []⟩)
    (takeBuffer? mask)
  let parts ← droppingOnFailure (.column ⟨type, rows, dataBuffer, maskBuffer, nullCount, []⟩)
    (takeColumns children)
  bindColumn name ⟨type, rows, dataBuffer, maskBuffer, nullCount, parts⟩

def releaseColumn (subject into : String) : SessionAction Answer := do
  let column ← findAs Object.column? subject
  Action.modify (·.update subject (.column column.emptied))
  bindPart (into ++ ".data") column.data
  bindPart (into ++ ".mask") column.mask
  bindColumns into 0 column.children
  return .parts (Contents.ofColumn column.emptied) (column.data.map Buffer.pointer)
    (column.mask.map Buffer.pointer) column.children.length

def contents (subject : String) : SessionAction Answer := do
  let found ← findAs Object.columns? subject
  return .contentsOfAll (found.map Contents.ofColumn)

def newTable (name : String) (parts : List String) : SessionAction Answer := do
  let taken ← takeColumns parts
  let table ← columns (Table.ofColumns .host taken)
  bind name (.table table)
  return .table table.rows table.columns.length

def splitTable (subject into : String) : SessionAction Answer := do
  let table ← takeAs Object.table? subject
  bindColumns into 0 table.columns
  return .count table.columns.length

def newView (name : String) (specs : List ViewSpec) : SessionAction Answer := do
  let views ← resolveViews specs
  let table : TableView := ⟨.host, views⟩
  bind name (.view table)
  return .table table.rows table.columns.length

def inspect (subject : String) : SessionAction Answer := do
  let table ← findAs Object.view? subject
  let heap ← heap
  return .shown (ShownTable.ofView heap table)

def readValues (subject : String) (path : List Nat) (host : HostType) : SessionAction Answer := do
  let view ← viewAt subject path
  let heap ← heap
  let values ← Action.ofExcept ((view.values host heap).mapError Failure.columns)
  return .values host values

def readValidity (subject : String) (path : List Nat) : SessionAction Answer := do
  let view ← viewAt subject path
  let heap ← heap
  let bits ← Action.ofExcept ((view.validity heap).mapError Failure.columns)
  return .validity bits

def sameView (left right : String) : SessionAction Answer := do
  let first ← findAs Object.view? left
  let second ← findAs Object.view? right
  return .flag (first.columns = second.columns)

def fieldOf (subject : String) (path : List Nat) (names : NameTree) : SessionAction Answer := do
  let view ← viewAt subject path
  let field ← Action.ofExcept ((view.field names).mapError Failure.columns)
  return .field field

def fieldsOf (subject : String) (names : List NameTree) : SessionAction Answer := do
  let table ← findAs Object.view? subject
  let schema ← Action.ofExcept ((table.schema names).mapError Failure.columns)
  return .fields schema.fields

def schemaOf (subject : String) (names : List NameTree) : SessionAction Answer := do
  let table ← findAs Object.view? subject
  let schema ← Action.ofExcept ((table.schema names).mapError Failure.columns)
  let node ← Action.ofExcept (schema.toC.mapError Failure.unanswerable)
  return .schema node

end DeviceColumns.SessionAction
