import DeviceColumns.Arrow.Conversion
import DeviceColumns.Session.Lookup

/-!
Requests about exported arrays.
-/

namespace DeviceColumns.SessionAction

set_option autoImplicit false

/-- Export a column as an array. The emptied column keeps its name. -/
def exportColumn (subject name via : String) : SessionAction Answer := do
  let resource ← resourceOf via
  let column ← findAs Object.column? subject
  let node ← columns (column.toArray resource)
  Action.modify (·.update subject (.column column.emptied))
  let heap ← heap
  bind name (.array node)
  return .array (ShownArray.ofNode heap node)

/-- Export a table as a device array. The table keeps its name, whatever became of its columns. -/
def exportTable (subject name via : String) : SessionAction Answer := do
  let resource ← resourceOf via
  let table ← findAs Object.table? subject
  let exported ← fun session =>
    let (outcome, remaining, machine) := table.toDeviceArray resource session.machine
    (outcome.mapError Failure.columns,
      { session with machine := machine }.update subject (.table remaining))
  let heap ← heap
  bind name (.deviceArray exported)
  return .deviceArray (ShownArray.ofNode heap exported.array) exported.device

def inspectArray (subject : String) : SessionAction Answer := do
  let heap ← heap
  findAs (Object.shownArray? heap) subject

def await (subject : String) : SessionAction Answer := do
  let _ ← findAs Object.array? subject
  return .done

def newBlankArray (name : String) : SessionAction Answer := do
  let heap ← heap
  bind name (.array .blank)
  return .array (ShownArray.ofNode heap .blank)

def releaseArray (subject : String) : SessionAction Answer := do
  let object ← find subject
  let node ← findAs Object.array? subject
  let spent ← fun session =>
    let (spent, machine) := node.release session.machine
    (.ok spent, { session with machine := machine })
  Action.modify (·.update subject (object.withArray spent))
  return .callback (!node.isReleased) spent.isReleased

def moveChild (subject : String) (index : Nat) (name : String) : SessionAction Answer := do
  let object ← find subject
  let node ← findAs Object.array? subject
  match node.moveChild? index with
  | none => malformed (.noPart subject)
  | some (child, rest) => do
      Action.modify (·.update subject (object.withArray rest))
      let heap ← heap
      bind name (.array child)
      return .array (ShownArray.ofNode heap child)

end DeviceColumns.SessionAction
