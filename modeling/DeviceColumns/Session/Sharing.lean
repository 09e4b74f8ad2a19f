import DeviceColumns.Session.Lookup
import DeviceColumns.Share.Export

/-!
Requests about sharing tables through messages.
-/

namespace DeviceColumns.SessionAction

set_option autoImplicit false

def share (subject : String) (names : List NameTree) (name : String) (strict : Bool) :
    SessionAction Answer := do
  let table ← findAs Object.view? subject
  let heap ← heap
  let bytes ← Action.ofExcept ((table.share names strict heap).mapError Failure.columns)
  bind name (.message bytes)
  return .message bytes

def shareThrough (subject : String) (names : List NameTree) (name engine : String) :
    SessionAction Answer := do
  let found ← findAs Object.engine? engine
  share subject names name found.config.strict

def openShared (name : String) (source : MessageSource) (edits : List Edit) :
    SessionAction Answer := do
  let bytes ←
    match source with
    | .object message => findAs Object.message? message
    | .bytes given => pure given
  let table ← columns (SharedTable.ofBytes (edits.foldl Edit.apply bytes))
  let heap ← heap
  bind name (.shared table)
  return .shared (ShownTable.ofView heap table.view) table.owners

def dropOwner (subject : String) (index : Nat) : SessionAction Answer := do
  let table ← findAs Object.shared? subject
  match table.owners[index]? with
  | none => malformed (.noPart subject)
  | some owner => do
      let rest := table.owners.eraseIdx index
      Action.modify (·.update subject (.shared { table with owners := rest }))
      memory (Action.modify owner.close)
      return .count rest.length

end DeviceColumns.SessionAction
