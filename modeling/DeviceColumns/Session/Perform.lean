import DeviceColumns.Session.Arrays
import DeviceColumns.Session.Columns
import DeviceColumns.Session.Memory
import DeviceColumns.Session.Sharing

/-!
Carrying out requests, one or many. A new object gets its name only when the request succeeds. What
had the name before is dropped last, after the answer was made, so an answer may still show memory
that the drop frees. Every request is reported on, with the blocks that are live after it and what was
logged on the way.
-/

namespace DeviceColumns

set_option autoImplicit false

namespace SessionAction

def carryOut : Request → SessionAction Answer
  | .resource name below => newResource name below
  | .engine name config => newEngine name config
  | .stats subject => stats subject
  | .outstanding subject pointer => isOutstanding subject pointer
  | .allocate name size via => allocateBlock name size via
  | .deallocate pointer size via => freeBlock pointer size via
  | .buffer name content via => newBuffer name content via
  | .readBuffer subject => readBuffer subject
  | .drop subject => dropObject subject
  | .write pointer bytes => writeBytes pointer bytes
  | .read pointer length => readBytes pointer length
  | .query pointer => query pointer
  | .handleOf pointer => handleOf pointer
  | .openHandle name bytes => openHandle name bytes
  | .describe subject => describe subject
  | .event name => newEvent name
  | .widen name decimal pointer count via => widen name decimal pointer count via
  | .pack name pointer count via => pack name pointer count via
  | .values name type host values validity via => columnOfValues name type host values validity via
  | .booleans name values validity via => columnOfBools name values validity via
  | .nulls name rows => columnOfNulls name rows
  | .strings name values via => columnOfStrings name values via
  | .lists name offsets element validity via => columnOfLists name offsets element validity via
  | .structs name rows fields validity via => columnOfFields name rows fields validity via
  | .dictionary name indices keys validity via => columnOfDictionary name indices keys validity via
  | .assemble name type rows data mask nullCount children =>
      assemble name type rows data mask nullCount children
  | .release subject into => releaseColumn subject into
  | .contents subject => contents subject
  | .table name parts => newTable name parts
  | .split subject into => splitTable subject into
  | .view name specs => newView name specs
  | .inspect subject => inspect subject
  | .readValues subject path host => readValues subject path host
  | .readValidity subject path => readValidity subject path
  | .sameView left right => sameView left right
  | .field subject path names => fieldOf subject path names
  | .fields subject names => fieldsOf subject names
  | .schema subject names => schemaOf subject names
  | .array subject name via => exportColumn subject name via
  | .deviceArray subject name via => exportTable subject name via
  | .inspectArray subject => inspectArray subject
  | .await subject => await subject
  | .blankArray name => newBlankArray name
  | .releaseArray subject => releaseArray subject
  | .moveChild subject index name => moveChild subject index name
  | .share subject names name strict => share subject names name strict
  | .shareThrough subject names name engine => shareThrough subject names name engine
  | .openShared name source edits => openShared name source edits
  | .dropOwner subject index => dropOwner subject index

end SessionAction

namespace Session

/-- Carry out one request. The log starts afresh with each. -/
def perform (request : Request) (session : Session) : Except Failure Answer × Session :=
  SessionAction.carryOut request { session with machine := { session.machine with log := [] } }

def report (request : Request) (session : Session) : Report × Session :=
  let (outcome, after) := session.perform request
  (⟨outcome, after.machine.heap.blocks.length, after.machine.heap.totalSize, after.machine.log⟩,
    after)

def runFrom : List Request → Session → List Report × Session
  | [], session => ([], session)
  | request :: rest, session =>
      let (first, after) := session.report request
      let (reports, final) := runFrom rest after
      (first :: reports, final)

structure Remains where
  liveCount : Nat
  liveBytes : Nat
  ledger : Ledger

def remains (session : Session) : Remains :=
  let machine := session.dropAll.machine
  ⟨machine.heap.blocks.length, machine.heap.totalSize, machine.ledger trackedLedger⟩

def run (requests : List Request) : List Report × Remains :=
  let (reports, final) := runFrom requests initial
  (reports, final.remains)

end Session

end DeviceColumns
