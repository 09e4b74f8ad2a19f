import DeviceColumns.Proofs.Custody.Sessions
import DeviceColumns.Session.Perform

/-!
What a request does with the objects that it names. A request that goes through buffers, columns,
arrays and shared tables ends with in hand what it began with, whether it succeeds or fails: all
that it made has got a name or was given back. This is said for every invariant that the single
steps respect. Requests that make resources or engines, or go by addresses, are left to each
invariant.
-/

namespace DeviceColumns

set_option autoImplicit false

open DeviceColumns.Action

namespace Request

/-- The names of the objects whose buffers a request may replace, take or give back. -/
def names : Request → Set String
  | .resource name _ | .engine name _ | .allocate name _ _ | .buffer name _ _ | .drop name
  | .openHandle name _ | .event name | .widen name _ _ _ _ | .pack name _ _ _
  | .values name _ _ _ _ _ | .booleans name _ _ _ | .nulls name _ | .strings name _ _
  | .view name _ | .blankArray name | .releaseArray name | .share _ _ name _
  | .shareThrough _ _ name _ | .openShared name _ _ => {name}
  | .lists name _ element _ _ => {name, element}
  | .structs name _ parts _ _ => {name} ∪ {part | part ∈ parts}
  | .dictionary name indices keys _ _ => {name, indices, keys}
  | .assemble name _ _ data mask _ children =>
      {name} ∪ {part | part ∈ data} ∪ {part | part ∈ mask} ∪ {child | child ∈ children}
  | .release subject into =>
      {subject, into ++ ".data", into ++ ".mask"} ∪
        Set.range fun index : Nat => into ++ "." ++ toString index
  | .table name parts => {name} ∪ {part | part ∈ parts}
  | .split subject into =>
      {subject} ∪ Set.range fun index : Nat => into ++ "." ++ toString index
  | .array subject name _ | .deviceArray subject name _ | .moveChild subject _ name =>
      {subject, name}
  | _ => ∅

/-- The request makes a resource or an engine, or goes by an address past the objects. -/
def Special : Request → Prop
  | .resource _ _ | .engine _ _ | .allocate _ _ _ | .deallocate _ _ _ | .write _ _ => True
  | _ => False

end Request

namespace SessionAction

variable {Value : Type}

/-- The action ends with in hand what it began with. -/
def Settles (sound : Option String → Holdings → Session → Prop) (act : SessionAction Value) :
    Prop :=
  ∀ held, Triple (sound none held) act (fun _ => sound none held) (sound none held)

namespace ReadOnly

theorem settles {sound : Option String → Holdings → Session → Prop} {act : SessionAction Value}
    (readOnly : ReadOnly act) : Settles sound act :=
  fun _ => readOnly.keeps

theorem stats (subject : String) : ReadOnly (SessionAction.stats subject) :=
  bind (ledgerOf subject) fun _ => pure _

theorem isOutstanding (subject : String) (pointer : Pointer) :
    ReadOnly (SessionAction.isOutstanding subject pointer) :=
  bind (resolve pointer) fun _ => bind (ledgerOf subject) fun _ => pure _

theorem read (address length : Nat) : ReadOnly (memory (Machine.read address length)) := by
  intro session
  unfold memory onMachine Machine.read
  cases session.machine.heap.read address length <;> rfl

theorem readBuffer (subject : String) : ReadOnly (SessionAction.readBuffer subject) :=
  bind (findAs _ subject) fun _ => bind (read _ _) fun _ => pure _

theorem readBytes (pointer : Pointer) (length : Nat) :
    ReadOnly (SessionAction.readBytes pointer length) :=
  bind (resolve pointer) fun _ => bind (read _ _) fun _ => pure _

theorem query (pointer : Pointer) : ReadOnly (SessionAction.query pointer) :=
  bind (resolve pointer) fun _ => bind get fun _ => pure _

theorem handleOf (pointer : Pointer) : ReadOnly (SessionAction.handleOf pointer) :=
  bind (resolve pointer) fun _ => bind heap fun _ => bind (ofExcept _) fun _ => pure _

theorem describe (subject : String) : ReadOnly (SessionAction.describe subject) :=
  bind get fun _ => bind (findAs _ subject) fun _ => pure _

theorem viewAt (subject : String) (path : List Nat) :
    ReadOnly (SessionAction.viewAt subject path) := by
  apply bind (findAs _ subject)
  intro table
  cases View.atPath? table.columns path
  · exact fail _
  · exact pure _

theorem contents (subject : String) : ReadOnly (SessionAction.contents subject) :=
  bind (findAs _ subject) fun _ => pure _

theorem inspect (subject : String) : ReadOnly (SessionAction.inspect subject) :=
  bind (findAs _ subject) fun _ => bind heap fun _ => pure _

theorem readValues (subject : String) (path : List Nat) (host : HostType) :
    ReadOnly (SessionAction.readValues subject path host) :=
  bind (viewAt subject path) fun _ => bind heap fun _ => bind (ofExcept _) fun _ => pure _

theorem readValidity (subject : String) (path : List Nat) :
    ReadOnly (SessionAction.readValidity subject path) :=
  bind (viewAt subject path) fun _ => bind heap fun _ => bind (ofExcept _) fun _ => pure _

theorem sameView (left right : String) : ReadOnly (SessionAction.sameView left right) :=
  bind (findAs _ left) fun _ => bind (findAs _ right) fun _ => pure _

theorem fieldOf (subject : String) (path : List Nat) (names : NameTree) :
    ReadOnly (SessionAction.fieldOf subject path names) :=
  bind (viewAt subject path) fun _ => bind (ofExcept _) fun _ => pure _

theorem fieldsOf (subject : String) (names : List NameTree) :
    ReadOnly (SessionAction.fieldsOf subject names) :=
  bind (findAs _ subject) fun _ => bind (ofExcept _) fun _ => pure _

theorem schemaOf (subject : String) (names : List NameTree) :
    ReadOnly (SessionAction.schemaOf subject names) :=
  bind (findAs _ subject) fun _ => bind (ofExcept _) fun _ => bind (ofExcept _) fun _ => pure _

theorem inspectArray (subject : String) :
    ReadOnly (SessionAction.inspectArray subject) :=
  bind heap fun _ => findAs _ subject

theorem await (subject : String) : ReadOnly (SessionAction.await subject) :=
  bind (findAs _ subject) fun _ => pure _

end ReadOnly

/-- Where only one kind of object can be found, it is known what the name stands for. -/
theorem findAs_one {select : Object → Option Value} {make : Value → Object}
    {before : Session → Prop}
    (selects : ∀ object value, select object = some value → object = make value) (name : String) :
    Triple before (findAs select name)
      (fun value session => session.find? name = some (make value) ∧ before session) before := by
  refine (findAs_found select name).conseq (fun _ holds => holds) ?_ fun _ holds => holds
  rintro value session ⟨⟨object, found, selected⟩, holds⟩
  exact ⟨selects object value selected ▸ found, holds⟩

theorem findAs_column {before : Session → Prop} (name : String) :
    Triple before (findAs Object.column? name)
      (fun column session => session.find? name = some (.column column) ∧ before session) before :=
  findAs_one (fun object column selected => by cases object <;> cases selected; rfl) name

theorem find_found {before : Session → Prop} (subject : String) :
    Triple before (find subject)
      (fun object session => session.find? subject = some object ∧ before session) before := by
  intro session holds
  unfold find
  cases found : session.find? subject with
  | none => exact holds
  | some object => exact ⟨found, holds⟩

theorem findArray_found {before : Session → Prop} {object : Object} (subject : String) :
    Triple (fun session => session.find? subject = some object ∧ before session)
      (findAs Object.array? subject)
      (fun node session => object.array? = some node ∧ session.find? subject = some object ∧
        before session)
      before := by
  refine (findAs_found Object.array? subject).conseq (fun _ holds => holds) ?_
    fun _ holds => holds.2
  rintro node session ⟨⟨other, found, selected⟩, same, holds⟩
  rw [same] at found
  cases found
  exact ⟨selected, same, holds⟩

theorem heap_keeps {before failed : Session → Prop} :
    Triple before heap (fun _ => before) failed :=
  fun _ holds => holds

end SessionAction

namespace Stewardship

open SessionAction

variable {keeps : Holdings → Machine → Prop} {admits : Resource → Prop} {recent : Buffer → Prop}
  {names : Set String} {sound : Option String → Holdings → Session → Prop}
  (steward : Stewardship keeps admits recent names sound) {name subject : String}

include steward

section Memory

theorem makeBuffer_settles (named : name ∈ names) {make : MemoryAction Buffer}
    (spec : ∀ held, Triple (keeps held) make (fun buffer => keeps (held + .ofBuffers [buffer]))
      (keeps held)) :
    Settles sound (do
      let buffer ← memory make
      bindBuffer name buffer) :=
  fun held => (steward.gains spec held).bind fun buffer =>
    steward.bindsLast named (.buffer buffer) rfl _

theorem newBuffer_settles (named : name ∈ names) (content : BufferContent) (via : String) :
    Settles sound (newBuffer name content via) := by
  intro held
  apply (steward.resourceOf via).bindFact
  intro resource admitted
  refine steward.makeBuffer_settles named (fun frame => ?_) held
  cases content with
  | zeroed length =>
      exact (steward.allocate admitted frame length).conseq (fun _ kept => kept)
        (fun _ _ made => made.2) fun _ kept => kept
  | bytes bytes => exact steward.ofBytes admitted frame bytes

theorem widen_settles (named : name ∈ names) (decimal : NarrowDecimal) (pointer : Pointer)
    (rows : Nat) (via : String) : Settles sound (widen name decimal pointer rows via) := by
  intro held
  apply (steward.resourceOf via).bindFact
  intro resource admitted
  apply (ReadOnly.resolve pointer).keeps.bind
  intro source
  exact steward.makeBuffer_settles named (fun frame =>
    NarrowDecimal.widenAt_custody steward.toCustodial admitted frame decimal source rows) held

theorem pack_settles (named : name ∈ names) (pointer : Pointer) (rows : Nat) (via : String) :
    Settles sound (pack name pointer rows via) := by
  intro held
  apply (steward.resourceOf via).bindFact
  intro resource admitted
  apply (ReadOnly.resolve pointer).keeps.bind
  intro source
  exact steward.makeBuffer_settles named
    (fun frame => Bitmask.ofBooleans_custody steward.toCustodial admitted frame source rows) held

theorem dropObject_settles (named : name ∈ names) : Settles sound (dropObject name) := by
  intro held session settled
  unfold dropObject SessionAction.take
  simp only [bind_apply, find]
  cases found : session.find? name with
  | none => exact settled
  | some object =>
      have dropped : Triple (sound none (held + object.holdings))
          (memory (Action.modify object.drop)) (fun _ => sound none held) (sound none held) :=
        steward.drops (Object.drop_custody steward.toCustodial) held
      exact dropped _ (steward.take named found settled)

theorem openHandle_settles (named : name ∈ names) (bytes : Bytes) :
    Settles sound (openHandle name bytes) := by
  intro held
  apply (ReadOnly.ofExcept _).keeps.bind
  intro handle
  apply (steward.gains (fun frame => steward.openHandle frame handle) held).bind
  intro mapping
  apply Triple.look.bind
  intro session
  exact steward.bindsLast named (.mapping mapping) rfl _

theorem newEvent_settles (named : name ∈ names) : Settles sound (newEvent name) := by
  intro held
  have numbered : Triple (sound none held)
      (fun session : Session =>
        ((.ok session.machine.createEvent.1 : Except Failure Nat),
          { session with machine := session.machine.createEvent.2 }))
      (fun _ => sound none held) (sound none held) := by
    intro session settled
    obtain ⟨frame, kept, onto⟩ := steward.onto settled
    exact onto (steward.createEvent kept)
  apply numbered.bind
  intro number
  exact steward.bindsBare named (.event number) rfl rfl _

end Memory

section Columns

variable {held : Holdings}

theorem bindColumn_settles (named : name ∈ names) (column : Column) :
    Triple (sound none (held + .ofBuffers column.buffers)) (bindColumn name column)
      (fun _ => sound none held) (sound none held) :=
  steward.bindsLast named (.column column) rfl _

theorem bindColumns_settles {into : String}
    (named : ∀ index : Nat, into ++ "." ++ toString index ∈ names) (index : Nat)
    (parts : List Column) :
    Triple (sound none (held + .ofBuffers (Column.buffersOfAll parts)))
      (bindColumns into index parts) (fun _ => sound none held) (sound none held) := by
  induction parts generalizing index with
  | nil => exact Triple.pure fun _ settled => Holdings.of_eq settled (add_zero held)
  | cons column rest induction =>
      have first : Triple (sound none (held + .ofBuffers (Column.buffersOfAll (column :: rest))))
          (SessionAction.bind (into ++ "." ++ toString index) (.column column))
          (fun _ => sound none (held + .ofBuffers (Column.buffersOfAll rest)))
          (sound none held) := by
        refine (steward.binds (named index) (.column column) rfl).weaken fun _ settled =>
          Holdings.of_eq settled ?_
        rw [Column.buffersOfAll, Holdings.ofBuffers_append, add_comm (Holdings.ofBuffers _),
          ← add_assoc]
        rfl
      exact first.bind fun _ => induction (index + 1)

theorem bindPart_settles (named : name ∈ names) (part : Option Buffer) {failed : Session → Prop} :
    Triple (sound none (held + .ofBuffers part.toList)) (bindPart name part)
      (fun _ => sound none held) failed := by
  cases part with
  | none => exact Triple.pure fun _ settled => Holdings.of_eq settled (add_zero held)
  | some buffer => exact steward.binds named (.buffer buffer) rfl

theorem takeColumn (named : name ∈ names) (held : Holdings) :
    Triple (sound none held) (SessionAction.takeAs Object.column? name)
      (fun column => sound none (held + .ofBuffers column.buffers)) (sound none held) :=
  steward.takeAs Object.column?_holdings named held

theorem takeBuffer? {part : Option String} (named : ∀ name ∈ part, name ∈ names)
    (held : Holdings) :
    Triple (sound none held) (takeBuffer? part)
      (fun taken => sound none (held + .ofBuffers taken.toList)) (sound none held) := by
  cases part with
  | none => exact Triple.pure fun _ settled => Holdings.of_eq settled (add_zero held).symm
  | some found =>
      have taken : Triple (sound none held) (SessionAction.takeAs Object.buffer? found)
          (fun buffer => sound none (held + .ofBuffers [buffer])) (sound none held) :=
        steward.takeAs Object.buffer?_holdings (named found rfl) held
      exact taken.bind fun buffer => Triple.pure fun _ settled => settled

theorem takeColumns {parts : List String} (named : ∀ name ∈ parts, name ∈ names)
    (held : Holdings) :
    Triple (sound none held) (takeColumns parts)
      (fun taken => sound none (held + .ofBuffers (Column.buffersOfAll taken)))
      (sound none held) := by
  induction parts generalizing held with
  | nil => exact Triple.pure fun _ settled => Holdings.of_eq settled (add_zero held).symm
  | cons name rest induction =>
      obtain ⟨here, others⟩ := List.forall_mem_cons.mp named
      apply (steward.takeColumn here held).bind
      intro column
      refine (steward.droppingOnFailure (.column column)
        (induction others (held + .ofBuffers column.buffers))).bind fun taken => ?_
      refine Triple.pure fun _ settled => Holdings.of_eq settled ?_
      rw [Column.buffersOfAll, Holdings.ofBuffers_append, add_assoc]

theorem makeColumn_settles (named : name ∈ names) {make : ColumnAction Column}
    (spec : ∀ held, Triple (keeps held) make
      (fun column => keeps (held + .ofBuffers column.buffers)) (keeps held)) :
    Settles sound (do
      let column ← columns make
      bindColumn name column) :=
  fun held => (steward.gains spec held).bind fun column => steward.bindColumn_settles named column

theorem columnOfValues_settles (named : name ∈ names) (type : ColumnType) (host : HostType)
    (values : List Int) (validity : Option (List Bool)) (via : String) :
    Settles sound (columnOfValues name type host values validity via) := by
  intro held
  apply (steward.resourceOf via).bindFact
  intro resource admitted
  exact steward.makeColumn_settles named (fun frame =>
    Column.ofValues_custody steward.toCustodial admitted frame type host values validity) held

theorem columnOfBools_settles (named : name ∈ names) (values : List Bool)
    (validity : Option (List Bool)) (via : String) :
    Settles sound (columnOfBools name values validity via) := by
  intro held
  apply (steward.resourceOf via).bindFact
  intro resource admitted
  exact steward.makeColumn_settles named
    (fun frame => Column.ofBools_custody steward.toCustodial admitted frame values validity) held

theorem columnOfStrings_settles (named : name ∈ names) (values : List (Option String))
    (via : String) : Settles sound (columnOfStrings name values via) := by
  intro held
  apply (steward.resourceOf via).bindFact
  intro resource admitted
  exact steward.makeColumn_settles named
    (fun frame => Column.ofStrings_custody steward.toCustodial admitted frame values) held

theorem columnOfNulls_settles (named : name ∈ names) (rows : Nat) :
    Settles sound (columnOfNulls name rows) := by
  intro held
  refine (steward.bindColumn_settles named (Column.ofNulls rows)).weaken fun _ settled => ?_
  rw [Column.ofNulls_buffers]
  exact Holdings.of_eq settled (add_zero held).symm

theorem columnOfLists_settles (named : name ∈ names) (offsets : List Int) {element : String}
    (taken : element ∈ names) (validity : Option (List Bool)) (via : String) :
    Settles sound (columnOfLists name offsets element validity via) := by
  intro held
  apply (steward.resourceOf via).bindFact
  intro resource admitted
  apply (steward.takeColumn taken held).bind
  intro elements
  apply (steward.trades (fun frame => Column.ofLists_custody steward.toCustodial admitted frame
    offsets elements validity) held).bind
  intro column
  exact steward.bindColumn_settles named column

theorem columnOfFields_settles (named : name ∈ names) (rows : Nat) {fields : List String}
    (taken : ∀ field ∈ fields, field ∈ names) (validity : Option (List Bool)) (via : String) :
    Settles sound (columnOfFields name rows fields validity via) := by
  intro held
  apply (steward.resourceOf via).bindFact
  intro resource admitted
  apply (steward.takeColumns taken held).bind
  intro parts
  apply (steward.trades (fun frame => Column.ofFields_custody steward.toCustodial admitted frame
    rows parts validity) held).bind
  intro column
  exact steward.bindColumn_settles named column

theorem columnOfDictionary_settles (named : name ∈ names) {indices keys : String}
    (indicesTaken : indices ∈ names) (keysTaken : keys ∈ names) (validity : Option (List Bool))
    (via : String) : Settles sound (columnOfDictionary name indices keys validity via) := by
  intro held
  apply (steward.resourceOf via).bindFact
  intro resource admitted
  apply (steward.takeColumn indicesTaken held).bind
  intro indexColumn
  apply (steward.droppingOnFailure (.column indexColumn)
    (steward.takeColumn keysTaken (held + .ofBuffers indexColumn.buffers))).bind
  intro keyColumn
  have made : Triple
      (sound none (held + .ofBuffers indexColumn.buffers + .ofBuffers keyColumn.buffers))
      (columns (Column.ofDictionary indexColumn keyColumn validity resource))
      (fun column => sound none (held + .ofBuffers column.buffers)) (sound none held) := by
    rw [add_assoc]
    exact steward.trades (fun frame => Column.ofDictionary_custody steward.toCustodial admitted
      frame indexColumn keyColumn validity) held
  apply made.bind
  intro column
  exact steward.bindColumn_settles named column

theorem assemble_settles (named : name ∈ names) (type : ColumnType) (rows : Nat)
    {data mask : Option String} (nullCount : Nat) {children : List String}
    (dataTaken : ∀ part ∈ data, part ∈ names) (maskTaken : ∀ part ∈ mask, part ∈ names)
    (childrenTaken : ∀ child ∈ children, child ∈ names) :
    Settles sound (assemble name type rows data mask nullCount children) := by
  intro held
  apply (steward.takeBuffer? dataTaken held).bind
  intro dataBuffer
  have dataOnly : (Object.column ⟨type, rows, dataBuffer, none, nullCount, []⟩).holdings =
      .ofBuffers dataBuffer.toList := by
    simp [Object.column_holdings, Column.buffers, Column.buffersOfAll]
  rw [← dataOnly]
  apply (steward.droppingOnFailure _ (steward.takeBuffer? maskTaken _)).bind
  intro maskBuffer
  have both : (Object.column ⟨type, rows, dataBuffer, maskBuffer, nullCount, []⟩).holdings =
      .ofBuffers dataBuffer.toList + .ofBuffers maskBuffer.toList := by
    simp [Object.column_holdings, Column.buffers, Column.buffersOfAll]
  rw [dataOnly, add_assoc, ← both]
  apply (steward.droppingOnFailure _ (steward.takeColumns childrenTaken _)).bind
  intro parts
  refine (steward.bindColumn_settles named _).weaken fun _ settled => Holdings.of_eq settled ?_
  rw [both]
  simp only [Column.buffers, Holdings.ofBuffers_append]
  abel

theorem releaseColumn_settles (named : subject ∈ names) {into : String}
    (dataNamed : into ++ ".data" ∈ names) (maskNamed : into ++ ".mask" ∈ names)
    (childrenNamed : ∀ index : Nat, into ++ "." ++ toString index ∈ names) :
    Settles sound (releaseColumn subject into) := by
  intro held
  apply (findAs_column subject).bind
  intro column
  have emptied : Triple
      (fun session => session.find? subject = some (.column column) ∧ sound none held session)
      (Action.modify (·.update subject (.column column.emptied)) : SessionAction Unit)
      (fun _ => sound none (held + .ofBuffers (Column.buffersOfAll column.children) +
        .ofBuffers column.mask.toList + .ofBuffers column.data.toList))
      (sound none held) := by
    refine Triple.modify fun session ⟨found, settled⟩ => ?_
    refine steward.update rfl (Holdings.of_eq (steward.lend (.inl named) found settled) ?_)
    obtain ⟨type, rows, data, mask, nulls, children⟩ := column
    simp only [Object.column_holdings, Column.emptied_buffers, Column.buffers,
      Holdings.ofBuffers_append, Holdings.ofBuffers_nil]
    abel
  apply emptied.bind
  intro _
  apply (steward.bindPart_settles dataNamed column.data).bind
  intro _
  apply (steward.bindPart_settles maskNamed column.mask).bind
  intro _
  apply (steward.bindColumns_settles childrenNamed 0 column.children).bind
  intro _
  exact Triple.pure fun _ settled => settled

theorem newTable_settles (named : name ∈ names) {parts : List String}
    (taken : ∀ part ∈ parts, part ∈ names) : Settles sound (newTable name parts) := by
  intro held
  apply (steward.takeColumns taken held).bind
  intro columns
  apply (steward.trades
    (fun frame => Table.ofColumns_custody steward.toCustodial frame .host columns) held).bind
  intro table
  exact steward.bindsLast named (.table table) rfl _

theorem splitTable_settles (named : subject ∈ names) {into : String}
    (partsNamed : ∀ index : Nat, into ++ "." ++ toString index ∈ names) :
    Settles sound (splitTable subject into) := by
  intro held
  have taken : Triple (sound none held) (SessionAction.takeAs Object.table? subject)
      (fun table => sound none (held + .ofBuffers (Column.buffersOfAll table.columns)))
      (sound none held) := steward.takeAs Object.table?_holdings named held
  apply taken.bind
  intro table
  apply (steward.bindColumns_settles partsNamed 0 table.columns).bind
  intro _
  exact Triple.pure fun _ settled => settled

theorem newView_settles (named : name ∈ names) (specs : List ViewSpec) :
    Settles sound (newView name specs) := by
  intro held
  apply (ReadOnly.resolveViews specs).keeps.bind
  intro views
  exact steward.bindsBare named (.view ⟨.host, views⟩) rfl rfl _

end Columns

section Arrays

theorem exportColumn_settles (lent : subject ∈ names) (named : name ∈ names) (via : String) :
    Settles sound (exportColumn subject name via) := by
  intro held
  apply (steward.resourceOf via).bindFact
  intro resource admitted
  apply (findAs_column subject).bind
  intro column
  apply (steward.lends lent (.column column)
    (fun frame => Column.toArray_custody steward.toCustodial admitted frame column) held).bind
  intro node
  have emptied : Triple (sound (some subject) (held + .ofBuffers node.buffers))
      (Action.modify (·.update subject (.column column.emptied)) : SessionAction Unit)
      (fun _ => sound none (held + .ofBuffers node.buffers)) (sound none held) := by
    refine Triple.modify fun _ settled => steward.update rfl (Holdings.of_eq settled ?_)
    rw [Object.column_holdings, Column.emptied_buffers, Holdings.ofBuffers_nil, add_zero]
  apply emptied.bind
  intro _
  apply heap_keeps.bind
  intro _
  exact steward.bindsLast named (.array node) rfl _

theorem exportTable_settles (lent : subject ∈ names) (named : name ∈ names) (via : String) :
    Settles sound (exportTable subject name via) := by
  intro held
  apply (steward.resourceOf via).bindFact
  intro resource admitted
  have selects (object : Object) (table : Table) (selected : object.table? = some table) :
      object = .table table := by
    cases object <;> cases selected
    rfl
  apply (findAs_one selects subject).bind
  intro table
  have exported : Triple
      (fun session => session.find? subject = some (.table table) ∧ sound none held session)
      (fun session : Session =>
        ((table.toDeviceArray resource session.machine).1.mapError Failure.columns,
          { session with machine := (table.toDeviceArray resource session.machine).2.2 }.update
            subject (.table (table.toDeviceArray resource session.machine).2.1)))
      (fun exported => sound none (held + .ofBuffers exported.array.buffers))
      (sound none held) := by
    rintro session ⟨found, settled⟩
    obtain ⟨frame, kept, onto⟩ := steward.onto (steward.lend (.inl lent) found settled)
    have custody := Table.toDeviceArray_custody steward.toCustodial admitted _
      (Holdings.of_eq kept (add_right_comm _ _ _))
    have put {gained : Holdings} {remaining : Table} {after : Machine}
        (custody : keeps (held + frame + gained +
          .ofBuffers (Column.buffersOfAll remaining.columns)) after) :
        sound none (held + gained)
          ({ session with machine := after }.update subject (.table remaining)) := by
      refine steward.update rfl (onto (Holdings.of_eq custody ?_))
      show _ = held + gained + .ofBuffers (Column.buffersOfAll remaining.columns) + _
      abel
    rcases ran : table.toDeviceArray resource session.machine with ⟨fault | array, remaining, after⟩
    · rw [ran] at custody
      simp only [ran]
      exact Holdings.of_eq (put custody) (add_zero held)
    · rw [ran] at custody
      simp only [ran]
      exact put custody
  apply exported.bind
  intro array
  apply heap_keeps.bind
  intro _
  exact steward.bindsLast named (.deviceArray array) rfl _

theorem releaseArray_settles (named : subject ∈ names) : Settles sound (releaseArray subject) := by
  intro held
  apply (find_found subject).bind
  intro object
  apply (findArray_found subject).bindFact
  intro node selected
  obtain ⟨holdings, replaced⟩ := Object.array?_holdings selected
  have released : Triple
      (fun session => session.find? subject = some object ∧ sound none held session)
      (fun session : Session =>
        ((.ok (node.release session.machine).1 : Except Failure ArrayNode),
          { session with machine := (node.release session.machine).2 }))
      (fun spent => sound (some subject) (held + .ofBuffers spent.buffers)) (sound none held) := by
    rintro session ⟨found, settled⟩
    have lent := steward.lend (.inl named) found settled
    rw [holdings] at lent
    obtain ⟨frame, kept, onto⟩ := steward.onto lent
    have custody := ArrayNode.release_custody steward.toCustodial
      (Holdings.of_eq kept (add_right_comm _ _ _))
    exact onto (Holdings.of_eq custody (add_right_comm _ _ _))
  apply released.bind
  intro spent
  have put : Triple (sound (some subject) (held + .ofBuffers spent.buffers))
      (Action.modify (·.update subject (object.withArray spent)) : SessionAction Unit)
      (fun _ => sound none held) (sound none held) := by
    refine Triple.modify fun _ settled => steward.update (replaced spent).2
      (Holdings.of_eq settled ?_)
    rw [(replaced spent).1]
  exact put.bind fun _ => Triple.pure fun _ settled => settled

theorem moveChild_settles (lent : subject ∈ names) (index : Nat) (named : name ∈ names) :
    Settles sound (moveChild subject index name) := by
  intro held
  apply (find_found subject).bind
  intro object
  apply (findArray_found subject).bindFact
  intro node selected
  obtain ⟨holdings, replaced⟩ := Object.array?_holdings selected
  split
  · exact Triple.fail fun _ holds => holds.2
  · rename_i child rest moved
    have put : Triple
        (fun session => session.find? subject = some object ∧ sound none held session)
        (Action.modify (·.update subject (object.withArray rest)) : SessionAction Unit)
        (fun _ => sound none (held + .ofBuffers child.buffers)) (sound none held) := by
      refine Triple.modify fun session ⟨found, settled⟩ => ?_
      refine steward.update (replaced rest).2
        (Holdings.of_eq (steward.lend (.inl lent) found settled) ?_)
      rw [holdings, ArrayNode.moveChild?_holdings moved, (replaced rest).1, add_assoc]
    apply put.bind
    intro _
    apply heap_keeps.bind
    intro _
    exact steward.bindsLast named (.array child) rfl _

theorem newBlankArray_settles (named : name ∈ names) : Settles sound (newBlankArray name) := by
  intro held
  apply heap_keeps.bind
  intro _
  exact steward.bindsBare named (.array .blank) rfl rfl _

end Arrays

section Sharing

theorem share_settles (subject : String) (trees : List NameTree) (named : name ∈ names)
    (strict : Bool) : Settles sound (share subject trees name strict) := by
  intro held
  apply (ReadOnly.findAs _ subject).keeps.bind
  intro table
  apply heap_keeps.bind
  intro heap
  apply (ReadOnly.ofExcept _).keeps.bind
  intro bytes
  exact steward.bindsBare named (.message bytes) rfl rfl _

theorem shareThrough_settles (subject : String) (trees : List NameTree) (named : name ∈ names)
    (engine : String) : Settles sound (shareThrough subject trees name engine) :=
  fun held => (ReadOnly.findAs _ engine).keeps.bind fun found =>
    steward.share_settles subject trees named found.config.strict held

theorem openShared_settles (named : name ∈ names) (source : MessageSource) (edits : List Edit) :
    Settles sound (openShared name source edits) := by
  intro held
  have opened (bytes : Bytes) : Triple (sound none held)
      (do
        let table ← columns (SharedTable.ofBytes (edits.foldl Edit.apply bytes))
        let heap ← heap
        SessionAction.bind name (.shared table)
        return Answer.shared (ShownTable.ofView heap table.view) table.owners)
      (fun _ => sound none held) (sound none held) := by
    apply (steward.gains (fun frame => SharedTable.ofBytes_custody steward.toCustodial frame _)
      held).bind
    intro table
    apply heap_keeps.bind
    intro heap
    exact steward.bindsLast named (.shared table) rfl _
  cases source with
  | object message => exact (ReadOnly.findAs _ message).keeps.bind opened
  | bytes given => exact Triple.pass (opened given)

omit steward in
theorem mappingsOfAll_eraseIdx {owners : List SharedColumn} {index : Nat} {owner : SharedColumn}
    (found : owners[index]? = some owner) :
    Holdings.ofMappings (SharedColumn.mappingsOfAll owners) = .ofMappings owner.mappings +
      .ofMappings (SharedColumn.mappingsOfAll (owners.eraseIdx index)) := by
  induction owners generalizing index with
  | nil => simp at found
  | cons first rest induction =>
      cases index with
      | zero =>
          simp only [List.getElem?_cons_zero, Option.some.injEq] at found
          subst found
          simp [SharedColumn.mappingsOfAll]
      | succ index =>
          rw [List.getElem?_cons_succ] at found
          simp only [List.eraseIdx_cons_succ, SharedColumn.mappingsOfAll,
            Holdings.ofMappings_append, induction found]
          abel

theorem dropOwner_settles (subject : String) (index : Nat) :
    Settles sound (dropOwner subject index) := by
  intro held
  have selects (object : Object) (table : SharedTable) (selected : object.shared? = some table) :
      object = .shared table := by
    cases object <;> cases selected
    rfl
  apply (findAs_one selects subject).bind
  intro table
  split
  · exact Triple.fail fun _ holds => holds.2
  · rename_i owner inside
    have put : Triple
        (fun session => session.find? subject = some (.shared table) ∧ sound none held session)
        (Action.modify (·.update subject
          (.shared { table with owners := table.owners.eraseIdx index })) : SessionAction Unit)
        (fun _ => sound none (held + .ofMappings owner.mappings)) (sound none held) := by
      refine Triple.modify fun session ⟨found, settled⟩ => ?_
      refine steward.update rfl (Holdings.of_eq (steward.lend (.inr rfl) found settled) ?_)
      rw [Object.shared_holdings, Object.shared_holdings, mappingsOfAll_eraseIdx inside, add_assoc]
    apply put.bind
    intro _
    apply (steward.drops steward.closeAll held).bind
    intro _
    exact Triple.pure fun _ settled => settled

end Sharing

/-- A request that goes by names ends with in hand what it began with. -/
theorem carryOut_settles {request : Request} (named : request.names ⊆ names)
    (plain : ¬request.Special) : Settles sound (carryOut request) := by
  cases request with
  | resource | engine | allocate | deallocate | write => exact absurd trivial plain
  | stats subject => exact (ReadOnly.stats subject).settles
  | outstanding subject pointer => exact (ReadOnly.isOutstanding subject pointer).settles
  | buffer name content via => exact steward.newBuffer_settles (named rfl) content via
  | readBuffer subject => exact (ReadOnly.readBuffer subject).settles
  | drop subject => exact steward.dropObject_settles (named rfl)
  | read pointer length => exact (ReadOnly.readBytes pointer length).settles
  | query pointer => exact (ReadOnly.query pointer).settles
  | handleOf pointer => exact (ReadOnly.handleOf pointer).settles
  | openHandle name bytes => exact steward.openHandle_settles (named rfl) bytes
  | describe subject => exact (ReadOnly.describe subject).settles
  | event name => exact steward.newEvent_settles (named rfl)
  | widen name decimal pointer rows via =>
      exact steward.widen_settles (named rfl) decimal pointer rows via
  | pack name pointer rows via => exact steward.pack_settles (named rfl) pointer rows via
  | values name type host values validity via =>
      exact steward.columnOfValues_settles (named rfl) type host values validity via
  | booleans name values validity via =>
      exact steward.columnOfBools_settles (named rfl) values validity via
  | nulls name rows => exact steward.columnOfNulls_settles (named rfl) rows
  | strings name values via => exact steward.columnOfStrings_settles (named rfl) values via
  | lists name offsets element validity via =>
      exact steward.columnOfLists_settles (named (.inl rfl)) offsets (named (.inr rfl)) validity via
  | structs name rows fields validity via =>
      exact steward.columnOfFields_settles (named (.inl rfl)) rows (fun _ part => named (.inr part))
        validity via
  | dictionary name indices keys validity via =>
      exact steward.columnOfDictionary_settles (named (.inl rfl)) (named (.inr (.inl rfl)))
        (named (.inr (.inr rfl))) validity via
  | assemble name type rows data mask nullCount children =>
      exact steward.assemble_settles (named (.inl (.inl (.inl rfl)))) type rows nullCount
        (fun _ part => named (.inl (.inl (.inr part)))) (fun _ part => named (.inl (.inr part)))
        fun _ part => named (.inr part)
  | release subject into =>
      exact steward.releaseColumn_settles (named (.inl (.inl rfl))) (named (.inl (.inr (.inl rfl))))
        (named (.inl (.inr (.inr rfl)))) fun index => named (.inr ⟨index, rfl⟩)
  | contents subject => exact (ReadOnly.contents subject).settles
  | table name parts =>
      exact steward.newTable_settles (named (.inl rfl)) fun _ part => named (.inr part)
  | split subject into =>
      exact steward.splitTable_settles (named (.inl rfl)) fun index => named (.inr ⟨index, rfl⟩)
  | view name specs => exact steward.newView_settles (named rfl) specs
  | inspect subject => exact (ReadOnly.inspect subject).settles
  | readValues subject path host => exact (ReadOnly.readValues subject path host).settles
  | readValidity subject path => exact (ReadOnly.readValidity subject path).settles
  | sameView left right => exact (ReadOnly.sameView left right).settles
  | field subject path tree => exact (ReadOnly.fieldOf subject path tree).settles
  | fields subject trees => exact (ReadOnly.fieldsOf subject trees).settles
  | schema subject trees => exact (ReadOnly.schemaOf subject trees).settles
  | array subject name via =>
      exact steward.exportColumn_settles (named (.inl rfl)) (named (.inr rfl)) via
  | deviceArray subject name via =>
      exact steward.exportTable_settles (named (.inl rfl)) (named (.inr rfl)) via
  | inspectArray subject => exact (ReadOnly.inspectArray subject).settles
  | await subject => exact (ReadOnly.await subject).settles
  | blankArray name => exact steward.newBlankArray_settles (named rfl)
  | releaseArray subject => exact steward.releaseArray_settles (named rfl)
  | moveChild subject index name =>
      exact steward.moveChild_settles (named (.inl rfl)) index (named (.inr rfl))
  | share subject trees name strict => exact steward.share_settles subject trees (named rfl) strict
  | shareThrough subject trees name engine =>
      exact steward.shareThrough_settles subject trees (named rfl) engine
  | openShared name source edits => exact steward.openShared_settles (named rfl) source edits
  | dropOwner subject index => exact steward.dropOwner_settles subject index

end Stewardship

end DeviceColumns
