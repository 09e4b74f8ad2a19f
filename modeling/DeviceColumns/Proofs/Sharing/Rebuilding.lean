import DeviceColumns.Proofs.Sharing.RoundTrip

/-!
Which shared tables come back. Sharing checks the children of lists and structs only by number, so
it accepts leaves with children, and lists whose offsets are of any type; of these nothing is in the
schema, and opening refuses them or gives them another type. Everything else that is shared returns
with its types, row counts and children.
-/

namespace DeviceColumns

set_option autoImplicit false

open DeviceColumns.Action SharedTable

namespace View

mutual

/-- What a view says besides where its buffers lie and how many nulls they have: types with the
scale of decimals, row counts, and children. -/
def outline : View → View
  | ⟨type, rows, _, _, _, children⟩ => ⟨type.recorded, rows, none, none, 0, outlineAll children⟩

def outlineAll : List View → List View
  | [] => []
  | view :: rest => view.outline :: outlineAll rest

end

theorem outline_eq (view : View) :
    view.outline = ⟨view.type.recorded, view.rows, none, none, 0, outlineAll view.children⟩ := by
  cases view
  rfl

theorem outlineAll_recordedAll {views : List View}
    (each : ∀ view ∈ views, view.recorded.outline = view.outline) :
    outlineAll (recordedAll views) = outlineAll views := by
  induction views with
  | nil => rfl
  | cons view rest induction =>
      obtain ⟨here, others⟩ := List.forall_mem_cons.mp each
      rw [recordedAll, outlineAll, outlineAll, here, induction others]

theorem outline_recorded (view : View) : view.recorded.outline = view.outline := by
  induction view with
  | node view induction =>
      have types : view.type.recorded.recorded = view.type.recorded := by
        unfold ColumnType.recorded
        split <;> simp_all
      rw [outline_eq, outline_eq, recorded_eq]
      simp only [types, outlineAll_recordedAll induction]

theorem kept_refl (view : View) (heap : Heap) : view.Kept heap heap :=
  ⟨fun _ _ _ live _ => List.mem_map_of_mem live, fun _ _ _ live _ => List.mem_map_of_mem live⟩

/-- What can be shared is a leaf of fixed width, a list of two children or a struct of at least one;
about the children of a leaf nothing is known. -/
theorem checkShareable_cases {view : View} (shareable : view.checkShareable = .ok ()) :
    view.type.logical.width?.isSome ∨
      (view.type.logical = .list ∧ view.children.length = 2 ∧
        checkShareableAll view.children = .ok ()) ∨
      (view.type.logical = .struct ∧ view.children ≠ [] ∧
        checkShareableAll view.children = .ok ()) := by
  obtain ⟨⟨logical, scale⟩, rows, data, mask, nullCount, children⟩ := view
  cases logical
  case list =>
    simp only [checkShareable] at shareable
    split_ifs at shareable with counted
    exact .inr (.inl ⟨rfl, not_not.mp counted, shareable⟩)
  case struct =>
    simp only [checkShareable] at shareable
    split_ifs at shareable with none
    exact .inr (.inr ⟨rfl, by simpa using none, shareable⟩)
  all_goals first | exact .inl rfl | contradiction

theorem checkShareableAll_iff {views : List View} :
    checkShareableAll views = .ok () ↔ ∀ view ∈ views, view.checkShareable = .ok () := by
  refine ⟨fun all => ?_, checkShareableAll_ok⟩
  induction views with
  | nil => simp
  | cons first rest induction =>
      cases here : first.checkShareable with
      | error fault => simp [checkShareableAll, here, bind, Except.bind] at all
      | ok done =>
          simp only [checkShareableAll, here, bind, Except.bind] at all
          exact List.forall_mem_cons.mpr ⟨here, induction all⟩

variable {heap : Heap} {strict : Bool} {view : View} {names : NameTree} {tree : HandleTree}

theorem handles_children (handled : view.handles heap strict = .ok tree) :
    handlesOfAll heap strict view.children = .ok tree.children := by
  obtain ⟨type, rows, data, mask, nullCount, children⟩ := view
  unfold handles at handled
  simp only [bind, Except.bind, pure, Except.pure] at handled
  split at handled
  · contradiction
  · split at handled
    · contradiction
    · split at handled
      · contradiction
      · cases handled
        assumption

theorem handlesOfAll_cons {views : List View} {trees : List HandleTree}
    (handled : handlesOfAll heap strict (view :: views) = .ok trees) :
    ∃ tree rest, view.handles heap strict = .ok tree ∧
      handlesOfAll heap strict views = .ok rest ∧ trees = tree :: rest := by
  cases here : view.handles heap strict with
  | error fault => simp [handlesOfAll, here, bind, Except.bind] at handled
  | ok tree =>
      cases others : handlesOfAll heap strict views with
      | error fault => simp [handlesOfAll, here, others, bind, Except.bind] at handled
      | ok rest =>
          simp only [handlesOfAll, here, others, bind, Except.bind, pure, Except.pure,
            Except.ok.injEq] at handled
          exact ⟨tree, rest, rfl, rfl, handled.symm⟩

/-- The view can be shared under some field and handle tree, and opening these gives its outline
again. -/
inductive Returns (heap : Heap) (strict : Bool) (view : View) : Prop where
  | opened {names : NameTree} {field : Field} {tree : HandleTree} {name : String}
      {imported : View} {owner : SharedColumn} (shareable : view.checkShareable = .ok ())
      (named : view.field names = .ok field) (handled : view.handles heap strict = .ok tree)
      (opened : Opened heap name field.type tree imported owner)
      (same : imported.outline = view.outline) : Returns heap strict view

theorem returns_all {views : List View} {more : List NameTree} {fields : List Field}
    {trees : List HandleTree} {imported : List View} {owners : List SharedColumn}
    (shareable : checkShareableAll views = .ok ()) (matching : more.length = views.length)
    (named : fieldsOf views more = .ok fields) (handled : handlesOfAll heap strict views = .ok trees)
    (opened : OpenedAll heap (fields.map fun field => (field.name, field.type)) trees imported owners)
    (same : outlineAll imported = outlineAll views) : ∀ view ∈ views, Returns heap strict view := by
  induction views generalizing more fields trees imported owners with
  | nil => simp
  | cons view views induction =>
      cases more with
      | nil => cases matching
      | cons names more =>
          obtain ⟨field, fields, fieldNamed, othersNamed, rfl⟩ := fieldsOf_cons named
          obtain ⟨tree, trees, treeHandled, othersHandled, rfl⟩ := handlesOfAll_cons handled
          obtain ⟨here, others⟩ := List.forall_mem_cons.mp (checkShareableAll_iff.mp shareable)
          cases opened with
          | cons first rest =>
              obtain ⟨firstSame, restSame⟩ := List.cons.inj same
              exact List.forall_mem_cons.mpr
                ⟨.opened here fieldNamed treeHandled first firstSame,
                  induction (checkShareableAll_ok others) (Nat.succ.inj matching) othersNamed
                    othersHandled rest restSame⟩

theorem bare_of_outline {parts children : List View} {trees : List HandleTree}
    {owners : List SharedColumn} (opened : OpenedAll heap [] trees parts owners)
    (same : outlineAll parts = outlineAll children) : children = [] := by
  cases opened
  cases children with
  | nil => rfl
  | cons child rest => contradiction

/-- Offsets are opened as 32-bit integers without children, whatever they were. -/
theorem offsets_of_outline {offsets found : View} {owner : SharedColumn} {name : String}
    (opened : Opened heap name .int32 tree found owner) (same : found.outline = offsets.outline) :
    offsets.type.logical = .int32 ∧ offsets.Rebuildable := by
  cases opened with
  | column typed _ _ _ _ parts =>
      cases typed
      rw [outline_eq, outline_eq, View.mk.injEq] at same
      have logical : .int32 = offsets.type.logical := congrArg ColumnType.logical same.1
      refine ⟨logical.symm, .leaf ?_ (bare_of_outline parts same.2.2.2.2.2)⟩
      rw [← logical]
      rfl

namespace Returns

/-- A leaf is opened without children. -/
theorem bare (returns : Returns heap strict view) (wide : view.type.logical.width?.isSome) :
    view.children = [] := by
  obtain ⟨_, named, _, opened, same⟩ := returns
  obtain ⟨arrow, mapped, rfl⟩ := field_leaf wide named
  obtain ⟨_, flat⟩ := ColumnType.columnType_toArrow wide mapped
  rw [outline_eq, outline_eq, View.mk.injEq] at same
  cases opened with
  | column _ _ _ _ _ parts =>
      rw [Field.plain, flat] at parts
      exact bare_of_outline parts same.2.2.2.2.2

theorem list_parts {offsets element : View} (returns : Returns heap strict view)
    (kind : view.type.logical = .list) (pair : view.children = [offsets, element])
    (below : checkShareableAll view.children = .ok ()) :
    offsets.type.logical = .int32 ∧ offsets.Rebuildable ∧ Returns heap strict element := by
  obtain ⟨_, named, whole, opened, same⟩ := returns
  have handled := handles_children whole
  obtain ⟨item, itemNamed, rfl⟩ := field_list kind pair named
  rw [outline_eq, outline_eq, View.mk.injEq] at same
  obtain ⟨_, _, _, _, _, children⟩ := same
  rw [pair] at handled children below
  obtain ⟨_, _, _, others, trees⟩ := handlesOfAll_cons handled
  obtain ⟨_, _, elementHandled, _, rest⟩ := handlesOfAll_cons others
  have shareable := checkShareableAll_iff.mp below element (by simp)
  cases opened with
  | column _ _ _ _ _ parts =>
      subst trees rest
      cases parts with
      | cons first others =>
          obtain ⟨firstSame, othersSame⟩ := List.cons.inj children
          obtain ⟨indices, shape⟩ := offsets_of_outline first firstSame
          cases others with
          | cons second _ =>
              exact ⟨indices, shape,
                .opened shareable itemNamed elementHandled second (List.cons.inj othersSame).1⟩

theorem struct_parts (returns : Returns heap strict view) (kind : view.type.logical = .struct)
    (inhabited : view.children ≠ []) (below : checkShareableAll view.children = .ok ()) :
    ∀ child ∈ view.children, Returns heap strict child := by
  obtain ⟨_, named, whole, opened, same⟩ := returns
  obtain ⟨matching, fields, fieldsNamed, rfl⟩ := field_struct kind inhabited named
  rw [outline_eq, outline_eq, View.mk.injEq] at same
  cases opened with
  | column _ _ _ _ _ parts =>
      exact returns_all below matching fieldsNamed (handles_children whole) parts same.2.2.2.2.2

theorem shareable (returns : Returns heap strict view) : view.checkShareable = .ok () := by
  obtain ⟨shareable, _, _, _, _⟩ := returns
  exact shareable

/-- A view that comes back with its outline has one of the shapes that can be rebuilt. -/
theorem rebuildable (returns : Returns heap strict view) : view.Rebuildable := by
  induction view with
  | node view induction =>
      obtain wide | ⟨kind, counted, below⟩ | ⟨kind, inhabited, below⟩ :=
        checkShareable_cases returns.shareable
      · exact .leaf wide (returns.bare wide)
      · obtain ⟨offsets, element, pair⟩ := List.length_eq_two.mp counted
        obtain ⟨indices, shape, back⟩ := returns.list_parts kind pair below
        exact .list kind pair indices shape (induction element (by simp [pair]) back)
      · have back := returns.struct_parts kind inhabited below
        exact .struct kind inhabited fun child member => induction child member (back child member)

end Returns

end View

namespace TableView

variable {table : TableView} {names : List NameTree} {strict : Bool} {heap : Heap}

theorem toMessage_ok {message : Message} (made : table.toMessage names strict heap = .ok message) :
    message.version = Message.currentVersion ∧ View.checkShareableAll table.columns = .ok () ∧
      table.schema names = .ok message.schema ∧
      View.handlesOfAll heap strict table.columns = .ok message.columns := by
  unfold toMessage at made
  simp only [bind, Except.bind, pure, Except.pure] at made
  split at made
  · contradiction
  · split at made
    · contradiction
    · split at made
      · contradiction
      · cases made
        exact ⟨rfl, by assumption, by assumption, by assumption⟩

/-- A table that was shared opens again with the types, row counts and children of its columns if
and only if these have a shape that can be rebuilt. -/
theorem shared_opens_iff {session : Session} (reached : session.Reached)
    (placed : ∀ node ∈ View.nodesOfAll table.columns, node.Placed session.machine.heap)
    {bytes : Bytes} (shared : table.share names strict session.machine.heap = .ok bytes)
    (sized : bytes.Addressable) :
    (∃ opened after, SharedTable.ofBytes bytes session.machine = (.ok opened, after) ∧
      View.outlineAll opened.view.columns = View.outlineAll table.columns) ↔
    ∀ column ∈ table.columns, column.Rebuildable := by
  have formed := reached.wellFormed
  obtain ⟨message, made, rfl⟩ : ∃ message,
      table.toMessage names strict session.machine.heap = .ok message ∧ message.encode = bytes := by
    rw [share] at shared
    cases made : table.toMessage names strict session.machine.heap with
    | error fault => simp [made, Except.map] at shared
    | ok message => exact ⟨message, rfl, by simpa [made, Except.map] using shared⟩
  obtain ⟨current, shareable, named, handled⟩ := toMessage_ok made
  have decoded := Message.decode_current current sized
  constructor
  · rintro ⟨opened, after, ran, same⟩
    obtain ⟨⟨found, foundDecoded, parts⟩, _⟩ :=
      ((on_tracks session.machine.heap).ofBytes 0 message.encode).ok rfl ran
    obtain rfl : message = found := Except.ok.inj (decoded.symm.trans foundDecoded)
    obtain ⟨matching, fields, fieldsNamed, fieldsOnly⟩ := schema_ok named
    rw [fieldsOnly] at parts
    intro column member
    have returns := View.returns_all shareable matching fieldsNamed handled parts same
    exact (returns column member).rebuildable
  · intro rebuildable
    obtain ⟨other, _, otherMade, opens⟩ := toMessage_rebuilds formed formed rebuildable placed
      (fun node _ => node.kept_refl session.machine.heap) named
    obtain rfl : message = other := Except.ok.inj (made.symm.trans (otherMade strict))
    obtain ⟨_, after, ran, rfl, _⟩ := opens.returns rfl
    have opened : SharedTable.ofBytes message.encode session.machine = (.ok _, after) :=
      (bind_ok (congrArg (·, session.machine) decoded)).trans ran
    exact ⟨_, after, opened, View.outlineAll_recordedAll fun view _ => view.outline_recorded⟩

def unrebuildableBlocks : List Request := [.allocate "values" 8 "plain"]

def unrebuildable : Session := (Session.runFrom unrebuildableBlocks .initial).2

/-- A list whose offsets have 64 bits. -/
def wideOffsetsTable : TableView :=
  ⟨.host, [⟨⟨.list, 0⟩, 0, none, none, 0, [
    ⟨⟨.int64, 0⟩, 1, some 0x100000000000, none, 0, []⟩,
    ⟨⟨.uint8, 0⟩, 0, none, none, 0, []⟩]⟩]⟩

theorem shared_opens_iff_wideOffsets :
    (∀ node ∈ View.nodesOfAll wideOffsetsTable.columns, node.Placed unrebuildable.machine.heap) ∧
    ∃ bytes, wideOffsetsTable.share [.leaf "l"] true unrebuildable.machine.heap = .ok bytes ∧
      ¬ ∃ opened after, SharedTable.ofBytes bytes unrebuildable.machine = (.ok opened, after) ∧
        View.outlineAll opened.view.columns = View.outlineAll wideOffsetsTable.columns := by
  have reached : unrebuildable.Reached :=
    Session.Reached.initial.step (.allocate "values" 8 "plain")
  have placed : ∀ node ∈ View.nodesOfAll wideOffsetsTable.columns,
      node.Placed unrebuildable.machine.heap := by decide +kernel
  have shares : (wideOffsetsTable.share [.leaf "l"] true
      unrebuildable.machine.heap).toOption.isSome := by decide +kernel
  have short : ((wideOffsetsTable.share [.leaf "l"] true
      unrebuildable.machine.heap).toOption.getD []).length < 2 ^ 64 := by decide +kernel
  cases shared : wideOffsetsTable.share [.leaf "l"] true unrebuildable.machine.heap with
  | error fault =>
      rw [shared] at shares
      contradiction
  | ok bytes =>
      rw [shared] at short
      refine ⟨placed, bytes, rfl, fun opens => ?_⟩
      cases (shared_opens_iff reached placed shared short).mp opens _ (List.mem_singleton_self _) with
      | leaf wide _ => contradiction
      | list _ parts indices _ _ =>
          cases parts
          contradiction
      | struct kind _ _ => contradiction

/-- A leaf with a child. -/
def burdenedTable : TableView :=
  ⟨.host, [⟨⟨.int32, 0⟩, 2, some 0x100000000000, none, 0, [⟨⟨.int8, 0⟩, 0, none, none, 0, []⟩]⟩]⟩

/-- The leaf is shared, with its child, but opening finds one handle tree too many. -/
theorem shared_but_not_opened :
    (∀ node ∈ View.nodesOfAll burdenedTable.columns, node.Placed unrebuildable.machine.heap) ∧
    ∃ bytes, burdenedTable.share [.leaf "c"] true unrebuildable.machine.heap = .ok bytes ∧
      ∀ opened after, SharedTable.ofBytes bytes unrebuildable.machine ≠ (.ok opened, after) := by
  have shares : (burdenedTable.share [.leaf "c"] true
      unrebuildable.machine.heap).toOption.isSome := by decide +kernel
  have refused : (SharedTable.ofBytes ((burdenedTable.share [.leaf "c"] true
      unrebuildable.machine.heap).toOption.getD []) unrebuildable.machine).1.isOk = false := by
    decide +kernel
  refine ⟨by decide +kernel, ?_⟩
  cases shared : burdenedTable.share [.leaf "c"] true unrebuildable.machine.heap with
  | error fault =>
      rw [shared] at shares
      contradiction
  | ok bytes =>
      rw [shared] at refused
      refine ⟨bytes, rfl, fun opened after ran => ?_⟩
      rw [Except.toOption, Option.getD_some, ran] at refused
      contradiction

end TableView

end DeviceColumns
