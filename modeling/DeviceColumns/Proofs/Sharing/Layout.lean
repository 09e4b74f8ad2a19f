import DeviceColumns.Proofs.Sharing.Handles

/-!
The layout that columns must have to be shared, and what comes of them when they are opened. The
schema of such columns determines their types again, up to the scale of types that have none.
-/

namespace DeviceColumns

set_option autoImplicit false

/-- The type as it is recorded in a schema, where only decimals have a scale. -/
def ColumnType.recorded (type : ColumnType) : ColumnType :=
  ⟨type.logical, if type.logical.isDecimal then type.scale else 0⟩

namespace View

/-- Induction over a view in which all of its children are covered at once. -/
@[elab_as_elim, induction_eliminator]
theorem inductionOnChildren {motive : View → Prop}
    (node : ∀ view : View, (∀ child ∈ view.children, motive child) → motive view) (view : View) :
    motive view :=
  node view fun child _ => inductionOnChildren node child
termination_by sizeOf view
decreasing_by
  cases view
  have smaller := List.sizeOf_lt_of_mem ‹child ∈ _›
  simp only [View.mk.sizeOf_spec] at *
  omega

/-- Sizes are 64-bit words, and each buffer lies in a live block with all that is shared of it. -/
structure Placed (view : View) (heap : Heap) : Prop where
  rows : view.rows < 2 ^ 64
  nulls : view.nullCount < 2 ^ 64
  data : ∀ address ∈ view.data,
    heap.Contains address (view.rows * view.type.logical.width?.getD 0)
  mask : ∀ address ∈ view.mask, heap.Contains address view.maskBytes

instance (view : View) (heap : Heap) : Decidable (view.Placed heap) :=
  decidable_of_iff
    (view.rows < 2 ^ 64 ∧ view.nullCount < 2 ^ 64 ∧
      (∀ address ∈ view.data,
        heap.Contains address (view.rows * view.type.logical.width?.getD 0)) ∧
      ∀ address ∈ view.mask, heap.Contains address view.maskBytes)
    ⟨fun ⟨rows, nulls, data, mask⟩ => ⟨rows, nulls, data, mask⟩,
      fun ⟨rows, nulls, data, mask⟩ => ⟨rows, nulls, data, mask⟩⟩

/-- The layout of shared columns: leaves of fixed width, lists of offsets and elements, and structs
of at least one column. Nested columns have no data of their own. Days of duration are not singled
out, as no schema can be made for them. -/
inductive Conforms (heap : Heap) : View → Prop where
  | leaf {view : View} (placed : view.Placed heap) (wide : view.type.logical.width?.isSome)
      (bare : view.children = []) : Conforms heap view
  | list {view offsets element : View} (placed : view.Placed heap)
      (kind : view.type.logical = .list) (absent : view.data = none)
      (parts : view.children = [offsets, element]) (indices : offsets.type.logical = .int32)
      (first : Conforms heap offsets) (second : Conforms heap element) : Conforms heap view
  | struct {view : View} (placed : view.Placed heap) (kind : view.type.logical = .struct)
      (absent : view.data = none) (inhabited : view.children ≠ [])
      (each : ∀ child ∈ view.children, Conforms heap child) : Conforms heap view

/-- The shapes that can be told from a schema and handle trees: no children besides those that the
field of the column speaks of, and the offsets that every list has. -/
inductive Rebuildable : View → Prop where
  | leaf {view : View} (wide : view.type.logical.width?.isSome) (bare : view.children = []) :
      Rebuildable view
  | list {view offsets element : View} (kind : view.type.logical = .list)
      (parts : view.children = [offsets, element]) (indices : offsets.type.logical = .int32)
      (first : Rebuildable offsets) (second : Rebuildable element) : Rebuildable view
  | struct {view : View} (kind : view.type.logical = .struct) (inhabited : view.children ≠ [])
      (each : ∀ child ∈ view.children, Rebuildable child) : Rebuildable view

/-- The blocks of the view's own buffers live on. -/
def Kept (view : View) (heap later : Heap) : Prop :=
  (∀ address ∈ view.data, heap.Keeps later address) ∧
    ∀ address ∈ view.mask, heap.Keeps later address

instance (view : View) (heap later : Heap) : Decidable (view.Kept heap later) :=
  inferInstanceAs (Decidable (_ ∧ _))

mutual

/-- The view as it comes back. -/
def recorded : View → View
  | ⟨type, rows, data, mask, nullCount, children⟩ =>
      ⟨type.recorded, rows, data, mask, nullCount, recordedAll children⟩

def recordedAll : List View → List View
  | [] => []
  | view :: rest => view.recorded :: recordedAll rest

end

/-- The names of the parts of a column; a list has one for its offsets and one for its elements. -/
def partNames (type : ColumnType) (names : NameTree) : List NameTree :=
  match type.logical with
  | .list => [.leaf "offsets", names.child 0 elementName]
  | .struct => names.children
  | _ => []

mutual

/-- The owner that comes back with a column: its name, the mappings of the blocks of its buffers,
and the owners of its parts. -/
def owner (heap : Heap) : View → NameTree → SharedColumn
  | ⟨type, _, data, mask, _, children⟩, names =>
      ⟨names.name, data.bind heap.mapping?, mask.bind heap.mapping?,
        ownersOf heap children (partNames type names)⟩

/-- One owner for each view; a missing name is empty. -/
def ownersOf (heap : Heap) : List View → List NameTree → List SharedColumn
  | [], _ => []
  | view :: views, names =>
      view.owner heap (names.headD (.leaf "")) :: ownersOf heap views names.tail

end

variable {heap : Heap} {view : View} {names : NameTree} {field : Field}

theorem nodes_eq (view : View) : view.nodes = view :: nodesOfAll view.children := by
  cases view
  rfl

theorem mem_nodesOfAll {node : View} {views : List View} :
    node ∈ nodesOfAll views ↔ ∃ view ∈ views, node ∈ view.nodes := by
  induction views with
  | nil => simp [nodesOfAll]
  | cons first rest induction => simp [nodesOfAll, induction]

theorem forall_nodes {Holds : View → Prop} (all : ∀ node ∈ view.nodes, Holds node) :
    Holds view ∧ ∀ child ∈ view.children, ∀ node ∈ child.nodes, Holds node := by
  rw [nodes_eq, List.forall_mem_cons] at all
  refine ⟨all.1, fun child member node below => all.2 node ?_⟩
  exact mem_nodesOfAll.mpr ⟨child, member, below⟩

theorem owner_eq (heap : Heap) (view : View) (names : NameTree) :
    view.owner heap names = ⟨names.name, view.data.bind heap.mapping?,
      view.mask.bind heap.mapping?, ownersOf heap view.children (partNames view.type names)⟩ := by
  cases view
  rfl

theorem recorded_eq (view : View) : view.recorded = { view with
    type := view.type.recorded, children := recordedAll view.children } := by
  cases view
  rfl

theorem checkShareableAll_ok {views : List View}
    (each : ∀ view ∈ views, view.checkShareable = .ok ()) : checkShareableAll views = .ok () := by
  induction views with
  | nil => rfl
  | cons first rest induction =>
      rw [checkShareableAll, each first (List.mem_cons_self)]
      exact induction fun view member => each view (List.mem_cons_of_mem first member)

theorem Conforms.rebuildable (conforms : view.Conforms heap) : view.Rebuildable := by
  induction conforms with
  | leaf _ wide bare => exact .leaf wide bare
  | list _ kind _ parts indices _ _ first second => exact .list kind parts indices first second
  | struct _ kind _ inhabited _ each => exact .struct kind inhabited each

theorem Conforms.placed (conforms : view.Conforms heap) : ∀ node ∈ view.nodes, node.Placed heap := by
  induction conforms with
  | leaf placed _ bare =>
      rw [nodes_eq, bare]
      exact List.forall_mem_singleton.mpr placed
  | list placed _ _ parts _ _ _ first second =>
      rw [nodes_eq, parts]
      refine List.forall_mem_cons.mpr ⟨placed, fun node member => ?_⟩
      obtain ⟨child, among, below⟩ := mem_nodesOfAll.mp member
      obtain rfl | rfl := List.mem_pair.mp among
      · exact first node below
      · exact second node below
  | struct placed _ _ _ _ each =>
      rw [nodes_eq]
      refine List.forall_mem_cons.mpr ⟨placed, fun node member => ?_⟩
      obtain ⟨child, among, below⟩ := mem_nodesOfAll.mp member
      exact each child among node below

theorem Rebuildable.checkShareable (rebuildable : view.Rebuildable) :
    view.checkShareable = .ok () := by
  induction rebuildable with
  | @leaf view wide _ =>
      obtain ⟨⟨logical, scale⟩, rows, data, mask, nullCount, children⟩ := view
      cases logical <;> first | rfl | contradiction
  | @list view offsets element kind parts _ _ _ first second =>
      obtain ⟨type, rows, data, mask, nullCount, children⟩ := view
      simp only at kind parts
      subst parts
      have each : ∀ view ∈ [offsets, element], view.checkShareable = .ok () := by
        simp [first, second]
      simp [View.checkShareable, kind, checkShareableAll_ok each]
  | @struct view kind inhabited _ induction =>
      obtain ⟨type, rows, data, mask, nullCount, children⟩ := view
      simp only at kind
      have filled : children.isEmpty = false := by simpa using inhabited
      simp [View.checkShareable, kind, filled, checkShareableAll_ok induction]

theorem fieldsOf_cons {views : List View} {more : List NameTree} {fields : List Field}
    (named : fieldsOf (view :: views) (names :: more) = .ok fields) :
    ∃ first rest, view.field names = .ok first ∧ fieldsOf views more = .ok rest ∧
      fields = first :: rest := by
  cases here : view.field names with
  | error fault => simp [fieldsOf, here, bind, Except.bind] at named
  | ok first =>
      cases others : fieldsOf views more with
      | error fault => simp [fieldsOf, here, others, bind, Except.bind] at named
      | ok rest =>
          simp only [fieldsOf, here, others, bind, Except.bind, pure, Except.pure,
            Except.ok.injEq] at named
          exact ⟨first, rest, rfl, rfl, named.symm⟩

theorem fieldsOf_getElem? {views : List View} {more : List NameTree} {fields : List Field}
    (matching : more.length = views.length) (named : fieldsOf views more = .ok fields) :
    fields.length = views.length ∧
      ∀ (index : Nat) view field, views[index]? = some view → fields[index]? = some field →
        ∃ names, more[index]? = some names ∧ view.field names = .ok field := by
  induction views generalizing more fields with
  | nil =>
      rw [fieldsOf] at named
      · cases named
        exact ⟨rfl, by simp⟩
      · simp
  | cons first views induction =>
      cases more with
      | nil => cases matching
      | cons names more =>
          obtain ⟨here, rest, firstNamed, others, rfl⟩ := fieldsOf_cons named
          obtain ⟨counted, each⟩ := induction (Nat.succ.inj matching) others
          refine ⟨congrArg Nat.succ counted, fun index view field found listed => ?_⟩
          cases index with
          | zero =>
              cases found
              cases listed
              exact ⟨names, rfl, firstNamed⟩
          | succ index => exact each index view field found listed

theorem field_wide (wide : view.type.logical.width?.isSome) (names : NameTree) :
    view.field names =
      view.type.toArrow.map fun arrow => .plain names.name arrow view.mask.isSome := by
  obtain ⟨⟨logical, scale⟩, rows, data, mask, nullCount, children⟩ := view
  cases logical <;> first | contradiction | rfl

theorem field_leaf (wide : view.type.logical.width?.isSome)
    (named : view.field names = .ok field) :
    ∃ arrow, view.type.toArrow = .ok arrow ∧ field = .plain names.name arrow view.mask.isSome := by
  rw [field_wide wide] at named
  cases mapped : view.type.toArrow with
  | error fault =>
      rw [mapped] at named
      cases named
  | ok arrow =>
      rw [mapped] at named
      cases named
      exact ⟨arrow, rfl, rfl⟩

theorem field_list {offsets element : View} (kind : view.type.logical = .list)
    (parts : view.children = [offsets, element]) (named : view.field names = .ok field) :
    ∃ item, element.field (names.child 0 elementName) = .ok item ∧
      field = .plain names.name (.list item) view.mask.isSome := by
  obtain ⟨type, rows, data, mask, nullCount, children⟩ := view
  simp only at kind parts
  subst parts
  cases itemNamed : element.field (names.child 0 elementName) with
  | error fault =>
      simp [View.field, isUntyped, kind, itemNamed, bind, Except.bind] at named
  | ok item =>
      simp [View.field, isUntyped, kind, itemNamed, bind, Except.bind, pure, Except.pure] at named
      exact ⟨item, rfl, named.symm⟩

theorem field_struct (kind : view.type.logical = .struct) (inhabited : view.children ≠ [])
    (named : view.field names = .ok field) :
    names.children.length = view.children.length ∧
      ∃ fields, fieldsOf view.children names.children = .ok fields ∧
        field = .plain names.name (.struct fields) view.mask.isSome := by
  obtain ⟨type, rows, data, mask, nullCount, children⟩ := view
  simp only at kind inhabited
  have filled : children.isEmpty = false := by simpa using inhabited
  simp only [View.field, isUntyped, kind, filled] at named
  by_cases matching : names.children.length = children.length
  · refine ⟨matching, ?_⟩
    cases fieldsNamed : fieldsOf children names.children with
    | error fault => simp [matching, fieldsNamed, bind, Except.bind] at named
    | ok fields =>
        simp [matching, fieldsNamed, bind, Except.bind, pure, Except.pure] at named
        exact ⟨fields, rfl, named.symm⟩
  · simp [matching, bind, Except.bind] at named

end View

namespace TableView

variable {table : TableView} {names : List NameTree} {schema : Schema}

theorem schema_ok (named : table.schema names = .ok schema) :
    names.length = table.columns.length ∧
      ∃ fields, View.fieldsOf table.columns names = .ok fields ∧ schema = ⟨fields, []⟩ := by
  unfold TableView.schema at named
  split_ifs at named with different
  refine ⟨not_not.mp different, ?_⟩
  cases fieldsNamed : View.fieldsOf table.columns names with
  | error fault => simp [fieldsNamed, bind, Except.bind] at named
  | ok fields =>
      simp only [fieldsNamed, bind, Except.bind, pure, Except.pure, Except.ok.injEq] at named
      exact ⟨fields, rfl, named.symm⟩

end TableView

namespace ColumnType

theorem arrowScale_ok {type : ColumnType} {scale : Int8} (fits : type.arrowScale = .ok scale) :
    -scale.toInt = type.scale := by
  unfold arrowScale at fits
  split_ifs at fits with range
  cases fits
  rw [Int8.toInt_ofInt_of_le (by omega) (by omega)]
  omega

/-- The Arrow type of a column type stands for this type again, as it is recorded. -/
theorem toColumn_toArrow {type : ColumnType} {arrow : ArrowType}
    (mapped : type.toArrow = .ok arrow) : arrow.toColumn = .ok type.recorded := by
  obtain ⟨logical, scale⟩ := type
  cases logical
  case decimal32 | decimal64 | decimal128 =>
    simp only [toArrow] at mapped
    cases fits : arrowScale ⟨_, scale⟩ with
    | error fault => rw [fits] at mapped; cases mapped
    | ok digits =>
        rw [fits] at mapped
        cases mapped
        rw [ArrowType.toColumn, arrowScale_ok fits]
        rfl
  all_goals first | contradiction | (cases mapped; rfl)

theorem columnType_toArrow {type : ColumnType} {arrow : ArrowType}
    (wide : type.logical.width?.isSome) (mapped : type.toArrow = .ok arrow) :
    SharedTable.columnType arrow = .ok type.recorded ∧ SharedTable.childTypes arrow = [] := by
  have recorded := toColumn_toArrow mapped
  constructor
  · rw [SharedTable.columnType, recorded]
    obtain ⟨logical, scale⟩ := type
    cases logical <;> first | contradiction | rfl
  · have leaf {logical : LogicalType} (stands : arrow.toColumn = .ok ⟨logical, 0⟩) :
        logical.width?.isSome := by
      have same : type.recorded = ⟨logical, 0⟩ := Except.ok.inj (recorded.symm.trans stands)
      rw [show logical = type.logical from (congrArg ColumnType.logical same).symm]
      exact wide
    cases arrow
    case list | struct => exact absurd (leaf rfl) (by decide)
    all_goals rfl

end ColumnType

end DeviceColumns
