import DeviceColumns.Proofs.Sharing.Layout

/-!
Which columns have a field, and what the field says. Making a field walks over a tree of columns and
a tree of names at once, and each kind of nesting pairs their children in its own way. The walk
succeeds exactly if every column that it reaches is in order where it stands; its field then repeats
the walk, and no type is lost in it.
-/

namespace DeviceColumns

set_option autoImplicit false

namespace View

/-- The columns that the walk goes on to from a column, each with its names. Of a list this is the
second child, of a dictionary as well, of a struct every child that there is a name for. -/
def parts (view : View) (names : NameTree) : List (View × NameTree) :=
  if view.isUntyped then []
  else
    match view.type.logical with
    | .list => (view.children[1]?).toList.map (·, names.child 0 elementName)
    | .dictionary32 => (view.children[1]?).toList.map (·, names.child 0 keysName)
    | .struct => view.children.zip names.children
    | _ => []

/-- From the column of the first two arguments the walk comes to the column of the last two. -/
inductive Reaches : View → NameTree → View → NameTree → Prop where
  | here (view : View) (names : NameTree) : Reaches view names view names
  | further {view child target : View} {names childNames targetNames : NameTree}
      (part : (child, childNames) ∈ view.parts names)
      (rest : Reaches child childNames target targetNames) : Reaches view names target targetNames

/-- What is asked of a column that the walk reaches, whatever its children are like. -/
def Describable (view : View) (names : NameTree) : Prop :=
  view.isUntyped = true ∨
    match view.type.logical with
    | .list => 2 ≤ view.children.length
    | .struct => names.children.length = view.children.length
    | .dictionary32 => 2 ≤ view.children.length ∧
        ∀ indices ∈ view.children[0]?, indices.type.logical.isInteger = true
    | .durationDays => False
    | .decimal32 | .decimal64 | .decimal128 => -128 ≤ -view.type.scale ∧ -view.type.scale ≤ 127
    | _ => True

/-- What a field says of its own column: it has the column's name, it admits nulls if the column has
a mask or holds nulls only, and its type stands for the type of the column. -/
structure Labelled (view : View) (names : NameTree) (field : Field) : Prop where
  name : field.name = names.name
  nullable : field.nullable = true ↔ view.mask.isSome = true ∨ field.type = .null
  stands : field.type.toColumn =
    .ok (if view.isUntyped then ⟨.empty, 0⟩ else view.type.recorded)

/-- A field repeats the walk: it labels its column, and its type is made of fields that do the same
for the parts. Of the keys of a dictionary only the type is kept. -/
inductive Mirrors : View → NameTree → Field → Prop where
  | flat {view : View} {names : NameTree} {field : Field}
      (leaf : view.isUntyped = true ∨ view.type.logical.isNested = false)
      (labelled : Labelled view names field) : Mirrors view names field
  | list {view element : View} {names : NameTree} {field item : Field}
      (typed : view.isUntyped = false) (kind : view.type.logical = .list)
      (labelled : Labelled view names field) (second : view.children[1]? = some element)
      (holds : field.type = .list item)
      (mirrors : Mirrors element (names.child 0 elementName) item) : Mirrors view names field
  | struct {view : View} {names : NameTree} {field : Field} {fields : List Field}
      (typed : view.isUntyped = false) (kind : view.type.logical = .struct)
      (labelled : Labelled view names field) (holds : field.type = .struct fields)
      (named : names.children.length = view.children.length)
      (counted : fields.length = view.children.length)
      (each : ∀ (index : Nat) (child : View) (childNames : NameTree) (item : Field),
        view.children[index]? = some child → names.children[index]? = some childNames →
          fields[index]? = some item → Mirrors child childNames item) : Mirrors view names field
  | dictionary {view indices keys : View} {names : NameTree} {field values : Field}
      {key : ArrowType} (typed : view.isUntyped = false)
      (kind : view.type.logical = .dictionary32) (labelled : Labelled view names field)
      (first : view.children[0]? = some indices) (second : view.children[1]? = some keys)
      (holds : field.type = .dictionary key values.type)
      (index : key.toColumn = .ok ⟨indices.type.logical, 0⟩)
      (mirrors : Mirrors keys (names.child 0 keysName) values) : Mirrors view names field

variable {view : View} {names : NameTree} {field : Field}

/-! ### One step of the walk -/

theorem field_untyped (untyped : view.isUntyped = true) (names : NameTree) :
    view.field names = .ok (.plain names.name .null true) := by
  cases view
  rw [View.field, if_pos untyped]

theorem field_flat (typed : view.isUntyped = false) (flat : view.type.logical.isNested = false)
    (names : NameTree) : view.field names =
      view.type.toArrow.map fun arrow => .plain names.name arrow view.mask.isSome := by
  obtain ⟨⟨logical, scale⟩, rows, data, mask, nullCount, children⟩ := view
  rw [View.field, if_neg (by simp [typed])]
  cases logical <;> first | contradiction | rfl

/-- Lists and dictionaries have a field only if they have a second child. -/
theorem second_of_field (typed : view.isUntyped = false)
    (kind : view.type.logical = .list ∨ view.type.logical = .dictionary32)
    (named : view.field names = .ok field) : ∃ second, view.children[1]? = some second := by
  obtain ⟨⟨logical, scale⟩, rows, data, mask, nullCount, children⟩ := view
  rw [View.field, if_neg (by simp [typed])] at named
  obtain _ | ⟨first, _ | ⟨second, more⟩⟩ := children
  · obtain rfl | rfl := kind <;> cases named
  · obtain rfl | rfl := kind <;> cases named
  · exact ⟨second, rfl⟩

theorem first_of_second {second : View} (found : view.children[1]? = some second) :
    2 ≤ view.children.length ∧ ∃ first, view.children[0]? = some first := by
  have long := (List.getElem?_eq_some_iff.mp found).1
  exact ⟨long, _, List.getElem?_eq_getElem (by omega)⟩

theorem field_eq_of_list {element : View} (typed : view.isUntyped = false)
    (kind : view.type.logical = .list) (second : view.children[1]? = some element)
    (names : NameTree) : view.field names =
      (element.field (names.child 0 elementName)).map fun item =>
        .plain names.name (.list item) view.mask.isSome := by
  obtain ⟨⟨logical, scale⟩, rows, data, mask, nullCount, children⟩ := view
  cases kind
  rw [View.field, if_neg (by simp [typed])]
  obtain _ | ⟨offsets, _ | ⟨listed, more⟩⟩ := children <;> cases second
  dsimp only
  cases element.field (names.child 0 elementName) <;> rfl

theorem field_eq_of_struct (typed : view.isUntyped = false) (kind : view.type.logical = .struct)
    (names : NameTree) : view.field names =
      if names.children.length = view.children.length then
        (fieldsOf view.children names.children).map fun fields =>
          .plain names.name (.struct fields) view.mask.isSome
      else .error (.structNames names.name view.children.length names.children.length) := by
  obtain ⟨⟨logical, scale⟩, rows, data, mask, nullCount, children⟩ := view
  cases kind
  rw [View.field, if_neg (by simp [typed])]
  simp only [ne_eq, ite_not]
  split_ifs
  · cases fieldsOf children names.children <;> rfl
  · rfl

theorem field_eq_of_dictionary {indices keys : View} (typed : view.isUntyped = false)
    (kind : view.type.logical = .dictionary32) (first : view.children[0]? = some indices)
    (second : view.children[1]? = some keys) (names : NameTree) : view.field names =
      if indices.type.logical.isInteger = true then do
        let values ← keys.field (names.child 0 keysName)
        let key ← indices.type.toArrow
        return .plain names.name (.dictionary key values.type) view.mask.isSome
      else .error (.namedDictionaryIndices names.name indices.type.logical) := by
  obtain ⟨⟨logical, scale⟩, rows, data, mask, nullCount, children⟩ := view
  cases kind
  rw [View.field, if_neg (by simp [typed])]
  obtain _ | ⟨numbers, _ | ⟨named, more⟩⟩ := children <;> cases second
  cases first
  dsimp only
  cases indices.type.logical.isInteger
  · rfl
  · cases keys.field (names.child 0 keysName) <;> cases indices.type.toArrow <;> rfl

theorem map_ok {α β ε : Type} {outcome : Except ε α} {into : α → β} {made : β}
    (mapped : outcome.map into = .ok made) : ∃ source, outcome = .ok source ∧ into source = made := by
  cases outcome with
  | error fault => cases mapped
  | ok source => exact ⟨source, rfl, Except.ok.inj mapped⟩

theorem map_isOk {α β ε : Type} {outcome : Except ε α} {into : α → β} :
    (∃ made, outcome.map into = .ok made) ↔ ∃ source, outcome = .ok source := by
  cases outcome <;> simp [Except.map]

/-- The kinds of columns, as the walk tells them apart. -/
theorem kind_cases (view : View) :
    view.isUntyped = true ∨ view.isUntyped = false ∧
      (view.type.logical.isNested = false ∨ view.type.logical = .list ∨
        view.type.logical = .struct ∨ view.type.logical = .dictionary32) := by
  cases view.isUntyped
  · cases view.type.logical <;> simp [LogicalType.isNested]
  · exact .inl rfl

/-! ### The rule of one column -/

theorem parts_untyped (untyped : view.isUntyped = true) (names : NameTree) :
    view.parts names = [] := by
  rw [parts, if_pos untyped]

theorem parts_flat (flat : view.type.logical.isNested = false) (names : NameTree) :
    view.parts names = [] := by
  rw [parts]
  split_ifs
  · rfl
  · cases kind : view.type.logical <;> simp [kind, LogicalType.isNested] at flat ⊢

theorem parts_list (typed : view.isUntyped = false) (kind : view.type.logical = .list) :
    view.parts names = (view.children[1]?).toList.map (·, names.child 0 elementName) := by
  simp [parts, typed, kind]

theorem parts_struct (typed : view.isUntyped = false) (kind : view.type.logical = .struct) :
    view.parts names = view.children.zip names.children := by
  simp [parts, typed, kind]

theorem parts_dictionary (typed : view.isUntyped = false)
    (kind : view.type.logical = .dictionary32) :
    view.parts names = (view.children[1]?).toList.map (·, names.child 0 keysName) := by
  simp [parts, typed, kind]

theorem mem_children_of_parts {part : View × NameTree} (member : part ∈ view.parts names) :
    part.1 ∈ view.children := by
  rw [parts] at member
  split_ifs at member
  · cases member
  split at member
  · obtain ⟨element, second, rfl⟩ := List.mem_map.mp member
    exact List.mem_of_getElem? (Option.mem_toList.mp second)
  · obtain ⟨keys, second, rfl⟩ := List.mem_map.mp member
    exact List.mem_of_getElem? (Option.mem_toList.mp second)
  · exact (List.of_mem_zip member).1
  · cases member

theorem arrowScale_isOk_iff {type : ColumnType} :
    (∃ digits, type.arrowScale = .ok digits) ↔ -128 ≤ -type.scale ∧ -type.scale ≤ 127 := by
  rw [ColumnType.arrowScale]
  split_ifs with fits
  · exact iff_of_true ⟨_, rfl⟩ fits
  · exact iff_of_false (by simp) fits

theorem describable_flat (typed : view.isUntyped = false)
    (flat : view.type.logical.isNested = false) :
    view.Describable names ↔ ∃ arrow, view.type.toArrow = .ok arrow := by
  cases kind : view.type.logical
  case list | struct | dictionary32 => simp [kind, LogicalType.isNested] at flat
  case decimal32 | decimal64 | decimal128 =>
    simp only [Describable, typed, kind, ColumnType.toArrow, map_isOk, arrowScale_isOk_iff,
      Bool.false_eq_true, false_or]
  all_goals simp [Describable, typed, kind, ColumnType.toArrow]

theorem describable_list (typed : view.isUntyped = false) (kind : view.type.logical = .list) :
    view.Describable names ↔ 2 ≤ view.children.length := by
  simp [Describable, typed, kind]

theorem describable_struct (typed : view.isUntyped = false)
    (kind : view.type.logical = .struct) :
    view.Describable names ↔ names.children.length = view.children.length := by
  simp [Describable, typed, kind]

theorem describable_dictionary (typed : view.isUntyped = false)
    (kind : view.type.logical = .dictionary32) :
    view.Describable names ↔ 2 ≤ view.children.length ∧
      ∀ indices ∈ view.children[0]?, indices.type.logical.isInteger = true := by
  simp [Describable, typed, kind]

theorem toArrow_of_isInteger {type : ColumnType} (integer : type.logical.isInteger = true) :
    ∃ arrow, type.toArrow = .ok arrow ∧ arrow.toColumn = .ok ⟨type.logical, 0⟩ := by
  obtain ⟨logical, scale⟩ := type
  cases logical <;> first | contradiction | exact ⟨_, rfl, rfl⟩

theorem fieldsOf_isOk_iff (views : List View) (more : List NameTree) :
    (∃ fields, fieldsOf views more = .ok fields) ↔
      ∀ part ∈ views.zip more, ∃ field, part.1.field part.2 = .ok field := by
  induction views generalizing more with
  | nil => simp [fieldsOf]
  | cons view views induction =>
      cases more with
      | nil => simp [fieldsOf]
      | cons names more =>
          rw [List.zip_cons_cons, List.forall_mem_cons, ← induction more]
          constructor
          · rintro ⟨fields, named⟩
            obtain ⟨first, rest, here, others, rfl⟩ := fieldsOf_cons named
            exact ⟨⟨first, here⟩, rest, others⟩
          · rintro ⟨⟨first, here⟩, rest, others⟩
            exact ⟨first :: rest, by rw [fieldsOf, here, others]; rfl⟩

theorem list_isOk_iff (typed : view.isUntyped = false) (kind : view.type.logical = .list) :
    (∃ field, view.field names = .ok field) ↔ view.Describable names ∧
      ∀ part ∈ view.parts names, ∃ field, part.1.field part.2 = .ok field := by
  rw [describable_list typed kind, parts_list typed kind]
  cases found : view.children[1]? with
  | none =>
      have few := List.getElem?_eq_none_iff.mp found
      refine iff_of_false ?_ fun ⟨long, _⟩ => by omega
      rintro ⟨field, named⟩
      obtain ⟨second, present⟩ := second_of_field typed (.inl kind) named
      rw [found] at present
      cases present
  | some element =>
      rw [field_eq_of_list typed kind found, map_isOk]
      simp [(first_of_second found).1]

theorem struct_isOk_iff (typed : view.isUntyped = false) (kind : view.type.logical = .struct) :
    (∃ field, view.field names = .ok field) ↔ view.Describable names ∧
      ∀ part ∈ view.parts names, ∃ field, part.1.field part.2 = .ok field := by
  rw [field_eq_of_struct typed kind, describable_struct typed kind, parts_struct typed kind]
  split_ifs with counted
  · rw [map_isOk, fieldsOf_isOk_iff]
    simp [counted]
  · simp [counted]

theorem dictionary_isOk_iff (typed : view.isUntyped = false)
    (kind : view.type.logical = .dictionary32) :
    (∃ field, view.field names = .ok field) ↔ view.Describable names ∧
      ∀ part ∈ view.parts names, ∃ field, part.1.field part.2 = .ok field := by
  rw [describable_dictionary typed kind, parts_dictionary typed kind]
  cases found : view.children[1]? with
  | none =>
      have few := List.getElem?_eq_none_iff.mp found
      refine iff_of_false ?_ fun ⟨⟨long, _⟩, _⟩ => by omega
      rintro ⟨field, named⟩
      obtain ⟨second, present⟩ := second_of_field typed (.inr kind) named
      rw [found] at present
      cases present
  | some keys =>
      obtain ⟨long, indices, first⟩ := first_of_second found
      rw [field_eq_of_dictionary typed kind first found, first]
      cases integer : indices.type.logical.isInteger with
      | false => simp [integer]
      | true =>
          obtain ⟨key, mapped, -⟩ := toArrow_of_isInteger integer
          cases valued : keys.field (names.child 0 keysName) <;>
            simp [valued, long, integer, mapped, bind, Except.bind, pure, Except.pure]

/-- A column has a field exactly if it is in order where it stands and its parts have fields. -/
theorem field_isOk_iff (view : View) (names : NameTree) :
    (∃ field, view.field names = .ok field) ↔
      view.Describable names ∧
        ∀ part ∈ view.parts names, ∃ field, part.1.field part.2 = .ok field := by
  obtain untyped | ⟨typed, flat | kind | kind | kind⟩ := view.kind_cases
  · simp [field_untyped untyped, parts_untyped untyped, Describable, untyped]
  · rw [field_flat typed flat, map_isOk, describable_flat typed flat, parts_flat flat]
    simp
  · exact list_isOk_iff typed kind
  · exact struct_isOk_iff typed kind
  · exact dictionary_isOk_iff typed kind

/-! ### The whole walk -/

theorem forall_reaches {Holds : View → NameTree → Prop} :
    (∀ target targetNames, Reaches view names target targetNames → Holds target targetNames) ↔
      Holds view names ∧ ∀ part ∈ view.parts names, ∀ target targetNames,
        Reaches part.1 part.2 target targetNames → Holds target targetNames := by
  constructor
  · intro all
    exact ⟨all view names (.here view names), fun part member target targetNames reached =>
      all target targetNames (.further member reached)⟩
  · rintro ⟨own, below⟩ target targetNames reached
    cases reached with
    | here => exact own
    | further part rest => exact below _ part _ _ rest

/-- Whether a column has a field is settled by the columns that the walk reaches, each for itself. -/
theorem field_isOk_iff_reaches (view : View) (names : NameTree) :
    (∃ field, view.field names = .ok field) ↔
      ∀ target targetNames, Reaches view names target targetNames →
        target.Describable targetNames := by
  induction view generalizing names with
  | node view induction =>
      rw [field_isOk_iff, forall_reaches]
      refine and_congr_right fun _ => forall₂_congr fun part member => ?_
      exact induction part.1 (mem_children_of_parts member) part.2

/-- A field that was made of its column's name, mask and type labels this column. -/
theorem labelled_plain {arrow : ArrowType} (typed : view.isUntyped = false)
    (stands : arrow.toColumn = .ok view.type.recorded) :
    view.Labelled names (.plain names.name arrow view.mask.isSome) := by
  refine ⟨rfl, ⟨.inl, fun nullable => nullable.resolve_right ?_⟩, ?_⟩
  · rintro (rfl : arrow = .null)
    -- Only untyped columns have a field of nulls.
    have empty : view.type.logical = .empty :=
      (congrArg ColumnType.logical (Except.ok.inj stands)).symm
    simp [isUntyped, empty] at typed
  · rw [typed]
    exact stands

theorem labelled_untyped (untyped : view.isUntyped = true) (names : NameTree) :
    view.Labelled names (.plain names.name .null true) := by
  refine ⟨rfl, iff_of_true rfl (.inr rfl), ?_⟩
  rw [untyped]
  rfl

theorem recorded_of_isNested (nested : view.type.logical.isNested = true) :
    view.type.recorded = ⟨view.type.logical, 0⟩ := by
  rw [ColumnType.recorded]
  cases kind : view.type.logical <;> simp [kind, LogicalType.isNested] at nested <;> rfl

theorem mirrors_flat (typed : view.isUntyped = false)
    (flat : view.type.logical.isNested = false) (named : view.field names = .ok field) :
    view.Mirrors names field := by
  rw [field_flat typed flat] at named
  obtain ⟨arrow, mapped, rfl⟩ := map_ok named
  exact .flat (.inr flat) (labelled_plain typed (ColumnType.toColumn_toArrow mapped))

theorem labelled_nested {arrow : ArrowType} (typed : view.isUntyped = false)
    (nested : view.type.logical.isNested = true)
    (stands : arrow.toColumn = .ok ⟨view.type.logical, 0⟩) :
    view.Labelled names (.plain names.name arrow view.mask.isSome) := by
  rw [← recorded_of_isNested nested] at stands
  exact labelled_plain typed stands

section Nested

variable (typed : view.isUntyped = false)
  (below : ∀ child ∈ view.children, ∀ names field,
    child.field names = .ok field → child.Mirrors names field)
  (named : view.field names = .ok field)

include typed below named

theorem mirrors_list (kind : view.type.logical = .list) : view.Mirrors names field := by
  obtain ⟨element, second⟩ := second_of_field typed (.inl kind) named
  rw [field_eq_of_list typed kind second] at named
  obtain ⟨item, itemNamed, rfl⟩ := map_ok named
  have labelled : view.Labelled names (.plain names.name (.list item) view.mask.isSome) := by
    apply labelled_nested typed <;> rw [kind] <;> rfl
  have mirrors := below element (List.mem_of_getElem? second) _ _ itemNamed
  exact .list typed kind labelled second rfl mirrors

theorem mirrors_struct (kind : view.type.logical = .struct) : view.Mirrors names field := by
  rw [field_eq_of_struct typed kind] at named
  split_ifs at named with counted
  obtain ⟨fields, fieldsNamed, rfl⟩ := map_ok named
  obtain ⟨filled, each⟩ := fieldsOf_getElem? counted fieldsNamed
  have labelled : view.Labelled names (.plain names.name (.struct fields) view.mask.isSome) := by
    apply labelled_nested typed <;> rw [kind] <;> rfl
  refine .struct typed kind labelled rfl counted filled ?_
  intro index child childNames item found nameFound itemFound
  obtain ⟨_, same, itemNamed⟩ := each index child item found itemFound
  cases nameFound.symm.trans same
  exact below child (List.mem_of_getElem? found) _ _ itemNamed

theorem mirrors_dictionary (kind : view.type.logical = .dictionary32) :
    view.Mirrors names field := by
  obtain ⟨keys, second⟩ := second_of_field typed (.inr kind) named
  obtain ⟨-, indices, first⟩ := first_of_second second
  rw [field_eq_of_dictionary typed kind first second] at named
  split_ifs at named with integer
  obtain ⟨key, mapped, stands⟩ := toArrow_of_isInteger integer
  rw [mapped] at named
  obtain ⟨values, valuesNamed, rfl⟩ := map_ok named
  have labelled : view.Labelled names
      (.plain names.name (.dictionary key values.type) view.mask.isSome) := by
    apply labelled_nested typed <;> rw [kind] <;> rfl
  have mirrors := below keys (List.mem_of_getElem? second) _ _ valuesNamed
  exact .dictionary typed kind labelled first second rfl stands mirrors

end Nested

/-- The field of a column repeats the walk over this column and its names. -/
theorem mirrors_field (named : view.field names = .ok field) : view.Mirrors names field := by
  induction view generalizing names field with
  | node view induction =>
      have below : ∀ child ∈ view.children, ∀ names field,
          child.field names = .ok field → child.Mirrors names field :=
        fun child member _ _ named => induction child member named
      obtain untyped | ⟨typed, flat | kind | kind | kind⟩ := view.kind_cases
      · rw [field_untyped untyped] at named
        cases named
        exact .flat (.inl untyped) (labelled_untyped untyped names)
      · exact mirrors_flat typed flat named
      · exact mirrors_list typed below named kind
      · exact mirrors_struct typed below named kind
      · exact mirrors_dictionary typed below named kind

/-- A column has a field exactly if every column is in order that the walk from it reaches. The
field then repeats this walk: each reached column is found in it under its name, with its
nullability and with a type that stands for the type of the column. -/
theorem field_accepts_and_mirrors (view : View) (names : NameTree) :
    ((∃ field, view.field names = .ok field) ↔
      ∀ target targetNames, Reaches view names target targetNames →
        target.Describable targetNames) ∧
      ∀ field, view.field names = .ok field → view.Mirrors names field :=
  ⟨field_isOk_iff_reaches view names, fun _ named => mirrors_field named⟩

/-- A struct of a list, with a mask, of the given elements, of a dictionary and of a list without
children. -/
def basket (elements : ColumnType) : View :=
  let leaf (type : ColumnType) : View := ⟨type, 2, none, none, 0, []⟩
  ⟨⟨.struct, 0⟩, 2, none, none, 0,
    [⟨⟨.list, 0⟩, 2, none, some 512, 1, [leaf ⟨.int32, 0⟩, leaf elements]⟩,
      ⟨⟨.dictionary32, 0⟩, 2, none, none, 0, [leaf ⟨.uint8, 0⟩, leaf ⟨.string, 0⟩]⟩,
      ⟨⟨.list, 0⟩, 2, none, none, 0, []⟩]⟩

def basketNames : NameTree :=
  ⟨"basket", [⟨"prices", [.leaf "price"]⟩, .leaf "kind", .leaf "empty"]⟩

/-- The scale at the lower end of what Arrow counts comes through a list in a struct; days of
duration in its place are found there. -/
theorem field_accepts_and_mirrors_basket :
    (∃ field, (basket ⟨.decimal64, 128⟩).field basketNames = .ok field ∧
        (basket ⟨.decimal64, 128⟩).Mirrors basketNames field) ∧
      ¬ ∃ field, (basket ⟨.durationDays, 0⟩).field basketNames = .ok field := by
  constructor
  · exact ⟨_, rfl, (field_accepts_and_mirrors _ _).2 _ rfl⟩
  · rw [(field_accepts_and_mirrors _ _).1]
    intro inOrder
    have reached : (basket ⟨.durationDays, 0⟩).Reaches basketNames
        ⟨⟨.durationDays, 0⟩, 2, none, none, 0, []⟩ (.leaf "price") :=
      .further List.mem_cons_self (.further List.mem_cons_self (.here _ _))
    simpa [Describable, isUntyped, LogicalType.isNested] using inOrder _ _ reached

end View

end DeviceColumns
