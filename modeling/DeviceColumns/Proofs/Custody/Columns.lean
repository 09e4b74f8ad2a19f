import DeviceColumns.Arrow.Conversion
import DeviceColumns.Column.Build
import DeviceColumns.Proofs.Custody.Exchange

/-!
Custody of columns and arrays. A constructor turns what it was handed into the buffers of the column
that it returns; if it fails, what it has allocated is given back, and so is what it was handed. A
conversion turns the buffers of columns into those of arrays. This holds for every invariant that
the operations on buffers respect.
-/

namespace DeviceColumns

set_option autoImplicit false

open DeviceColumns.Action

variable {keeps : Holdings → Machine → Prop} {admits : Resource → Prop} {recent : Buffer → Prop}
  (custodial : Custodial keeps admits recent) {resource : Resource} (admitted : admits resource)

section Kernels

include custodial admitted

theorem NarrowDecimal.widenAt_custody (held : Holdings) (decimal : NarrowDecimal)
    (source rows : Nat) :
    Triple (keeps held) (decimal.widenAt source rows resource)
      (fun buffer => keeps (held + .ofBuffers [buffer]))
      (keeps held) := by
  unfold widenAt
  apply (custodial.allocate admitted held _).bindFact
  intro wide new
  split_ifs with empty
  · exact Triple.pure fun _ custody => custody
  · apply Triple.bind
      ((Machine.read_keeps _ _).undoOnFailure fun _ custody => custodial.free custody)
    intro narrow
    apply (custodial.fill new held _).bind
    intro _
    exact Triple.pure fun _ custody => custody

theorem Bitmask.ofBooleans_custody (held : Holdings) (source rows : Nat) :
    Triple (keeps held) (Bitmask.ofBooleans source rows resource)
      (fun buffer => keeps (held + .ofBuffers [buffer]))
      (keeps held) := by
  unfold Bitmask.ofBooleans
  apply (custodial.allocate admitted held _).bindFact
  intro packed new
  split_ifs with empty
  · exact Triple.pure fun _ custody => custody
  · apply Triple.bind
      ((Machine.read_keeps _ _).undoOnFailure fun _ custody => custodial.free custody)
    intro booleans
    apply (custodial.fill new held _).bind
    intro _
    exact Triple.pure fun _ custody => custody

end Kernels

namespace Column

section Construction

include custodial admitted

theorem maskOf_custody (held : Holdings) (validity : Option (List Bool)) (rows : Nat) :
    Triple (keeps held) (maskOf validity rows resource)
      (fun made => keeps (held + .ofBuffers made.1.toList))
      (keeps held) := by
  unfold maskOf
  cases validity with
  | none => exact Triple.pure fun _ custody => Holdings.of_eq custody (add_zero held).symm
  | some valid =>
      simp only
      split_ifs with different empty
      · exact Triple.stop fun _ custody => custody
      · exact Triple.stop fun _ custody => custody
      · exact Triple.pure fun _ custody => Holdings.of_eq custody (add_zero held).symm
      · apply (custodial.ofBytes admitted held _).mapFault.bind
        intro mask
        exact Triple.pure fun _ custody => custody

theorem ofValues_custody (held : Holdings) (type : ColumnType) (host : HostType)
    (values : List Int) (validity : Option (List Bool)) :
    Triple (keeps held) (ofValues type host values validity resource)
      (fun column => keeps (held + .ofBuffers column.buffers))
      (keeps held) := by
  unfold ofValues
  split_ifs with different
  · exact Triple.stop fun _ custody => custody
  · apply (maskOf_custody custodial admitted held validity values.length).bind
    intro made
    obtain ⟨mask, nulls⟩ := made
    refine Triple.bind ((custodial.ofBytes admitted _ _).mapFault.undoOnFailure
      fun _ custody => custodial.freeAll custody) fun data => ?_
    refine Triple.pure fun _ custody => Holdings.of_eq custody ?_
    simp only [buffers, buffersOfAll, Option.toList_some, List.append_nil,
      Holdings.ofBuffers_append]
    abel

theorem ofBools_custody (held : Holdings) (values : List Bool) (validity : Option (List Bool)) :
    Triple (keeps held) (ofBools values validity resource)
      (fun column => keeps (held + .ofBuffers column.buffers))
      (keeps held) :=
  ofValues_custody custodial admitted held _ _ _ _

theorem ofStrings_custody (held : Holdings) (values : List (Option String)) :
    Triple (keeps held) (ofStrings values resource)
      (fun column => keeps (held + .ofBuffers column.buffers))
      (keeps held) := by
  unfold ofStrings
  simp only
  generalize (if values.any Option.isNone then some (values.map Option.isSome) else none) = validity
  split_ifs with tooLong
  · exact Triple.stop fun _ custody => custody
  · apply (ofValues_custody custodial admitted held _ _ _ _).bind
    intro offsets
    refine Triple.bind ((maskOf_custody custodial admitted _ _ _).undoOnFailure
      fun _ custody => custodial.freeAll custody) fun made => ?_
    obtain ⟨mask, nulls⟩ := made
    refine Triple.bind ((custodial.ofBytes admitted _ _).mapFault.undoOnFailure
      fun _ custody => custodial.freeAll (custodial.freeAll custody)) fun data => ?_
    refine Triple.pure fun _ custody => Holdings.of_eq custody ?_
    simp only [buffers, buffersOfAll, Option.toList_some, List.append_nil,
      Holdings.ofBuffers_append]
    abel

theorem ofLists_custody (held : Holdings) (offsets : List Int) (element : Column)
    (validity : Option (List Bool)) :
    Triple (keeps (held + .ofBuffers element.buffers))
      (ofLists offsets element validity resource)
      (fun column => keeps (held + .ofBuffers column.buffers))
      (keeps held) := by
  refine Triple.undoOnFailure ?_
    fun machine (custody : keeps (held + .ofBuffers element.buffers) machine) =>
      custodial.freeAll custody
  cases offsets.getLast? with
  | none => exact Triple.fail fun _ custody => custody
  | some last =>
      simp only
      split_ifs with different
      · exact Triple.stop fun _ custody => custody
      · apply (ofValues_custody custodial admitted _ _ _ _ _).bind
        intro offsetColumn
        refine Triple.bind ((maskOf_custody custodial admitted _ _ _).undoOnFailure
          fun _ custody => custodial.freeAll custody) fun made => ?_
        obtain ⟨mask, nulls⟩ := made
        refine Triple.pure fun _ custody => Holdings.of_eq custody ?_
        simp only [buffers, buffersOfAll, Option.toList_none, List.nil_append, List.append_nil,
          Holdings.ofBuffers_append]
        abel

theorem ofFields_custody (held : Holdings) (rows : Nat) (fields : List Column)
    (validity : Option (List Bool)) :
    Triple (keeps (held + .ofBuffers (buffersOfAll fields)))
      (ofFields rows fields validity resource)
      (fun column => keeps (held + .ofBuffers column.buffers))
      (keeps held) := by
  refine Triple.undoOnFailure ?_
    fun machine (custody : keeps (held + .ofBuffers (buffersOfAll fields)) machine) =>
      custodial.freeAll custody
  split
  · exact Triple.stop fun _ custody => custody
  · apply (maskOf_custody custodial admitted _ validity rows).bind
    intro made
    obtain ⟨mask, nulls⟩ := made
    refine Triple.pure fun _ custody => Holdings.of_eq custody ?_
    simp only [buffers, Option.toList_none, List.nil_append, Holdings.ofBuffers_append]
    abel

theorem ofDictionary_custody (held : Holdings) (indices keys : Column)
    (validity : Option (List Bool)) :
    Triple (keeps (held + (.ofBuffers indices.buffers + .ofBuffers keys.buffers)))
      (ofDictionary indices keys validity resource)
      (fun column => keeps (held + .ofBuffers column.buffers))
      (keeps held) := by
  refine Triple.undoOnFailure ?_
    fun machine (custody : keeps
        (held + (.ofBuffers indices.buffers + .ofBuffers keys.buffers)) machine) =>
      custodial.freeAll (custodial.freeAll (Holdings.of_eq custody (add_assoc _ _ _).symm))
  split_ifs with different
  · exact Triple.stop fun _ custody => custody
  · apply (maskOf_custody custodial admitted _ validity indices.rows).bind
    intro made
    obtain ⟨mask, nulls⟩ := made
    refine Triple.pure fun _ custody => Holdings.of_eq custody ?_
    simp only [buffers, buffersOfAll, Option.toList_none, List.nil_append, List.append_nil,
      Holdings.ofBuffers_append]
    abel

end Construction

theorem ofNulls_buffers (rows : Nat) : (ofNulls rows).buffers = [] := by
  simp [ofNulls, buffers, buffersOfAll]

theorem emptied_buffers (column : Column) : column.emptied.buffers = [] := by
  simp [emptied, buffers, buffersOfAll]

end Column

include custodial in
theorem Table.ofColumns_custody (held : Holdings) (device : Device) (columns : List Column) :
    Triple (keeps (held + .ofBuffers (Column.buffersOfAll columns)))
      (Table.ofColumns device columns)
      (fun table => keeps (held + .ofBuffers (Column.buffersOfAll table.columns)))
      (keeps held) := by
  intro machine custody
  unfold Table.ofColumns
  cases Table.unevenColumn? columns with
  | none => exact custody
  | some error => exact custodial.freeAll custody

namespace Column

include custodial in
/-- A slot holds what its buffer owns. A buffer without an address owns nothing, so it can be left
out. -/
theorem slot_custody {held : Holdings} {buffer : Option Buffer} {machine : Machine}
    (custody : keeps (held + .ofBuffers buffer.toList) machine) :
    keeps (held + .ofBuffers (slot buffer).toList) machine := by
  cases buffer with
  | none => exact custody
  | some buffer =>
      cases somewhere : buffer.address with
      | some address => simpa [slot, Option.filter, somewhere] using custody
      | none =>
          have freed := custodial.free custody
          rw [Buffer.free, somewhere] at freed
          simpa [slot, Option.filter, somewhere] using freed

section Conversion

include custodial admitted

theorem convertedData_custody (held : Holdings) (column : Column) :
    Triple (keeps held) (column.convertedData resource)
      (fun converted => keeps (held + .ofBuffers converted.toList))
      (keeps held) := by
  unfold convertedData
  split
  · exact (NarrowDecimal.widenAt_custody custodial admitted held _ _ _).bind fun _ =>
      Triple.pure fun _ custody => custody
  · exact (NarrowDecimal.widenAt_custody custodial admitted held _ _ _).bind fun _ =>
      Triple.pure fun _ custody => custody
  · exact (Bitmask.ofBooleans_custody custodial admitted held _ _).bind fun _ =>
      Triple.pure fun _ custody => custody
  · exact Triple.pure fun _ custody => Holdings.of_eq custody (add_zero held).symm

/-- The array takes over all that the column owned; if the conversion fails, the column keeps it. -/
theorem toArray_custody (held : Holdings) (column : Column) :
    Triple (keeps (held + .ofBuffers column.buffers)) (column.toArray resource)
      (fun node => keeps (held + .ofBuffers node.buffers))
      (keeps (held + .ofBuffers column.buffers)) := by
  unfold toArray
  apply (Triple.check _).bind
  intro _
  split_ifs with empty
  · have emptied : Triple (keeps (held + .ofBuffers column.buffers))
        (Action.modify column.free : ColumnAction Unit) (fun _ => keeps held)
        (keeps (held + .ofBuffers column.buffers)) :=
      Triple.modify fun _ custody => custodial.freeAll custody
    refine emptied.bind fun _ => Triple.pure fun _ custody => Holdings.of_eq custody ?_
    simp [ArrayNode.make, ArrayNode.buffers, ArrayNode.buffersOfAll]
  · apply (convertedData_custody custodial admitted _ column).mapFault.bind
    intro converted machine custody
    have moved : keeps
        (held + .ofBuffers column.mask.toList + .ofBuffers (converted <|> column.data).toList)
        (Buffer.freeAll ((if converted.isSome then column.data.toList else []) ++
          buffersOfAll column.children) machine) := by
      refine custodial.freeAll (Holdings.of_eq custody ?_)
      obtain ⟨type, rows, data, mask, nulls, children⟩ := column
      cases converted with
      | none =>
          simp [buffers]
          abel
      | some buffer =>
          simp [buffers]
          abel
    have filled := slot_custody custodial
      (Holdings.of_eq (slot_custody custodial moved) (add_right_comm _ _ _))
    apply Holdings.of_eq filled
    have slots (mask data : Option Buffer) :
        [mask, data].filterMap id = mask.toList ++ data.toList := by
      cases mask <;> cases data <;> rfl
    simp only [ArrayNode.make, ArrayNode.buffers, ArrayNode.buffersOfAll, List.nil_append, slots,
      Holdings.ofBuffers_append]
    abel

/-- However far the work got, all that the columns owned is in the arrays made or in the columns as
they are now. -/
theorem convertAll_custody (held : Holdings) {columns : List Column} {machine : Machine}
    (custody : keeps (held + .ofBuffers (buffersOfAll columns)) machine) :
    let (conversion, after) := convertAll resource columns machine
    keeps (held + .ofBuffers (ArrayNode.buffersOfAll conversion.nodes) +
      .ofBuffers (buffersOfAll conversion.columns)) after := by
  induction columns generalizing held machine with
  | nil => simpa [convertAll, buffersOfAll, ArrayNode.buffersOfAll] using custody
  | cons column rest induction =>
      have own : keeps
          (held + .ofBuffers (buffersOfAll rest) + .ofBuffers column.buffers) machine := by
        apply Holdings.of_eq custody
        simp only [buffersOfAll, Holdings.ofBuffers_append]
        abel
      unfold convertAll
      rcases ran : column.toArray resource machine with ⟨fault | node, after⟩
      · refine Holdings.of_eq ((toArray_custody custodial admitted _ column).error own ran) ?_
        simp only [buffersOfAll, ArrayNode.buffersOfAll, Holdings.ofBuffers_append,
          Holdings.ofBuffers_nil]
        abel
      · have made := (toArray_custody custodial admitted _ column).ok own ran
        have next := induction (held + .ofBuffers node.buffers)
          (Holdings.of_eq made (add_right_comm _ _ _))
        simp only
        apply Holdings.of_eq next
        simp only [buffersOfAll, ArrayNode.buffersOfAll, emptied_buffers, List.nil_append,
          Holdings.ofBuffers_append]
        abel

end Conversion

end Column

include custodial admitted in
/-- An exported table leaves all that its columns owned with the array and with the columns that are
left, a failed one with the columns that are left; what only the conversion held is given back. -/
theorem Table.toDeviceArray_custody (held : Holdings) {table : Table} {machine : Machine}
    (custody : keeps (held + .ofBuffers (Column.buffersOfAll table.columns)) machine) :
    let (outcome, remaining, after) := table.toDeviceArray resource machine
    let exported := match outcome with
      | .ok exported => exported.array.buffers
      | .error _ => []
    keeps (held + .ofBuffers exported +
      .ofBuffers (Column.buffersOfAll remaining.columns)) after := by
  unfold Table.toDeviceArray
  cases Table.checkArrays table.columns with
  | error fault => exact Holdings.of_eq custody (by simp)
  | ok checked =>
      have converted :=
        Column.convertAll_custody custodial admitted held (custodial.createEvent custody)
      simp only
      cases (Column.convertAll resource table.columns machine.createEvent.2).1.fault with
      | some fault =>
          refine custodial.freeAll (Holdings.of_eq converted ?_)
          simp only [Holdings.ofBuffers_nil]
          abel
      | none =>
          apply Holdings.of_eq converted
          simp [ArrayNode.make, ArrayNode.buffers]

namespace ArrayNode

theorem spent_buffers (node : ArrayNode) : node.spent.buffers = [] := by
  simp [spent, buffers]

include custodial in
theorem release_custody {held : Holdings} {node : ArrayNode} {machine : Machine}
    (custody : keeps (held + .ofBuffers node.buffers) machine) :
    keeps (held + .ofBuffers (node.release machine).1.buffers)
      (node.release machine).2 := by
  rw [release, spent_buffers]
  exact Holdings.of_eq (custodial.freeAll custody) (add_zero held).symm

theorem buffersOfAll_set {children : List ArrayNode} {index : Nat} {child other : ArrayNode}
    (found : children[index]? = some child) (emptied : other.buffers = []) :
    Holdings.ofBuffers (buffersOfAll children) =
      .ofBuffers child.buffers + .ofBuffers (buffersOfAll (children.set index other)) := by
  induction children generalizing index with
  | nil => simp at found
  | cons first rest induction =>
      cases index with
      | zero =>
          simp only [List.getElem?_cons_zero, Option.some.injEq] at found
          subst found
          simp [buffersOfAll, emptied]
      | succ index =>
          rw [List.getElem?_cons_succ] at found
          simp only [List.set_cons_succ, buffersOfAll, Holdings.ofBuffers_append, induction found]
          abel

theorem moveChild?_holdings {node child rest : ArrayNode} {index : Nat}
    (moved : node.moveChild? index = some (child, rest)) :
    Holdings.ofBuffers node.buffers = .ofBuffers child.buffers + .ofBuffers rest.buffers := by
  cases node with
  | released => simp [moveChild?] at moved
  | held length nullCount slots children event =>
      obtain ⟨found, inside, equal⟩ := Option.map_eq_some_iff.mp moved
      obtain ⟨rfl, rfl⟩ := Prod.mk.inj equal
      simp only [buffers, Holdings.ofBuffers_append, buffersOfAll_set inside (spent_buffers found)]
      abel

end ArrayNode

end DeviceColumns
