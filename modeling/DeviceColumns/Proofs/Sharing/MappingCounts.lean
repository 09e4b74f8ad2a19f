import DeviceColumns.Proofs.Memory.Books
import DeviceColumns.Proofs.Sharing.Opening

/-!
Opening a table is all or nothing. A table that opens adds one open mapping for each buffer of its
message, counted under the base that the buffer's handle names. A message that is refused, wherever
that happens, leaves every count as it was. In neither case does anything else change.
-/

namespace DeviceColumns

set_option autoImplicit false

open DeviceColumns.Action

namespace SharedTable

variable {heap : Heap}

/-- The machine has `held` open beyond what it had open before, and is the same otherwise. -/
structure Mapped (before : Machine) (held : Multiset Mapping) (machine : Machine) : Prop where
  others : machine = { before with mappings := machine.mappings }
  counts : ∀ base, machine.mappings.count base = before.mappings.count base + held.count ⟨base⟩

theorem Mapped.refl (machine : Machine) : Mapped machine 0 machine := ⟨rfl, fun _ => rfl⟩

theorem count_singleton (base other : Nat) :
    Multiset.count (⟨other⟩ : Mapping) {⟨base⟩} = if other = base then 1 else 0 := by
  simp [Multiset.count_singleton]

theorem mapped_tracks (before : Machine) : Tracks before.heap (Mapped before) where
  on := fun mapped => by rw [mapped.others]
  opens := by
    intro held machine base mapped
    refine ⟨by rw [mapped.others], fun other => ?_⟩
    rw [MappingTable.count_insert, mapped.counts, Multiset.count_add, count_singleton, add_assoc]
  closes := by
    intro held machine mapping mapped
    have counts (other : Nat) : machine.mappings.count other = before.mappings.count other +
        held.count ⟨other⟩ + if other = mapping.base then 1 else 0 := by
      rw [mapped.counts, Multiset.count_add, add_assoc]
      exact congrArg _ (congrArg _ (count_singleton mapping.base other))
    have counted : machine.mappings.count mapping.base ≠ 0 := by
      rw [counts, if_pos rfl]
      exact Nat.succ_ne_zero _
    obtain ⟨after, closed, fewer⟩ := MappingTable.close?_counted counted
    rw [Mapping.close, closed]
    refine ⟨by rw [mapped.others], fun other => ?_⟩
    have one := fewer other
    rw [counts other] at one
    exact Nat.add_right_cancel one

theorem OpenedBuffer?.bases {descriptor : Option Descriptor} {mapping : Option Mapping}
    {address : Option Nat} (opened : OpenedBuffer? heap descriptor mapping address) :
    mapping.toList.map (fun mapping => some mapping.base) =
      descriptor.toList.map Descriptor.base? := by
  cases opened with
  | absent => rfl
  | present buffer => simp [buffer.base]

mutual

/-- The mappings that an owner keeps open are those of the buffers of its handle tree, in order. -/
theorem Opened.bases {name : String} {arrow : ArrowType} {tree : HandleTree} {view : View}
    {owner : SharedColumn} : Opened heap name arrow tree view owner →
    owner.mappings.map (fun mapping => some mapping.base) = tree.descriptors.map Descriptor.base?
  | .column _ _ _ data mask parts => by
      simp only [SharedColumn.mappings, HandleTree.descriptors, List.map_append, data.bases,
        mask.bases, parts.bases]

theorem OpenedAll.bases {types : List (String × ArrowType)} {trees : List HandleTree}
    {views : List View} {owners : List SharedColumn} : OpenedAll heap types trees views owners →
    (SharedColumn.mappingsOfAll owners).map (fun mapping => some mapping.base) =
      (HandleTree.descriptorsOfAll trees).map Descriptor.base?
  | .nil => rfl
  | .cons first rest => by
      simp only [SharedColumn.mappingsOfAll, HandleTree.descriptorsOfAll, List.map_append,
        first.bases, rest.bases]

end

theorem OpenedAll.count {types : List (String × ArrowType)} {trees : List HandleTree}
    {views : List View} {owners : List SharedColumn}
    (opened : OpenedAll heap types trees views owners) (base : Nat) :
    (SharedColumn.mappingsOfAll owners : Multiset Mapping).count ⟨base⟩ =
      (HandleTree.descriptorsOfAll trees).countP (·.base? = some base) := by
  have bases := congrArg (List.countP fun found => found = some base) opened.bases
  rw [List.countP_map, List.countP_map] at bases
  rw [Multiset.coe_count, List.count]
  refine Eq.trans (List.countP_congr fun mapping _ => ?_) bases
  obtain ⟨other⟩ := mapping
  simp

/-- Opening a table changes nothing but the counts of open mappings. These are as before if it
fails; if it succeeds, a base is mapped once more for each buffer of the message whose handle
names it. -/
theorem ofBytes_all_or_nothing (bytes : Bytes) (machine : Machine) :
    let (outcome, after) := ofBytes bytes machine
    after = { machine with mappings := after.mappings } ∧
      match outcome with
      | .error _ => ∀ base, after.mappings.count base = machine.mappings.count base
      | .ok _ => ∃ message, Message.decode bytes = .ok message ∧ ∀ base,
          after.mappings.count base = machine.mappings.count base +
            (HandleTree.descriptorsOfAll message.columns).countP (·.base? = some base) := by
  have spec := (mapped_tracks machine).ofBytes 0 bytes
  rcases ran : ofBytes bytes machine with ⟨fault | table, after⟩
  · have mapped := spec.error (.refl machine) ran
    exact ⟨mapped.others, mapped.counts⟩
  · obtain ⟨⟨message, decoded, opened⟩, mapped⟩ := spec.ok (.refl machine) ran
    refine ⟨mapped.others, message, decoded, fun base => ?_⟩
    rw [mapped.counts, zero_add, opened.count]

end SharedTable

end DeviceColumns
