import DeviceColumns.Proofs.Memory.Blocks
import DeviceColumns.Proofs.Triple
import DeviceColumns.Share.Import
import Mathlib.Algebra.Order.Group.Multiset
import Mathlib.Tactic.Abel

/-!
What opening a message does, said once for all that is proved about it. A message that opens is
related column by column to the views and owners that come out. On the way mappings are opened, and
closed again after a failure; so a condition that opening and closing one mapping respect holds in
the end of exactly the mappings that the owners list, and after a failure of none but the old ones.
-/

namespace DeviceColumns

set_option autoImplicit false

open DeviceColumns.Action

/-- The base that the handle of the buffer names, if it is a handle at all. -/
def Descriptor.base? (descriptor : Descriptor) : Option Nat :=
  (Handle.ofBytes? descriptor.handle).toOption.map Handle.base

namespace HandleTree

mutual

/-- The buffers that the tree describes at all depths, in the order in which they are opened. -/
def descriptors : HandleTree → List Descriptor
  | ⟨_, _, data, validity, children⟩ =>
      data.toList ++ validity.toList ++ descriptorsOfAll children

def descriptorsOfAll : List HandleTree → List Descriptor
  | [] => []
  | tree :: rest => tree.descriptors ++ descriptorsOfAll rest

end

end HandleTree

namespace Handle

theorem check_ok {handle : Handle} {heap : Heap} (checked : handle.check heap = .ok ()) :
    ∃ block, heap.blockFrom? handle.base = some block := by
  unfold check at checked
  split_ifs at checked
  cases found : heap.blockFrom? handle.base with
  | none => simp [found] at checked
  | some block => exact ⟨block, rfl⟩

end Handle

theorem Mapping.close_heap (mapping : Mapping) (machine : Machine) :
    (mapping.close machine).heap = machine.heap := by
  unfold Mapping.close
  split <;> rfl

namespace SharedTable

/-- The buffer lies in the live block that its handle names, and was opened at its address there. -/
structure OpenedBuffer (heap : Heap) (descriptor : Descriptor) (mapping : Mapping)
    (address : Nat) : Prop where
  base : descriptor.base? = some mapping.base
  address : address = mapping.base + descriptor.offset.toNat
  within : ∃ block, heap.blockFrom? mapping.base = some block ∧
    descriptor.offset.toNat + descriptor.size.toNat ≤ block.size

inductive OpenedBuffer? (heap : Heap) :
    Option Descriptor → Option Mapping → Option Nat → Prop where
  | absent : OpenedBuffer? heap none none none
  | present {descriptor : Descriptor} {mapping : Mapping} {address : Nat}
      (buffer : OpenedBuffer heap descriptor mapping address) :
      OpenedBuffer? heap (some descriptor) (some mapping) (some address)

mutual

/-- Under a field of this name and type the handle tree was opened as the view, with the owner. -/
inductive Opened (heap : Heap) : String → ArrowType → HandleTree → View → SharedColumn → Prop where
  | column {name : String} {arrow : ArrowType} {type : ColumnType} {rows nullCount : UInt64}
      {data validity : Option Descriptor} {trees : List HandleTree}
      {dataMapping maskMapping : Option Mapping} {dataAddress maskAddress : Option Nat}
      {views : List View} {owners : List SharedColumn}
      (typed : columnType arrow = .ok type)
      (dataSpan : checkSpan .data name data (type.logical.width?.map (rows.toNat * ·)) = .ok ())
      (maskSpan : checkSpan .validity name validity (some (Bitmask.pieces rows.toNat 8)) = .ok ())
      (dataOpened : OpenedBuffer? heap data dataMapping dataAddress)
      (maskOpened : OpenedBuffer? heap validity maskMapping maskAddress)
      (parts : OpenedAll heap (childTypes arrow) trees views owners) :
      Opened heap name arrow ⟨rows, nullCount, data, validity, trees⟩
        ⟨type, rows.toNat, dataAddress, maskAddress, nullCount.toNat, views⟩
        ⟨name, dataMapping, maskMapping, owners⟩

/-- As many fields as handle trees, and each of these was opened under its field. -/
inductive OpenedAll (heap : Heap) : List (String × ArrowType) → List HandleTree → List View →
    List SharedColumn → Prop where
  | nil : OpenedAll heap [] [] [] []
  | cons {name : String} {arrow : ArrowType} {tree : HandleTree} {view : View}
      {owner : SharedColumn} {types : List (String × ArrowType)} {trees : List HandleTree}
      {views : List View} {owners : List SharedColumn}
      (first : Opened heap name arrow tree view owner)
      (rest : OpenedAll heap types trees views owners) :
      OpenedAll heap ((name, arrow) :: types) (tree :: trees) (view :: views) (owner :: owners)

end

/-- A condition on a machine with this heap and these open mappings that is respected when one more
is opened and when one of them is closed. -/
structure Tracks (heap : Heap) (Holds : Multiset Mapping → Machine → Prop) : Prop where
  on : ∀ {held : Multiset Mapping} {machine : Machine}, Holds held machine → machine.heap = heap
  opens : ∀ {held : Multiset Mapping} {machine : Machine} (base : Nat), Holds held machine →
    Holds (held + {⟨base⟩}) { machine with mappings := machine.mappings.insert base }
  closes : ∀ {held : Multiset Mapping} {machine : Machine} {mapping : Mapping},
    Holds (held + {mapping}) machine → Holds held (mapping.close machine)

namespace Tracks

variable {heap : Heap} {Holds : Multiset Mapping → Machine → Prop} {held : Multiset Mapping}

theorem closeAll (tracks : Tracks heap Holds) {mappings : List Mapping} {machine : Machine}
    (holds : Holds (held + mappings) machine) : Holds held (Mapping.closeAll mappings machine) := by
  induction mappings generalizing machine with
  | nil => simpa [Mapping.closeAll] using holds
  | cons mapping rest induction =>
      refine induction (tracks.closes ?_)
      rw [← Multiset.cons_coe, ← Multiset.singleton_add, add_left_comm, add_comm] at holds
      exact holds

theorem openHandle (tracks : Tracks heap Holds) (handle : Handle) :
    Triple (Holds held) (Mapping.openHandle handle)
      (fun mapping machine => (mapping.base = handle.base ∧
        ∃ block, heap.blockFrom? mapping.base = some block) ∧ Holds (held + {mapping}) machine)
      (Holds held) := by
  intro machine holds
  unfold Mapping.openHandle
  cases checked : handle.check machine.heap with
  | error cause => exact holds
  | ok done =>
      have live := Handle.check_ok checked
      rw [tracks.on holds] at live
      exact ⟨⟨rfl, live⟩, tracks.opens handle.base holds⟩

/-- A buffer is opened only if all of its bytes are in the block that its handle names. -/
theorem openBuffer (tracks : Tracks heap Holds) (descriptor : Descriptor) :
    Triple (Holds held) (SharedTable.openBuffer descriptor)
      (fun opened machine => OpenedBuffer heap descriptor opened.1 opened.2 ∧
        Holds (held + {opened.1}) machine)
      (Holds held) := by
  unfold SharedTable.openBuffer
  apply Triple.bindFact (Triple.checked _ fun _ holds => holds)
  intro handle sized
  have named : descriptor.base? = some handle.base := by
    cases whole : Handle.ofBytes? descriptor.handle with
    | error cause => simp [whole, Except.mapError] at sized
    | ok other =>
        simp only [whole, Except.mapError, Except.ok.injEq] at sized
        rw [Descriptor.base?, whole, sized]
        rfl
  apply (tracks.openHandle handle).mapFault.bindFact
  intro mapping mapped
  obtain ⟨same, block, found⟩ := mapped
  refine Triple.undoOnFailure ?_ fun _ (holds : Holds (held + {mapping}) _) => tracks.closes holds
  apply Triple.get.bind
  intro machine
  rintro state ⟨rfl, holds⟩
  rw [tracks.on holds, Heap.addressRange_base found]
  simp only [Except.mapError, Action.ofExcept, bind_apply]
  split_ifs with fits
  · exact ⟨⟨same ▸ named, rfl, block, found, fits⟩, holds⟩
  · exact holds

theorem openBuffer? (tracks : Tracks heap Holds) (descriptor : Option Descriptor) :
    Triple (Holds held) (SharedTable.openBuffer? descriptor)
      (fun opened machine => OpenedBuffer? heap descriptor opened.1 opened.2 ∧
        Holds (held + opened.1.toList) machine)
      (Holds held) := by
  unfold SharedTable.openBuffer?
  cases descriptor with
  | none => exact Triple.pure fun _ holds => ⟨.absent, by simpa using holds⟩
  | some found =>
      apply (tracks.openBuffer found).bindFact
      intro opened buffer
      exact Triple.pure fun _ holds => ⟨.present buffer, holds⟩

mutual

theorem openColumn (tracks : Tracks heap Holds) (held : Multiset Mapping) (name : String)
    (arrow : ArrowType) (tree : HandleTree) :
    Triple (Holds held) (SharedTable.openColumn name arrow tree)
      (fun opened machine => Opened heap name arrow tree opened.1 opened.2 ∧
        Holds (held + opened.2.mappings) machine)
      (Holds held) := by
  obtain ⟨rows, nullCount, data, validity, children⟩ := tree
  unfold SharedTable.openColumn
  apply Triple.bindFact (Triple.checked _ fun _ holds => holds)
  intro type typed
  apply Triple.bindFact (Triple.checked _ fun _ holds => holds)
  intro _ dataSpan
  apply Triple.bindFact (Triple.checked _ fun _ holds => holds)
  intro _ maskSpan
  apply (tracks.openBuffer? data).bindFact
  rintro ⟨dataMapping, dataAddress⟩ dataOpened
  refine Triple.bindFact ((tracks.openBuffer? validity).undoOnFailure
    fun _ holds => tracks.closeAll holds) ?_
  rintro ⟨maskMapping, maskAddress⟩ maskOpened
  have parts : Triple (Holds (held + dataMapping.toList + maskMapping.toList))
      (if (childTypes arrow).length = children.length then
          SharedTable.openColumns (childTypes arrow) children
        else Action.fail (.childTrees name children.length (childTypes arrow).length))
      (fun opened machine => OpenedAll heap (childTypes arrow) children opened.1 opened.2 ∧
        Holds (held + dataMapping.toList + maskMapping.toList +
          SharedColumn.mappingsOfAll opened.2) machine)
      (Holds (held + dataMapping.toList + maskMapping.toList)) := by
    split_ifs with matching
    · exact openColumns tracks _ (childTypes arrow) children matching
    · exact Triple.fail fun _ holds => holds
  refine Triple.bindFact (parts.undoOnFailure fun _ holds => tracks.closeAll ?_) ?_
  · rwa [add_assoc, add_comm (dataMapping.toList : Multiset Mapping), Multiset.coe_add] at holds
  · rintro ⟨views, owners⟩ partsOpened
    refine Triple.pure fun _ holds =>
      ⟨.column typed dataSpan maskSpan dataOpened maskOpened partsOpened, ?_⟩
    rwa [add_assoc, add_assoc, Multiset.coe_add, Multiset.coe_add, ← List.append_assoc] at holds

theorem openColumns (tracks : Tracks heap Holds) (held : Multiset Mapping)
    (types : List (String × ArrowType)) (trees : List HandleTree)
    (matching : types.length = trees.length) :
    Triple (Holds held) (SharedTable.openColumns types trees)
      (fun opened machine => OpenedAll heap types trees opened.1 opened.2 ∧
        Holds (held + SharedColumn.mappingsOfAll opened.2) machine)
      (Holds held) := by
  cases types with
  | nil =>
      cases trees with
      | cons => contradiction
      | nil =>
          unfold SharedTable.openColumns
          exact Triple.pure fun _ holds => ⟨.nil, by simpa [SharedColumn.mappingsOfAll] using holds⟩
  | cons type types =>
      cases trees with
      | nil => contradiction
      | cons tree trees =>
          obtain ⟨name, arrow⟩ := type
          unfold SharedTable.openColumns
          apply (openColumn tracks held name arrow tree).bindFact
          rintro ⟨view, owner⟩ first
          refine Triple.bindFact ((openColumns tracks _ types trees
            (Nat.succ.inj matching)).undoOnFailure fun _ holds => tracks.closeAll holds) ?_
          rintro ⟨views, owners⟩ rest
          refine Triple.pure fun _ holds => ⟨.cons first rest, ?_⟩
          rwa [add_assoc, Multiset.coe_add] at holds

end

theorem ofMessage (tracks : Tracks heap Holds) (held : Multiset Mapping) (message : Message) :
    Triple (Holds held) (SharedTable.ofMessage message)
      (fun table machine => OpenedAll heap
          (message.schema.fields.map fun field => (field.name, field.type)) message.columns
          table.view.columns table.owners ∧
        Holds (held + SharedColumn.mappingsOfAll table.owners) machine)
      (Holds held) := by
  unfold SharedTable.ofMessage
  simp only
  split
  · apply Triple.pass
    split
    · apply Triple.pass
      split_ifs with different
      · exact Triple.stop fun _ holds => holds
      · have matching : (message.schema.fields.map fun field => (field.name, field.type)).length =
            message.columns.length := by
          rw [List.length_map]
          exact not_not.mp different
        apply (openColumns tracks held _ message.columns matching).bind
        intro opened
        exact Triple.pure fun _ holds => holds
    · exact Triple.stop fun _ holds => holds
  · exact Triple.stop fun _ holds => holds

theorem ofBytes (tracks : Tracks heap Holds) (held : Multiset Mapping) (bytes : Bytes) :
    Triple (Holds held) (SharedTable.ofBytes bytes)
      (fun table machine => (∃ message, Message.decode bytes = .ok message ∧ OpenedAll heap
          (message.schema.fields.map fun field => (field.name, field.type)) message.columns
          table.view.columns table.owners) ∧
        Holds (held + SharedColumn.mappingsOfAll table.owners) machine)
      (Holds held) := by
  apply Triple.bindFact (Triple.checked _ fun _ holds => holds)
  intro message decoded
  exact (tracks.ofMessage held message).conseq (fun _ holds => holds)
    (fun _ _ holds => ⟨⟨message, decoded, holds.1⟩, holds.2⟩) fun _ holds => holds

end Tracks

end SharedTable

end DeviceColumns
