import DeviceColumns.Proofs.Memory.Ranges
import DeviceColumns.Proofs.Sharing.Layout

/-!
Sharing with and without the check of the memory kind. Both ask for the same handles in the same
order: types, shapes and names are judged before any memory is looked at, and then the buffers are
visited column by column, data and mask before the children. The kind of an address and the block
behind its handle come from the same look-up, so both ways of sharing stop at the same buffer, the
first one that no live block owns; only what they report there differs. The two runs are followed
together, as one computation that depends on whether the check is made.
-/

namespace DeviceColumns

set_option autoImplicit false

namespace Heap

variable {heap : Heap} {address : Nat} {addresses more : List Nat}

/-- Some live block owns the address. -/
def Hosts (heap : Heap) (address : Nat) : Prop :=
  ∃ block ∈ heap.blocks, block.Owns address

/-- The first of the addresses that no live block owns. -/
def FirstOutside (heap : Heap) (addresses : List Nat) (address : Nat) : Prop :=
  ∃ before after, addresses = before ++ address :: after ∧
    (∀ earlier ∈ before, heap.Hosts earlier) ∧ ¬heap.Hosts address

theorem FirstOutside.append (first : heap.FirstOutside addresses address) (more : List Nat) :
    heap.FirstOutside (addresses ++ more) address := by
  obtain ⟨before, after, rfl, inside, outside⟩ := first
  exact ⟨before, after ++ more, List.append_assoc _ _ _, inside, outside⟩

theorem FirstOutside.behind (inside : ∀ earlier ∈ addresses, heap.Hosts earlier)
    (first : heap.FirstOutside more address) : heap.FirstOutside (addresses ++ more) address := by
  obtain ⟨before, after, rfl, insideMore, outside⟩ := first
  refine ⟨addresses ++ before, after, (List.append_assoc _ _ _).symm, ?_, outside⟩
  exact List.forall_mem_append.mpr ⟨inside, insideMore⟩

theorem FirstOutside.unique {other : Nat} (first : heap.FirstOutside addresses address)
    (second : heap.FirstOutside addresses other) : address = other := by
  obtain ⟨before, after, rfl, inside, outside⟩ := first
  obtain ⟨before', after', same, inside', outside'⟩ := second
  obtain ⟨gap, rfl, rest⟩ | ⟨gap, rfl, rest⟩ := List.append_eq_append_iff.mp same
  · cases gap with
    | nil => exact (List.cons.inj rest).1
    | cons head gap =>
        obtain ⟨rfl, -⟩ := List.cons.inj rest
        exact absurd (inside' address (by simp)) outside
  · cases gap with
    | nil => exact (List.cons.inj rest).1.symm
    | cons head gap =>
        obtain ⟨rfl, -⟩ := List.cons.inj rest
        exact absurd (inside other (by simp)) outside'

theorem FirstOutside.not_all (first : heap.FirstOutside addresses address) :
    ¬∀ found ∈ addresses, heap.Hosts found := by
  obtain ⟨before, after, rfl, -, outside⟩ := first
  exact fun all => outside (all address (by simp))

/-- The block that owns an address is found, and so is its handle. -/
theorem Hosts.handleAt (hosted : heap.Hosts address) :
    ∃ place, heap.handleAt address = .ok place := by
  obtain ⟨block, live, owns⟩ := hosted
  cases found : heap.blockAt? address with
  | none => exact absurd owns (blockAt?_eq_none found live)
  | some owner =>
      obtain ⟨ownerLive, -⟩ := owns_of_blockAt? found
      cases based : heap.blockFrom? owner.base with
      | none =>
          have absent := List.find?_eq_none.mp based owner ownerLive
          simp at absent
      | some first =>
          refine ⟨⟨.issue owner.base first.size, address - owner.base⟩, ?_⟩
          simp only [Heap.handleAt, addressRange, found, issueHandle, based, bind, Except.bind,
            pure, Except.pure]

theorem handleAt_outside (outside : ¬heap.Hosts address) :
    heap.handleAt address = .error (.outsideBlocks address) := by
  cases found : heap.blockAt? address with
  | some owner => exact absurd ⟨owner, owns_of_blockAt? found⟩ outside
  | none => simp only [Heap.handleAt, addressRange, found, bind, Except.bind]

theorem memoryKind_outside (outside : ¬heap.Hosts address) :
    heap.memoryKind address = .unregistered := by
  cases kind : heap.memoryKind address with
  | device => exact absurd (memoryKind_iff.mp kind) outside
  | unregistered => rfl

end Heap

namespace View

variable {heap : Heap} {Value Next : Type} {addresses more : List Nat}

/-- The addresses of the view's own buffers, data first. -/
def buffers (view : View) : List Nat := view.data.toList ++ view.mask.toList

/-- What is said about an address that no live block owns. -/
def outsideReport (strict : Bool) (address : Nat) : Error :=
  if strict then .device (.notShareable address .unregistered) else .device (.outsideBlocks address)

/-- What asking for the buffers at the addresses comes to, with the check and without: the same
value if all are hosted, or else each way's report of the first one that is not. -/
inductive AsksAlike (heap : Heap) (addresses : List Nat) (run : Bool → Except Error Value) : Prop
  | granted (value : Value) (inside : ∀ address ∈ addresses, heap.Hosts address)
      (same : ∀ strict, run strict = .ok value)
  | stopped (address : Nat) (first : heap.FirstOutside addresses address)
      (reported : ∀ strict, run strict = .error (outsideReport strict address))

namespace AsksAlike

theorem pure (value : Value) : AsksAlike heap [] fun _ => .ok value :=
  .granted value (by simp) fun _ => rfl

/-- What is asked second is only asked if the first was granted, and then both ways go on from the
same value. -/
theorem bind {run : Bool → Except Error Value} {next : Bool → Value → Except Error Next}
    (first : AsksAlike heap addresses run)
    (second : ∀ value, AsksAlike heap more fun strict => next strict value) :
    AsksAlike heap (addresses ++ more) fun strict => run strict >>= next strict := by
  cases first with
  | stopped address outside reported =>
      refine .stopped address (outside.append more) fun strict => ?_
      rw [reported strict]
      rfl
  | granted value inside same =>
      cases second value with
      | stopped address outside reported =>
          refine .stopped address (outside.behind inside) fun strict => ?_
          rw [same strict]
          exact reported strict
      | granted result insideMore sameMore =>
          have all := List.forall_mem_append.mpr ⟨inside, insideMore⟩
          refine .granted result all fun strict => ?_
          rw [same strict]
          exact sameMore strict

theorem map {run : Bool → Except Error Value} (first : AsksAlike heap addresses run)
    (wrap : Value → Next) : AsksAlike heap addresses fun strict => (run strict).map wrap := by
  cases first with
  | stopped address outside reported =>
      exact .stopped address outside fun strict => by rw [reported strict]; rfl
  | granted value inside same =>
      exact .granted (wrap value) inside fun strict => by rw [same strict]; rfl

end AsksAlike

theorem describe_alike (heap : Heap) (address size : Nat) :
    AsksAlike heap [address] fun strict => describe heap strict address size := by
  by_cases hosted : heap.Hosts address
  · obtain ⟨place, found⟩ := hosted.handleAt
    have kind : heap.memoryKind address = .device := Heap.memoryKind_iff.mpr hosted
    refine .granted ⟨place.handle.bytes, UInt64.ofNat place.offset, UInt64.ofNat size⟩
      (List.forall_mem_singleton.mpr hosted) fun strict => ?_
    simp [describe, kind, found]
  · have kind := Heap.memoryKind_outside hosted
    have missing := Heap.handleAt_outside hosted
    refine .stopped address ⟨[], [], rfl, by simp, hosted⟩ fun strict => ?_
    cases strict <;> simp [describe, kind, missing, outsideReport]

theorem describe?_alike (heap : Heap) (address : Option Nat) (size : Nat) :
    AsksAlike heap address.toList fun strict => describe? heap strict address size := by
  cases address with
  | none => exact .pure none
  | some found => exact (describe_alike heap found size).map some

theorem handlesOfAll_alike {views : List View}
    (each : ∀ view ∈ views,
      AsksAlike heap (view.nodes.flatMap buffers) fun strict => view.handles heap strict) :
    AsksAlike heap ((nodesOfAll views).flatMap buffers) fun strict =>
      handlesOfAll heap strict views := by
  induction views with
  | nil => exact .pure []
  | cons view rest induction =>
      have others := induction fun other member => each other (List.mem_cons_of_mem view member)
      rw [nodesOfAll, List.flatMap_append]
      refine (each view List.mem_cons_self).bind fun tree => ?_
      exact others.map (tree :: ·)

/-- The induction follows the children, whose buffers are visited behind the view's own. -/
theorem handles_alike (heap : Heap) (view : View) :
    AsksAlike heap (view.nodes.flatMap buffers) fun strict => view.handles heap strict := by
  induction view with
  | node view induction =>
      have below := handlesOfAll_alike induction
      rw [nodes_eq, List.flatMap_cons, buffers, List.append_assoc]
      obtain ⟨type, rows, data, mask, nullCount, children⟩ := view
      refine (describe?_alike heap data _).bind fun described => ?_
      refine (describe?_alike heap mask _).bind fun validity => ?_
      exact below.map
        (HandleTree.mk (UInt64.ofNat rows) (UInt64.ofNat nullCount) described validity)

end View

namespace TableView

variable {table : TableView} {names : List NameTree} {heap : Heap}

/-- The addresses of all buffers of the table, in the order in which handles are asked for. -/
def buffers (table : TableView) : List Nat := (View.nodesOfAll table.columns).flatMap View.buffers

/-- What is judged before any memory is looked at: the types and shapes of all columns, and then the
names. -/
def described (table : TableView) (names : List NameTree) : Except Error Schema := do
  View.checkShareableAll table.columns
  table.schema names

theorem share_eq (table : TableView) (names : List NameTree) (strict : Bool) (heap : Heap) :
    table.share names strict heap = do
      let schema ← table.described names
      let trees ← View.handlesOfAll heap strict table.columns
      return Message.encode {
        version := Message.currentVersion
        deviceCode := Int32.ofInt table.device.kind.code
        deviceId := Int64.ofInt table.device.id
        schema := schema
        columns := trees } := by
  unfold share toMessage described
  cases View.checkShareableAll table.columns with
  | error fault => rfl
  | ok _ =>
      cases table.schema names with
      | error fault => rfl
      | ok schema =>
          cases View.handlesOfAll heap strict table.columns <;> rfl

theorem share_undescribed {fault : Error} (judged : table.described names = .error fault)
    (strict : Bool) : table.share names strict heap = .error fault := by
  rw [share_eq, judged]
  rfl

theorem share_alike {schema : Schema} (judged : table.described names = .ok schema)
    (heap : Heap) :
    View.AsksAlike heap table.buffers fun strict => table.share names strict heap := by
  have handled : View.AsksAlike heap table.buffers fun strict =>
      View.handlesOfAll heap strict table.columns :=
    View.handlesOfAll_alike fun view _ => view.handles_alike heap
  simp only [share_eq, judged]
  exact handled.map _

/-- Checking the memory kind decides nothing: what is shared, and in which bytes, is the same with
the check and without. Both fail alike before memory is looked at, and at the same buffer after
that, the first one that no live block owns, where the check has a name of its own for the fault. -/
structure CheckOnlyRenames (table : TableView) (names : List NameTree) (heap : Heap) : Prop where
  accepts : ∀ bytes, table.share names true heap = .ok bytes ↔
    table.share names false heap = .ok bytes
  fails : ∀ strictly relaxed, table.share names true heap = .error strictly →
    table.share names false heap = .error relaxed →
    strictly = relaxed ∨ ∃ address, heap.FirstOutside table.buffers address ∧
      strictly = .device (.notShareable address .unregistered) ∧
      relaxed = .device (.outsideBlocks address)
  early : ∀ fault, table.described names = .error fault →
    ∀ strict, table.share names strict heap = .error fault
  outside : ∀ schema address, table.described names = .ok schema →
    heap.FirstOutside table.buffers address → ∃ strictly relaxed,
      table.share names true heap = .error strictly ∧
      strictly = .device (.notShareable address .unregistered) ∧
      strictly.kind = .device .unsupportedMemory ∧
      table.share names false heap = .error relaxed ∧
      relaxed = .device (.outsideBlocks address) ∧
      relaxed.kind = .device .invalidArgument
  inside : ∀ schema, table.described names = .ok schema →
    (∀ address ∈ table.buffers, heap.Hosts address) →
    ∃ bytes, ∀ strict, table.share names strict heap = .ok bytes

theorem check_only_renames (table : TableView) (names : List NameTree) (heap : Heap) :
    table.CheckOnlyRenames names heap where
  early := fun _ judged => share_undescribed judged
  inside := fun _ judged inside => by
    cases share_alike judged heap with
    | granted bytes _ same => exact ⟨bytes, same⟩
    | stopped address first _ => exact absurd inside first.not_all
  outside := fun _ address judged first => by
    cases share_alike judged heap with
    | granted _ inside _ => exact absurd inside first.not_all
    | stopped other outside reported =>
        obtain rfl := first.unique outside
        exact ⟨_, _, reported true, rfl, rfl, reported false, rfl, rfl⟩
  accepts := fun bytes => by
    cases judged : table.described names with
    | error fault => rw [share_undescribed judged, share_undescribed judged]
    | ok schema =>
        cases share_alike judged heap with
        | granted value _ same => rw [same true, same false]
        | stopped address _ reported => simp [reported]
  fails := fun strictly relaxed checked unchecked => by
    cases judged : table.described names with
    | error fault =>
        rw [share_undescribed judged] at checked unchecked
        exact .inl (Except.error.inj (checked.symm.trans unchecked))
    | ok schema =>
        cases share_alike judged heap with
        | granted value _ same =>
            rw [same] at checked
            cases checked
        | stopped address first reported =>
            rw [reported] at checked unchecked
            exact .inr ⟨address, first, (Except.error.inj checked).symm,
              (Except.error.inj unchecked).symm⟩

/-- The mask of the second column lies nowhere, behind two buffers that do not exist. -/
example :
    let table : TableView := ⟨.host, [⟨⟨.int32, 0⟩, 0, none, none, 0, []⟩,
      ⟨⟨.int8, 0⟩, 1, none, some 64, 0, []⟩]⟩
    table.share [.leaf "a", .leaf "b"] true (.empty .small) =
        .error (.device (.notShareable 64 .unregistered)) ∧
      table.share [.leaf "a", .leaf "b"] false (.empty .small) = .error (.device (.outsideBlocks 64)) :=
  ⟨rfl, rfl⟩

end TableView

end DeviceColumns
