import DeviceColumns.Proofs.Columns.HostValues
import DeviceColumns.Proofs.Custody.Runs
import DeviceColumns.Proofs.Kernel.Packing
import DeviceColumns.Proofs.Sharing.Opening

/-!
Opened tables describe live memory only. Three checks together give that for each buffer: the
descriptor spans the rows, its range lies in the block that was mapped, and the handle opens a live
block. What a view describes can therefore be read back in full.
-/

namespace DeviceColumns

set_option autoImplicit false

open DeviceColumns.Action

namespace Heap

variable {heap : Heap} {address length more : Nat}

theorem Covers.mono (covers : heap.Covers address more) (shorter : length ≤ more) :
    heap.Covers address length := by
  obtain ⟨block, live, lower, upper⟩ := covers
  exact ⟨block, live, lower, Nat.le_trans (Nat.add_le_add_left shorter address) upper⟩

end Heap

/-- The rows of the view lie in live blocks, and so does its mask. -/
structure View.Covered (view : View) (heap : Heap) : Prop where
  data : ∀ width address, view.type.logical.width? = some width → view.data = some address →
    heap.Covers address (width * view.rows)
  mask : ∀ address, view.mask = some address → heap.Covers address (Bitmask.pieces view.rows 8)

namespace View.Covered

variable {view : View} {heap : Heap} {address : Nat}

theorem reads_values (covered : view.Covered heap) (formed : heap.WellFormed) {host : HostType}
    (wide : view.type.logical.width? = some host.width) (somewhere : view.data = some address) :
    ∃ values, view.values host heap = .ok values ∧ values.length = view.rows := by
  unfold values
  split_ifs with none
  · exact ⟨[], rfl, none.symm⟩
  · have covers := covered.data host.width address wide somewhere
    rw [Nat.mul_comm] at covers
    have counted : view.rows * host.width < 2 ^ 64 :=
      Nat.lt_of_le_of_lt (formed.covered_length covers) (by decide)
    obtain ⟨bytes, read, length⟩ := formed.read_covered fun _ => covers
    rw [somewhere, Bytes.lengthOf_eq counted]
    refine ⟨(Bytes.slices host.width bytes).map host.decode, by simp only [read], ?_⟩
    rw [List.length_map, Bytes.length_slices, length, Nat.mul_div_cancel _ host.width_pos]

theorem reads_validity (covered : view.Covered heap) (formed : heap.WellFormed)
    (masked : view.mask = some address) :
    ∃ bits, view.validity heap = .ok (some bits) ∧ bits.length = view.rows := by
  obtain ⟨bytes, read, length⟩ := formed.read_covered fun _ => covered.mask address masked
  refine ⟨(Bitmask.unpack bytes).take view.rows, by rw [validity, masked]; simp only [read], ?_⟩
  rw [List.length_take, Bitmask.length_unpack, length, Bitmask.pieces]
  omega

end View.Covered

namespace View

mutual

def nodes : View → List View
  | ⟨type, rows, data, mask, nullCount, children⟩ =>
      ⟨type, rows, data, mask, nullCount, children⟩ :: nodesOfAll children

def nodesOfAll : List View → List View
  | [] => []
  | view :: rest => view.nodes ++ nodesOfAll rest

end

end View

namespace SharedTable

variable {heap : Heap}

abbrev On (heap : Heap) : Machine → Prop := fun machine => machine.heap = heap

theorem checkSpan_ok {role : BufferRole} {name : String} {found : Descriptor} {needed : Nat}
    (checked : checkSpan role name (some found) (some needed) = .ok ()) :
    needed ≤ found.size.toNat := by
  simp only [checkSpan] at checked
  split_ifs at checked with enough
  exact enough

theorem OpenedBuffer?.covers {descriptor : Option Descriptor} {mapping : Option Mapping}
    {address : Option Nat} (opened : OpenedBuffer? heap descriptor mapping address) :
    ∀ place, address = some place → ∃ found, descriptor = some found ∧
      heap.Covers place found.size.toNat := by
  rintro place rfl
  cases opened with
  | @present found mapping address buffer =>
      obtain ⟨block, starts, fits⟩ := buffer.within
      obtain ⟨live, based⟩ := Heap.blockFrom?_some starts
      refine ⟨found, rfl, block, live, ?_, ?_⟩
      · rw [buffer.address, based]
        exact Nat.le_add_right _ _
      · rw [buffer.address, based, Nat.add_assoc]
        exact Nat.add_le_add_left fits _

mutual

theorem Opened.covered {name : String} {arrow : ArrowType} {tree : HandleTree} {view : View}
    {owner : SharedColumn} :
    Opened heap name arrow tree view owner → ∀ node ∈ view.nodes, node.Covered heap
  | .column _ dataSpan maskSpan dataOpened maskOpened parts => by
      rw [View.nodes]
      refine List.forall_mem_cons.mpr ⟨⟨?_, ?_⟩, parts.covered⟩
      · intro width address wide somewhere
        obtain ⟨found, rfl, covers⟩ := dataOpened.covers address somewhere
        rw [wide] at dataSpan
        apply covers.mono
        rw [Nat.mul_comm]
        exact checkSpan_ok dataSpan
      · intro address somewhere
        obtain ⟨found, rfl, covers⟩ := maskOpened.covers address somewhere
        exact covers.mono (checkSpan_ok maskSpan)

theorem OpenedAll.covered {types : List (String × ArrowType)} {trees : List HandleTree}
    {views : List View} {owners : List SharedColumn} :
    OpenedAll heap types trees views owners → ∀ node ∈ View.nodesOfAll views, node.Covered heap
  | .nil => by simp [View.nodesOfAll]
  | .cons first rest => by
      rw [View.nodesOfAll]
      exact List.forall_mem_append.mpr ⟨first.covered, rest.covered⟩

end

theorem on_tracks (heap : Heap) : Tracks heap fun _ => On heap where
  on := id
  opens := fun _ same => same
  closes := fun {_ machine mapping} same => (mapping.close_heap machine).trans same

theorem ofMessage_covers (message : Message) :
    Triple (On heap) (ofMessage message)
      (fun table machine =>
        (∀ node ∈ View.nodesOfAll table.view.columns, node.Covered heap) ∧ On heap machine)
      fun _ => True :=
  ((on_tracks heap).ofMessage 0 message).conseq (fun _ same => same)
    (fun _ _ opened => ⟨opened.1.covered, opened.2⟩) fun _ _ => trivial

/-- Whatever bytes a table is opened from, in whatever state of a session, the views at all depths
describe ranges of live blocks only, and what they describe can be read back in full. -/
theorem opened_within_live_blocks {session : Session} (reached : session.Reached) {bytes : Bytes}
    {table : SharedTable} {after : Machine}
    (opened : ofBytes bytes session.machine = (.ok table, after)) :
    ∀ view ∈ View.nodesOfAll table.view.columns,
      (∀ width address, view.type.logical.width? = some width → view.data = some address →
        after.heap.Covers address (width * view.rows) ∧
        ∀ host : HostType, host.width = width →
          ∃ values, view.values host after.heap = .ok values ∧ values.length = view.rows) ∧
      ∀ address, view.mask = some address →
        after.heap.Covers address (Bitmask.pieces view.rows 8) ∧
        ∃ bits, view.validity after.heap = .ok (some bits) ∧ bits.length = view.rows := by
  have spec : Triple (On session.machine.heap) (ofBytes bytes)
      (fun table machine => (∀ node ∈ View.nodesOfAll table.view.columns,
        node.Covered session.machine.heap) ∧ On session.machine.heap machine)
      fun _ => True :=
    Triple.bindFact (Triple.checked _ fun _ _ => trivial) fun message _ => ofMessage_covers message
  obtain ⟨covered, same⟩ := spec.ok rfl opened
  have formed := reached.wellFormed
  intro view member
  have covers := covered view member
  rw [same]
  refine ⟨fun width address wide somewhere => ⟨covers.data width address wide somewhere, ?_⟩,
    fun address masked => ⟨covers.mask address masked, covers.reads_validity formed masked⟩⟩
  rintro host rfl
  exact covers.reads_values formed wide somewhere

def sharingRequests : List Request := [
  .values "c" ⟨.int32, 0⟩ .i32 [1, 2, 3] (some [true, false, true]) "mr",
  .share "c" [.leaf "c"] "m" true]

def sharing : Session := (Session.runFrom sharingRequests .initial).2

def sharedBytes : Bytes := ((sharing.find? "m").bind Object.message?).getD []

theorem opened_within_live_blocks_masked :
    ∃ table after, ofBytes sharedBytes sharing.machine = (.ok table, after) ∧
      ∀ view ∈ View.nodesOfAll table.view.columns, ∀ address, view.mask = some address →
        after.heap.Covers address (Bitmask.pieces view.rows 8) ∧
        ∃ bits, view.validity after.heap = .ok (some bits) ∧ bits.length = view.rows := by
  have reached : sharing.Reached := (Session.Reached.initial.step
    (.values "c" ⟨.int32, 0⟩ .i32 [1, 2, 3] (some [true, false, true]) "mr")).step
    (.share "c" [.leaf "c"] "m" true)
  have opens : (ofBytes sharedBytes sharing.machine).1.isOk = true := by decide +kernel
  rcases ran : ofBytes sharedBytes sharing.machine with ⟨fault | table, after⟩
  · rw [ran] at opens
    contradiction
  · exact ⟨table, after, rfl, fun view member =>
      (opened_within_live_blocks reached ran view member).2⟩

end SharedTable

end DeviceColumns
