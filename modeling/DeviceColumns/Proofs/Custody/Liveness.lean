import DeviceColumns.Proofs.Custody.Contents
import Mathlib.Data.Multiset.UnionInter

/-!
Which blocks are live. As long as raw frees spare what buffers own, no two buffers in the holdings
have the same base, and a block that some buffer owned is live for as long as a buffer with its base
is held.
-/

namespace DeviceColumns

set_option autoImplicit false

theorem Heap.isLive_iff {heap : Heap} {base : Nat} :
    heap.isLive base = true ↔ ∃ span ∈ heap.spans, span.1 = base := by
  simp [isLive, blockFrom?, spans, Block.span]

theorem Heap.block_of_isLive {heap : Heap} {base : Nat} (live : heap.isLive base = true) :
    ∃ block ∈ heap.blocks, block.base = base := by
  obtain ⟨span, member, same⟩ := isLive_iff.mp live
  obtain ⟨block, inside, rfl⟩ := List.mem_map.mp member
  exact ⟨block, inside, same⟩

namespace Buffer

/-- The bases of the blocks that buffers own, buffer by buffer. -/
def bases (buffers : List Buffer) : List Nat := buffers.filterMap address

theorem mem_bases {buffers : List Buffer} {base : Nat} :
    base ∈ bases buffers ↔ ∃ buffer ∈ buffers, buffer.address = some base := List.mem_filterMap

theorem bases_append (first second : List Buffer) :
    bases (first ++ second) = bases first ++ bases second := List.filterMap_append

theorem bases_eq (buffers : List Buffer) :
    (spansOf buffers).map Prod.fst = (bases buffers : Multiset Nat) := by
  rw [spansOf, Multiset.map_filterMap, Multiset.filterMap_coe, bases]
  congr 2
  funext buffer
  cases place : buffer.address <;> simp [span?, place]

end Buffer

theorem Holdings.fst_add_ofBuffers (held : Holdings) (buffers : List Buffer) :
    (held + ofBuffers buffers).1 = held.1 + buffers := rfl

theorem spansOf_add (first second : Multiset Buffer) :
    spansOf (first + second) = spansOf first + spansOf second := Multiset.filterMap_add _ _ _

theorem spansOf_append (first second : List Buffer) :
    spansOf (first ++ second : List Buffer) = spansOf first + spansOf second :=
  spansOf_add first second

/-- A free of a live span takes this span away and no other. -/
theorem Heap.WellFormed.free_spans_add {heap : Heap} (formed : heap.WellFormed) {span : Nat × Nat}
    (live : span ∈ heap.spans) :
    ((heap.free span.1).spans : Multiset (Nat × Nat)) + {span} = heap.spans := by
  have bases := formed.bases_nodup
  obtain ⟨freed, front, back, -, based, whole, left⟩ :=
    List.exists_of_eraseP live (p := fun other => other.1 = span.1) (by simp)
  have member : freed ∈ heap.spans := by simp [whole]
  obtain rfl := List.inj_on_of_nodup_map bases member live (by simpa using based)
  rw [formed.spans_free, ← eraseP_eq_filter bases, left, whole, add_comm, Multiset.singleton_add,
    Multiset.cons_coe]
  exact Multiset.coe_eq_coe.mpr List.perm_middle.symm

namespace Buffer

theorem freeAll_next (buffers : List Buffer) (machine : Machine) :
    (freeAll buffers machine).heap.next = machine.heap.next := by
  induction buffers generalizing machine with
  | nil => rfl
  | cons buffer rest induction =>
      refine (induction (buffer.free machine)).trans ?_
      unfold free
      cases buffer.address with
      | none => rfl
      | some address =>
          obtain same | freed := (Machine.freeFrame_freeThrough buffer.resource.ledgers address
            buffer.length machine).heap
          · exact congrArg Heap.next same
          · exact (congrArg Heap.next freed).trans rfl

theorem freeAll_idle {buffers : List Buffer} (nowhere : ∀ buffer ∈ buffers, buffer.address = none)
    (machine : Machine) : freeAll buffers machine = machine := by
  induction buffers with
  | nil => rfl
  | cons buffer rest induction =>
      obtain ⟨first, others⟩ := List.forall_mem_cons.mp nowhere
      have idle : buffer.free machine = machine := by rw [free, first]
      rw [freeAll, List.foldl_cons, idle]
      exact induction others

end Buffer

namespace Custody

variable {scope : Scope} {count more : Nat} {held : Holdings} {machine before after : Machine}
  {buffers given left : List Buffer}

/-- A buffer in the holdings that has an address has a live block, and a free takes just this block
back. -/
theorem free_heap {buffer : Buffer}
    (custody : Custody scope count (held + .ofBuffers [buffer]) machine) (careful : scope.careful)
    {address : Nat} (place : buffer.address = some address) :
    (address, buffer.length) ∈ machine.heap.spans ∧
      (buffer.free machine).heap = machine.heap.free address := by
  have owned := custody.owned careful
  rw [Holdings.fst_add_ofBuffer] at owned
  have member := Multiset.mem_cons_self buffer held.1
  obtain ⟨sound, sizes⟩ := owned.booked buffer member address place
  refine ⟨(owned.span_mem (mem_spansOf member place)).1, ?_⟩
  rw [Buffer.free, place]
  exact (Machine.freeThrough_booked sound.distinct sizes).1

/-- Buffers that are given back take their spans with them, and no others. -/
theorem freeAll_spans (custody : Custody scope count (held + .ofBuffers buffers) machine)
    (careful : scope.careful) :
    ((Buffer.freeAll buffers machine).heap.spans : Multiset (Nat × Nat)) + spansOf buffers =
      machine.heap.spans := by
  induction buffers generalizing machine with
  | nil => exact add_zero _
  | cons buffer rest induction =>
      have first : Custody scope count (held + .ofBuffers rest + .ofBuffers [buffer]) machine := by
        apply custody.of_eq
        rw [Holdings.ofBuffers_cons]
        abel
      have others := induction first.free
      rw [← Multiset.cons_coe, Buffer.freeAll, List.foldl_cons]
      cases place : buffer.address with
      | none =>
          have idle : buffer.free machine = machine := by rw [Buffer.free, place]
          rw [spansOf_cons_none place]
          rw [idle] at others ⊢
          exact others
      | some address =>
          obtain ⟨live, freed⟩ := first.free_heap careful place
          rw [spansOf_cons_some place, ← first.heap.free_spans_add live, ← freed, ← others,
            add_assoc, ← Multiset.singleton_add, add_comm {_}]
          rfl

/-- Buffers in the holdings have live blocks, no two the same one. -/
theorem spansOf_le {part : List Buffer}
    (custody : Custody scope count (held + .ofBuffers buffers) machine) (careful : scope.careful)
    (within : part.Sublist buffers) :
    spansOf part ≤ (machine.heap.spans : Multiset (Nat × Nat)) := by
  have own : spansOf part ≤ spansOf (held + Holdings.ofBuffers buffers).1 := by
    refine Multiset.filterMap_le_filterMap _ (le_trans ?_ (Multiset.le_add_left _ held.1))
    exact Multiset.coe_le.mpr within.subperm
  rw [(custody.owned careful).blocks] at own
  exact own.trans (Multiset.coe_le.mpr List.filter_sublist.subperm)

theorem bases_split (custody : Custody scope count (held + .ofBuffers buffers) machine)
    (careful : scope.careful) : (Buffer.bases buffers).Nodup ∧
      ∀ base ∈ Buffer.bases buffers, base ∉ (spansOf held.1).map Prod.fst := by
  have distinct := (custody.owned careful).distinct custody.heap
  rw [Holdings.fst_add_ofBuffers, spansOf_add, Multiset.map_add, Buffer.bases_eq,
    Multiset.nodup_add] at distinct
  obtain ⟨_, own, apart⟩ := distinct
  exact ⟨Multiset.coe_nodup.mp own, fun base member other =>
    Multiset.disjoint_left.mp apart other member⟩

theorem bases_nodup (custody : Custody scope count (held + .ofBuffers buffers) machine)
    (careful : scope.careful) : (Buffer.bases buffers).Nodup :=
  (custody.bases_split careful).1

theorem live_of_held (custody : Custody scope count (held + .ofBuffers buffers) machine)
    (careful : scope.careful) {base : Nat} (member : base ∈ Buffer.bases buffers) :
    machine.heap.isLive base = true ∧ base ∉ scope.raw := by
  obtain ⟨buffer, inside, place⟩ := Buffer.mem_bases.mp member
  have among : buffer ∈ (held + Holdings.ofBuffers buffers).1 := Multiset.mem_add.mpr (.inr inside)
  have live := (custody.owned careful).span_mem (mem_spansOf among place)
  exact ⟨Heap.isLive_iff.mpr ⟨_, live.1, rfl⟩, live.2⟩

/-- A live block that was not handed out raw is that of a held buffer. -/
theorem held_of_live (custody : Custody scope count (held + .ofBuffers buffers) machine)
    (careful : scope.careful) {base : Nat} (live : machine.heap.isLive base = true)
    (handed : base ∉ scope.raw) :
    base ∈ (spansOf held.1).map Prod.fst ∨ base ∈ Buffer.bases buffers := by
  obtain ⟨span, member, rfl⟩ := Heap.isLive_iff.mp live
  have owned : span ∈ spansOf (held + Holdings.ofBuffers buffers).1 := by
    rw [(custody.owned careful).blocks]
    exact List.mem_filter.mpr ⟨member, by simpa using handed⟩
  rw [Holdings.fst_add_ofBuffers, spansOf_add, Multiset.mem_add] at owned
  obtain other | own := owned
  · exact .inl (Multiset.mem_map_of_mem Prod.fst other)
  · refine .inr (Multiset.mem_coe.mp ?_)
    rw [← Buffer.bases_eq]
    exact Multiset.mem_map_of_mem Prod.fst own

/-- Of the blocks of some buffers, those are live later that belong to the buffers held then. -/
theorem live_iff (custody : Custody scope count (held + .ofBuffers given) before)
    (later : Custody scope more (held + .ofBuffers left) after) (careful : scope.careful)
    {base : Nat} (member : base ∈ Buffer.bases given) :
    after.heap.isLive base = true ↔ base ∈ Buffer.bases left := by
  constructor
  · intro live
    obtain other | own := later.held_of_live careful live (custody.live_of_held careful member).2
    · exact absurd other ((custody.bases_split careful).2 base member)
    · exact own
  · exact fun own => (later.live_of_held careful own).1

end Custody

end DeviceColumns
