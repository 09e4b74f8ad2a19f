import DeviceColumns.Memory.Buffer
import DeviceColumns.Memory.Handle
import DeviceColumns.Proofs.Memory.Blocks
import DeviceColumns.Proofs.Memory.Resources
import Mathlib.Algebra.Group.Prod
import Mathlib.Algebra.Order.Group.Multiset

/-!
Who holds what. At any moment the buffers and mappings that exist somewhere form the holdings, and a
machine is in custody of them if every live block that was not handed out raw is that of one of these
buffers and the other way round, the books agree, and the open mappings are counted exactly. Each
operation of the machine is then an exchange: it moves something into the holdings or out of them.
-/

namespace DeviceColumns

set_option autoImplicit false

/-- Base and length of the block that a buffer owns. A buffer without an address owns none. -/
def Buffer.span? (buffer : Buffer) : Option (Nat × Nat) :=
  buffer.address.map fun address => (address, buffer.length)

def spansOf (buffers : Multiset Buffer) : Multiset (Nat × Nat) := buffers.filterMap Buffer.span?

def passing (id : LedgerId) (buffers : Multiset Buffer) : Multiset Buffer :=
  buffers.filter fun buffer => id ∈ buffer.resource.ledgers

abbrev Holdings : Type := Multiset Buffer × Multiset Mapping

namespace Holdings

def ofBuffers (buffers : List Buffer) : Holdings := (buffers, 0)

def ofMappings (mappings : List Mapping) : Holdings := (0, mappings)

@[simp] theorem ofBuffers_nil : ofBuffers [] = 0 := rfl

theorem ofBuffers_cons (buffer : Buffer) (rest : List Buffer) :
    ofBuffers (buffer :: rest) = ofBuffers [buffer] + ofBuffers rest := rfl

theorem ofMappings_cons (mapping : Mapping) (rest : List Mapping) :
    ofMappings (mapping :: rest) = ofMappings [mapping] + ofMappings rest := rfl

@[simp] theorem ofBuffers_append (first second : List Buffer) :
    ofBuffers (first ++ second) = ofBuffers first + ofBuffers second := rfl

@[simp] theorem ofMappings_append (first second : List Mapping) :
    ofMappings (first ++ second) = ofMappings first + ofMappings second := rfl

@[simp] theorem fst_add_ofBuffer (held : Holdings) (buffer : Buffer) :
    (held + ofBuffers [buffer]).1 = buffer ::ₘ held.1 := by
  rw [add_comm]
  exact Multiset.singleton_add buffer held.1

@[simp] theorem snd_add_ofBuffers (held : Holdings) (buffers : List Buffer) :
    (held + ofBuffers buffers).2 = held.2 := add_zero held.2

@[simp] theorem fst_add_ofMappings (held : Holdings) (mappings : List Mapping) :
    (held + ofMappings mappings).1 = held.1 := add_zero held.1

@[simp] theorem snd_add_ofMapping (held : Holdings) (mapping : Mapping) :
    (held + ofMappings [mapping]).2 = mapping ::ₘ held.2 := by
  rw [add_comm]
  exact Multiset.singleton_add mapping held.2

end Holdings

/-- What went past the buffers: the bases handed out raw, the ledgers that raw requests have passed,
and whether raw frees have spared the blocks that buffers own. -/
structure Scope where
  raw : List Nat
  touched : List LedgerId
  careful : Prop

/-- The blocks that were not handed out raw are those of the `buffers` with bytes. All ledgers on the way of a
buffer have booked it, and those that no raw request has passed have booked nothing else. -/
structure Owned (scope : Scope) (buffers : Multiset Buffer) (machine : Machine) : Prop where
  blocks : spansOf buffers = (machine.heap.spans.filter fun span => span.1 ∉ scope.raw : List _)
  filled : ∀ buffer ∈ buffers, buffer.address = none ↔ buffer.length = 0
  rawBelow : ∀ base ∈ scope.raw, base < machine.heap.next
  booked : ∀ buffer ∈ buffers, ∀ address, buffer.address = some address →
    buffer.resource.Sound machine.ledgers.length ∧
      ∀ id ∈ buffer.resource.ledgers, (machine.ledger id).size? address = some buffer.length
  balanced : ∀ id, id ∉ scope.touched →
    (machine.ledger id).Balances (spansOf (passing id buffers))

/-- The machine has `count` ledgers and keeps the holdings `held`, and no mapping was ever closed in
vain. Of a machine on which raw frees may have hit the block of a buffer, nothing is said about
blocks and books. -/
structure Custody (scope : Scope) (count : Nat) (held : Holdings) (machine : Machine) : Prop where
  heap : machine.heap.WellFormed
  counted : machine.ledgers.length = count
  mappings : machine.mappings.Counts (held.2.map Mapping.base)
  owned : scope.careful → Owned scope held.1 machine
  quiet : machine.Quiet

theorem spansOf_cons_none {buffer : Buffer} (nothing : buffer.address = none)
    (rest : Multiset Buffer) : spansOf (buffer ::ₘ rest) = spansOf rest :=
  Multiset.filterMap_cons_none _ _ (by simp [Buffer.span?, nothing])

theorem spansOf_cons_some {buffer : Buffer} {address : Nat} (somewhere : buffer.address = some address)
    (rest : Multiset Buffer) :
    spansOf (buffer ::ₘ rest) = (address, buffer.length) ::ₘ spansOf rest :=
  Multiset.filterMap_cons_some _ _ _ (by simp [Buffer.span?, somewhere])

theorem mem_spansOf {buffers : Multiset Buffer} {buffer : Buffer} {address : Nat}
    (member : buffer ∈ buffers) (somewhere : buffer.address = some address) :
    (address, buffer.length) ∈ spansOf buffers :=
  (Multiset.mem_filterMap _ _).mpr ⟨buffer, member, by simp [Buffer.span?, somewhere]⟩

theorem passing_cons_of_mem {id : LedgerId} {buffer : Buffer} (rest : Multiset Buffer)
    (passed : id ∈ buffer.resource.ledgers) :
    passing id (buffer ::ₘ rest) = buffer ::ₘ passing id rest :=
  Multiset.filter_cons_of_pos _ passed

theorem passing_cons_of_not_mem {id : LedgerId} {buffer : Buffer} (rest : Multiset Buffer)
    (missed : id ∉ buffer.resource.ledgers) : passing id (buffer ::ₘ rest) = passing id rest :=
  Multiset.filter_cons_of_neg _ missed

theorem mem_spansOf_of_passing {id : LedgerId} {buffers : Multiset Buffer} {span : Nat × Nat}
    (member : span ∈ spansOf (passing id buffers)) : span ∈ spansOf buffers :=
  Multiset.mem_of_le (Multiset.filterMap_le_filterMap _ (Multiset.filter_le _ buffers)) member

namespace Owned

variable {scope : Scope} {buffers : Multiset Buffer} {buffer : Buffer} {machine after : Machine}

theorem of_same (owned : Owned scope buffers machine) (spans : after.heap.spans = machine.heap.spans)
    (next : after.heap.next = machine.heap.next)
    (books : ∀ id, after.ledger id = machine.ledger id)
    (count : machine.ledgers.length ≤ after.ledgers.length) : Owned scope buffers after where
  blocks := by rw [spans, owned.blocks]
  filled := owned.filled
  rawBelow := by
    rw [next]
    exact owned.rawBelow
  booked := by
    intro buffer member address somewhere
    obtain ⟨sound, sizes⟩ := owned.booked buffer member address somewhere
    exact ⟨sound.mono count, fun id passed => by rw [books, sizes id passed]⟩
  balanced := by
    intro id untouched
    rw [books]
    exact owned.balanced id untouched

theorem span_mem (owned : Owned scope buffers machine) {span : Nat × Nat}
    (member : span ∈ spansOf buffers) : span ∈ machine.heap.spans ∧ span.1 ∉ scope.raw := by
  rw [owned.blocks, Multiset.mem_coe, List.mem_filter, decide_eq_true_eq] at member
  exact member

theorem distinct (owned : Owned scope buffers machine) (formed : machine.heap.WellFormed) :
    ((spansOf buffers).map Prod.fst).Nodup := by
  rw [owned.blocks, Multiset.map_coe, Multiset.coe_nodup]
  exact List.Nodup.sublist (List.filter_sublist.map Prod.fst) formed.bases_nodup

theorem others_apart {address : Nat} (owned : Owned scope (buffer ::ₘ buffers) machine)
    (formed : machine.heap.WellFormed) (somewhere : buffer.address = some address) :
    ∀ span ∈ spansOf buffers, span.1 ≠ address := by
  have distinct := owned.distinct formed
  rw [spansOf_cons_some somewhere, Multiset.map_cons, Multiset.nodup_cons] at distinct
  exact fun span member same => distinct.1 (Multiset.mem_map.mpr ⟨span, member, same⟩)

theorem forget (owned : Owned scope (buffer ::ₘ buffers) machine) (nothing : buffer.address = none) :
    Owned scope buffers machine where
  blocks := by rw [← spansOf_cons_none nothing, owned.blocks]
  filled := fun other member => owned.filled other (Multiset.mem_cons_of_mem member)
  rawBelow := owned.rawBelow
  booked := fun other member => owned.booked other (Multiset.mem_cons_of_mem member)
  balanced := by
    intro id untouched
    have balanced := owned.balanced id untouched
    by_cases passed : id ∈ buffer.resource.ledgers
    · rwa [passing_cons_of_mem _ passed, spansOf_cons_none nothing] at balanced
    · rwa [passing_cons_of_not_mem _ passed] at balanced

theorem add (owned : Owned scope buffers machine) (nothing : buffer.address = none)
    (empty : buffer.length = 0) : Owned scope (buffer ::ₘ buffers) machine where
  blocks := by rw [spansOf_cons_none nothing, owned.blocks]
  filled := Multiset.forall_mem_cons.mpr ⟨by simp [nothing, empty], owned.filled⟩
  rawBelow := owned.rawBelow
  booked := by
    intro other member address somewhere
    obtain same | member := Multiset.mem_cons.mp member
    · rw [same, nothing] at somewhere
      contradiction
    · exact owned.booked other member address somewhere
  balanced := by
    intro id untouched
    by_cases passed : id ∈ buffer.resource.ledgers
    · rw [passing_cons_of_mem _ passed, spansOf_cons_none nothing]
      exact owned.balanced id untouched
    · rw [passing_cons_of_not_mem _ passed]
      exact owned.balanced id untouched

/-- A free through the resource takes back the block of the buffer and books that everywhere. -/
theorem free (owned : Owned scope (buffer ::ₘ buffers) machine) (formed : machine.heap.WellFormed)
    {address : Nat} (somewhere : buffer.address = some address) :
    Owned scope buffers (buffer.resource.free address buffer.length machine) := by
  obtain ⟨sound, sizes⟩ := owned.booked buffer (Multiset.mem_cons_self _ _) address somewhere
  obtain ⟨heap, books⟩ := Machine.freeThrough_booked sound.distinct sizes
  have frame := Machine.freeFrame_freeThrough buffer.resource.ledgers address buffer.length machine
  have apart := owned.others_apart formed somewhere
  have spans := formed.spans_free address
  constructor
  · have blocks := congrArg (Multiset.filter fun span => span.1 ≠ address) owned.blocks
    rw [spansOf_cons_some somewhere, Multiset.filter_cons_of_neg _ (by simp),
      Multiset.filter_eq_self.mpr apart] at blocks
    rw [blocks, Resource.free, heap, spans, Multiset.filter_coe, List.filter_filter,
      List.filter_filter]
    simp only [Bool.and_comm]
  · exact fun other member => owned.filled other (Multiset.mem_cons_of_mem member)
  · rw [Resource.free, heap]
    exact owned.rawBelow
  · intro other member place elsewhere
    obtain ⟨otherSound, otherSizes⟩ :=
      owned.booked other (Multiset.mem_cons_of_mem member) place elsewhere
    have different : place ≠ address := apart _ (mem_spansOf member elsewhere)
    refine ⟨otherSound.mono (Nat.le_of_eq frame.count.symm), fun id passed => ?_⟩
    rw [Resource.free, frame.sizes id place different, otherSizes id passed]
  · intro id untouched
    have balanced := owned.balanced id untouched
    by_cases passed : id ∈ buffer.resource.ledgers
    · rw [passing_cons_of_mem _ passed, spansOf_cons_some somewhere] at balanced
      rw [Resource.free, books id passed]
      exact balanced.recordFree fun span member => apart span (mem_spansOf_of_passing member)
    · rw [passing_cons_of_not_mem _ passed] at balanced
      rw [Resource.free, frame.untouched id passed]
      exact balanced

/-- A free of an address that no buffer has leaves the blocks of the buffers alone. It may spoil the
books that it passes. -/
theorem freeRaw (owned : Owned scope buffers machine) (formed : machine.heap.WellFormed)
    (resource : Resource) {address : Nat} (size : Nat)
    (spared : ∀ buffer ∈ buffers, buffer.address ≠ some address) :
    Owned { scope with touched := resource.ledgers ++ scope.touched } buffers
      (resource.free address size machine) := by
  have frame := Machine.freeFrame_freeThrough resource.ledgers address size machine
  have apart : ∀ span ∈ spansOf buffers, span.1 ≠ address := by
    intro span member same
    obtain ⟨buffer, held, owns⟩ := (Multiset.mem_filterMap _ _).mp member
    obtain ⟨place, somewhere, rfl⟩ := Option.map_eq_some_iff.mp owns
    exact spared buffer held (same ▸ somewhere)
  constructor
  · obtain same | freed := frame.heap
    · rw [Resource.free, same, owned.blocks]
    · have blocks := congrArg (Multiset.filter fun span => span.1 ≠ address) owned.blocks
      rw [Multiset.filter_eq_self.mpr apart] at blocks
      rw [blocks, Resource.free, freed, formed.spans_free, Multiset.filter_coe, List.filter_filter,
        List.filter_filter]
      simp only [Bool.and_comm]
  · exact owned.filled
  · have next : (resource.free address size machine).heap.next = machine.heap.next := by
      obtain same | freed := frame.heap
      · rw [Resource.free, same]
      · rw [Resource.free, freed]
        rfl
    rw [next]
    exact owned.rawBelow
  · intro other member place elsewhere
    obtain ⟨sound, sizes⟩ := owned.booked other member place elsewhere
    have different : place ≠ address := apart _ (mem_spansOf member elsewhere)
    refine ⟨sound.mono (Nat.le_of_eq frame.count.symm), fun id passed => ?_⟩
    rw [Resource.free, frame.sizes id place different, sizes id passed]
  · intro id untouched
    simp only [List.mem_append, not_or] at untouched
    rw [Resource.free, frame.untouched id untouched.1]
    exact owned.balanced id untouched.2

section Allocation

variable {resource : Resource} {address size : Nat}

theorem fresh (owned : Owned scope buffers machine) (formed : machine.heap.WellFormed) :
    ∀ span ∈ spansOf buffers, span.1 ≠ machine.heap.next := by
  intro span member same
  have below := formed.below span (owned.span_mem member).1
  simp only [Heap.extent] at below
  omega

theorem allocate (owned : Owned scope buffers machine) (formed : machine.heap.WellFormed)
    (sound : resource.Sound machine.ledgers.length) (positive : size ≠ 0)
    (granted : resource.allocate size machine = (.ok address, after)) :
    Owned scope (⟨some address, size, resource⟩ ::ₘ buffers) after := by
  obtain ⟨handed, frame⟩ := Resource.allocate_ok sound granted
  obtain ⟨rfl, room, spans, next, -⟩ := Heap.allocate_cases handed
  have advanced := formed.next_lt_allocate handed
  have fresh := owned.fresh formed
  have notRaw : machine.heap.next ∉ scope.raw :=
    fun member => Nat.lt_irrefl _ (owned.rawBelow _ member)
  constructor
  · rw [spansOf_cons_some rfl, owned.blocks, spans, List.filter_cons_of_pos (by simpa using notRaw)]
    rfl
  · exact Multiset.forall_mem_cons.mpr ⟨by simp [positive], owned.filled⟩
  · exact fun base member => Nat.lt_trans (owned.rawBelow base member) advanced
  · intro other member place somewhere
    obtain same | member := Multiset.mem_cons.mp member
    · subst same
      cases somewhere
      refine ⟨sound.mono (Nat.le_of_eq frame.count.symm), fun id passed => ?_⟩
      rw [frame.booked id passed]
      exact Ledger.size?_recordAllocation_same
    · obtain ⟨otherSound, sizes⟩ := owned.booked other member place somewhere
      refine ⟨otherSound.mono (Nat.le_of_eq frame.count.symm), fun id passed => ?_⟩
      rw [frame.sizes (fresh _ (mem_spansOf member somewhere)) id, sizes id passed]
  · intro id untouched
    have balanced := owned.balanced id untouched
    by_cases passed : id ∈ resource.ledgers
    · rw [passing_cons_of_mem _ passed, spansOf_cons_some rfl, frame.booked id passed]
      exact balanced.recordAllocation fun span member => fresh span (mem_spansOf_of_passing member)
    · rw [passing_cons_of_not_mem _ passed, frame.untouched id passed]
      exact balanced

theorem allocateRaw (owned : Owned scope buffers machine) (formed : machine.heap.WellFormed)
    (sound : resource.Sound machine.ledgers.length)
    (granted : resource.allocate size machine = (.ok address, after)) :
    Owned { scope with raw := address :: scope.raw, touched := resource.ledgers ++ scope.touched }
      buffers after := by
  obtain ⟨handed, frame⟩ := Resource.allocate_ok sound granted
  obtain ⟨rfl, room, spans, next, -⟩ := Heap.allocate_cases handed
  have advanced := formed.next_lt_allocate handed
  have fresh := owned.fresh formed
  constructor
  · rw [spans, List.filter_cons_of_neg (by simp), ← Multiset.filter_eq_self.mpr fresh, owned.blocks,
      Multiset.filter_coe, List.filter_filter]
    simp only [List.mem_cons, not_or, Bool.decide_and]
  · exact owned.filled
  · refine List.forall_mem_cons.mpr ⟨advanced, fun base member => ?_⟩
    exact Nat.lt_trans (owned.rawBelow base member) advanced
  · intro other member place somewhere
    obtain ⟨otherSound, sizes⟩ := owned.booked other member place somewhere
    refine ⟨otherSound.mono (Nat.le_of_eq frame.count.symm), fun id passed => ?_⟩
    rw [frame.sizes (fresh _ (mem_spansOf member somewhere)) id, sizes id passed]
  · intro id untouched
    simp only [List.mem_append, not_or] at untouched
    rw [frame.untouched id untouched.1]
    exact owned.balanced id untouched.2

end Allocation

end Owned

end DeviceColumns
