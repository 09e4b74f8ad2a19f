import DeviceColumns.Proofs.Custody.Invariant
import DeviceColumns.Proofs.Triple
import Mathlib.Tactic.Abel

/-!
What each operation of the machine moves into the holdings or out of them. An allocation of a buffer
moves one in, and a free moves it out; opening and closing do the same with mappings. An operation
that fails moves nothing. Other invariants follow what is held in the same way, so what is composed
of these operations is looked at once for all of them.
-/

namespace DeviceColumns

set_option autoImplicit false

open DeviceColumns.Action

namespace Custody

variable {scope : Scope} {count : Nat} {held other : Holdings} {machine after : Machine}

theorem of_eq (custody : Custody scope count held machine) (same : held = other) :
    Custody scope count other machine := same ▸ custody

theorem of_same (custody : Custody scope count held machine) (formed : after.heap.WellFormed)
    (spans : after.heap.spans = machine.heap.spans) (next : after.heap.next = machine.heap.next)
    (mappings : after.mappings = machine.mappings) (ledgers : after.ledgers = machine.ledgers)
    (quiet : after.Quiet) : Custody scope count held after where
  heap := formed
  counted := by rw [ledgers, custody.counted]
  mappings := by
    rw [mappings]
    exact custody.mappings
  owned := by
    intro careful
    refine (custody.owned careful).of_same spans next (fun id => ?_) (Nat.le_of_eq ?_)
    · rw [Machine.ledger, ledgers]
      rfl
    · rw [ledgers]
  quiet := quiet

theorem clearLog (custody : Custody scope count held machine) :
    Custody scope count held { machine with log := [] } :=
  custody.of_same custody.heap rfl rfl rfl rfl fun _ _ => List.not_mem_nil

theorem createEvent (custody : Custody scope count held machine) :
    Custody scope count held machine.createEvent.2 :=
  custody.of_same custody.heap rfl rfl rfl rfl custody.quiet

/-- A new ledger is empty, which is what books that do not exist yet count as. -/
theorem track (custody : Custody scope count held machine) (base : Resource) :
    Custody scope (count + 1) held (machine.track base).2 where
  heap := custody.heap
  counted := by simp [Machine.track, custody.counted]
  mappings := custody.mappings
  owned := by
    intro careful
    refine (custody.owned careful).of_same rfl rfl (fun id => ?_) ?_
    · simp only [Machine.ledger, Machine.track, List.getElem?_append]
      split_ifs with existing
      · rfl
      · rw [List.getElem?_eq_none (Nat.le_of_not_lt existing)]
        rcases id - machine.ledgers.length with _ | _ <;> rfl
    · simp [Machine.track]
  quiet := custody.quiet

theorem free {buffer : Buffer} (custody : Custody scope count (held + .ofBuffers [buffer]) machine) :
    Custody scope count held (buffer.free machine) := by
  unfold Buffer.free
  cases somewhere : buffer.address with
  | none =>
      have mappings := custody.mappings
      rw [Holdings.snd_add_ofBuffers] at mappings
      refine ⟨custody.heap, custody.counted, mappings, fun careful => ?_, custody.quiet⟩
      have owned := custody.owned careful
      rw [Holdings.fst_add_ofBuffer] at owned
      exact owned.forget somewhere
  | some address =>
      have frame :=
        Machine.freeFrame_freeThrough buffer.resource.ledgers address buffer.length machine
      refine ⟨?_, ?_, ?_, fun careful => ?_, custody.quiet.freeThrough _ _ _⟩
      · obtain same | freed := frame.heap
        · exact same ▸ custody.heap
        · exact freed ▸ custody.heap.free address
      · exact frame.count.trans custody.counted
      · have mappings := custody.mappings
        rwa [Holdings.snd_add_ofBuffers, ← frame.mappings] at mappings
      · have owned := custody.owned careful
        rw [Holdings.fst_add_ofBuffer] at owned
        exact owned.free custody.heap somewhere

theorem insert (custody : Custody scope count held machine) (base : Nat) :
    Custody scope count (held + .ofMappings [⟨base⟩])
      { machine with mappings := machine.mappings.insert base } := by
  refine ⟨custody.heap, custody.counted, ?_, fun careful => ?_, custody.quiet⟩
  · rw [Holdings.snd_add_ofMapping, Multiset.map_cons]
    exact custody.mappings.insert base
  · rw [Holdings.fst_add_ofMappings]
    exact (custody.owned careful).of_same rfl rfl (fun id => rfl) (Nat.le_refl _)

theorem close {mapping : Mapping}
    (custody : Custody scope count (held + .ofMappings [mapping]) machine) :
    Custody scope count held (mapping.close machine) := by
  have counts := custody.mappings
  rw [Holdings.snd_add_ofMapping, Multiset.map_cons] at counts
  obtain ⟨mappings, closed, exact⟩ := counts.close?
  rw [Mapping.close, closed]
  refine ⟨custody.heap, custody.counted, exact, fun careful => ?_, custody.quiet⟩
  have owned := custody.owned careful
  rw [Holdings.fst_add_ofMappings] at owned
  exact owned.of_same rfl rfl (fun id => rfl) (Nat.le_refl _)

/-- What a raw free may hit: nothing that a buffer owns. -/
theorem freeRaw (custody : Custody scope count held machine) (resource : Resource) {address : Nat}
    (size : Nat) (spared : scope.careful → ∀ buffer ∈ held.1, buffer.address ≠ some address) :
    Custody { scope with touched := resource.ledgers ++ scope.touched } count held
      (resource.free address size machine) := by
  have frame := Machine.freeFrame_freeThrough resource.ledgers address size machine
  refine ⟨?_, ?_, ?_, fun careful => ?_, custody.quiet.freeThrough _ _ _⟩
  · obtain same | freed := frame.heap
    · exact same ▸ custody.heap
    · exact freed ▸ custody.heap.free address
  · exact frame.count.trans custody.counted
  · have mappings := custody.mappings
    rwa [← frame.mappings] at mappings
  · exact (custody.owned careful).freeRaw custody.heap resource size (spared careful)

theorem allocateRaw (custody : Custody scope count held machine) {resource : Resource}
    (sound : resource.Sound count) {address size : Nat}
    (granted : resource.allocate size machine = (.ok address, after)) :
    Custody { scope with raw := address :: scope.raw, touched := resource.ledgers ++ scope.touched }
      count held after := by
  rw [← custody.counted] at sound
  obtain ⟨handed, frame⟩ := Resource.allocate_ok sound granted
  refine ⟨custody.heap.allocate handed, frame.count.trans custody.counted, ?_, fun careful => ?_,
    custody.quiet.of_log (Resource.allocate_log granted)⟩
  · rw [frame.mappings]
    exact custody.mappings
  · exact (custody.owned careful).allocateRaw custody.heap sound granted

end Custody

section Triples

variable {scope : Scope} {count : Nat} {resource : Resource}

theorem Machine.read_keeps {before : Machine → Prop} (address length : Nat) :
    Triple before (Machine.read address length) (fun _ => before) before := by
  intro machine holds
  unfold Machine.read
  cases machine.heap.read address length <;> exact holds

theorem Machine.write_custody (held : Holdings) (address : Nat) (bytes : Bytes) :
    Triple (Custody scope count held) (Machine.write address bytes)
      (fun _ => Custody scope count held) (Custody scope count held) := by
  intro machine custody
  unfold Machine.write
  cases written : machine.heap.write address bytes with
  | error cause => exact custody
  | ok heap =>
      obtain ⟨spans, next⟩ := custody.heap.spans_write written
      exact custody.of_same (custody.heap.write written) spans next rfl rfl custody.quiet

theorem Buffer.allocate_custody (sound : resource.Sound count) (held : Holdings) (length : Nat) :
    Triple (Custody scope count held) (Buffer.allocate length resource)
      (fun buffer => Custody scope count (held + .ofBuffers [buffer]))
      (Custody scope count held) := by
  intro machine custody
  unfold Buffer.allocate
  split_ifs with empty
  · refine ⟨custody.heap, custody.counted, ?_, fun careful => ?_, custody.quiet⟩
    · rw [Holdings.snd_add_ofBuffers]
      exact custody.mappings
    · rw [Holdings.fst_add_ofBuffer]
      exact (custody.owned careful).add rfl rfl
  · rw [bind_apply]
    rcases ran : resource.allocate length machine with ⟨cause | address, after⟩
    · rw [Resource.allocate_error ran]
      exact custody
    · rw [← custody.counted] at sound
      obtain ⟨handed, frame⟩ := Resource.allocate_ok sound ran
      refine ⟨custody.heap.allocate handed, frame.count.trans custody.counted, ?_,
        fun careful => ?_, custody.quiet.of_log (Resource.allocate_log ran)⟩
      · rw [frame.mappings, Holdings.snd_add_ofBuffers]
        exact custody.mappings
      · rw [Holdings.fst_add_ofBuffer]
        exact (custody.owned careful).allocate custody.heap sound empty ran

end Triples

/-- An invariant of machines and what is held on them which lasts while buffers are allocated from
the resources that it admits, are filled while they are recent, and are freed, and while mappings
are opened and closed. -/
structure Custodial (keeps : Holdings → Machine → Prop) (admits : Resource → Prop)
    (recent : Buffer → Prop) : Prop where
  allocate : ∀ {resource}, admits resource → ∀ held length,
    Triple (keeps held) (Buffer.allocate length resource)
      (fun buffer machine => recent buffer ∧ keeps (held + .ofBuffers [buffer]) machine)
      (keeps held)
  write : ∀ {buffer}, recent buffer → ∀ held bytes,
    Triple (keeps (held + .ofBuffers [buffer])) (Machine.write buffer.pointer bytes)
      (fun _ => keeps (held + .ofBuffers [buffer])) (keeps (held + .ofBuffers [buffer]))
  free : ∀ {held buffer machine}, keeps (held + .ofBuffers [buffer]) machine →
    keeps held (buffer.free machine)
  createEvent : ∀ {held machine}, keeps held machine → keeps held machine.createEvent.2
  opens : ∀ {held machine} base, keeps held machine →
    keeps (held + .ofMappings [⟨base⟩]) { machine with mappings := machine.mappings.insert base }
  closes : ∀ {held mapping machine}, keeps (held + .ofMappings [mapping]) machine →
    keeps held (mapping.close machine)

theorem Custody.custodial {scope : Scope} {count : Nat} :
    Custodial (Custody scope count) (·.Sound count) fun _ => True where
  allocate := by
    intro resource sound held length
    refine (Buffer.allocate_custody sound held length).conseq (fun _ custody => custody) ?_
      fun _ custody => custody
    exact fun buffer machine custody => ⟨trivial, custody⟩
  write := fun _ held bytes => Machine.write_custody _ _ bytes
  free := Custody.free
  createEvent := Custody.createEvent
  opens := fun base custody => custody.insert base
  closes := Custody.close

theorem Holdings.of_eq {State : Type} {keeps : Holdings → State → Prop} {held other : Holdings}
    {state : State} (kept : keeps held state) (same : held = other) : keeps other state :=
  same ▸ kept

namespace Custodial

variable {keeps : Holdings → Machine → Prop} {admits : Resource → Prop} {recent : Buffer → Prop}
  (custodial : Custodial keeps admits recent) {resource : Resource} (admitted : admits resource)

include custodial

theorem freeAll {held : Holdings} {buffers : List Buffer} {machine : Machine}
    (kept : keeps (held + .ofBuffers buffers) machine) :
    keeps held (Buffer.freeAll buffers machine) := by
  induction buffers generalizing machine with
  | nil => exact Holdings.of_eq kept (add_zero held)
  | cons buffer rest induction =>
      refine induction (custodial.free (Holdings.of_eq kept ?_))
      rw [Holdings.ofBuffers_cons]
      abel

theorem closeAll {held : Holdings} {mappings : List Mapping} {machine : Machine}
    (kept : keeps (held + .ofMappings mappings) machine) :
    keeps held (Mapping.closeAll mappings machine) := by
  induction mappings generalizing machine with
  | nil => exact Holdings.of_eq kept (add_zero held)
  | cons mapping rest induction =>
      refine induction (custodial.closes (Holdings.of_eq kept ?_))
      rw [Holdings.ofMappings_cons]
      abel

theorem openHandle (held : Holdings) (handle : Handle) :
    Triple (keeps held) (Mapping.openHandle handle)
      (fun mapping => keeps (held + .ofMappings [mapping])) (keeps held) := by
  intro machine kept
  unfold Mapping.openHandle
  cases handle.check machine.heap with
  | error cause => exact kept
  | ok checked => exact custodial.opens handle.base kept

theorem fill {buffer : Buffer} (new : recent buffer) (held : Holdings) (bytes : Bytes) :
    Triple (keeps (held + .ofBuffers [buffer])) (buffer.fill bytes)
      (fun _ => keeps (held + .ofBuffers [buffer])) (keeps held) :=
  (custodial.write new held bytes).undoOnFailure fun _ kept => custodial.free kept

include admitted

theorem ofBytes (held : Holdings) (bytes : Bytes) :
    Triple (keeps held) (Buffer.ofBytes bytes resource)
      (fun buffer => keeps (held + .ofBuffers [buffer])) (keeps held) := by
  apply (custodial.allocate admitted held bytes.length).bindFact
  intro buffer new
  apply (custodial.fill new held bytes).bind
  intro _
  exact Triple.pure fun _ kept => kept

end Custodial

theorem Custody.freeAll {scope : Scope} {count : Nat} {held : Holdings} {buffers : List Buffer}
    {machine : Machine} (custody : Custody scope count (held + .ofBuffers buffers) machine) :
    Custody scope count held (Buffer.freeAll buffers machine) :=
  Custody.custodial.freeAll custody

end DeviceColumns
