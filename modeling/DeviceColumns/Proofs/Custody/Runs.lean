import DeviceColumns.Proofs.Custody.Steps

/-!
Whole runs. Whatever is requested, the heap stays well-formed. If raw frees spare the blocks that
buffers own, then the objects of a session own between them, each buffer once, all blocks that were
not handed out raw; so a failed request leaks nothing, and dropping the objects gives all of these
blocks back.
-/

namespace DeviceColumns

set_option autoImplicit false

/-- Base and length of the blocks of the buffers that have bytes. -/
def blocksOf (buffers : List Buffer) : List (Nat × Nat) :=
  (buffers.filter fun buffer => buffer.length ≠ 0).map fun buffer => (buffer.pointer, buffer.length)

theorem spansOf_coe {buffers : List Buffer}
    (filled : ∀ buffer ∈ buffers, buffer.address = none ↔ buffer.length = 0) :
    spansOf buffers = blocksOf buffers := by
  rw [spansOf, Multiset.filterMap_coe, blocksOf]
  congr 1
  induction buffers with
  | nil => rfl
  | cons buffer rest induction =>
      obtain ⟨own, others⟩ := List.forall_mem_cons.mp filled
      cases somewhere : buffer.address with
      | none =>
          have empty := own.mp somewhere
          rw [List.filterMap_cons_none (by simp [Buffer.span?, somewhere]),
            List.filter_cons_of_neg (by simpa using empty), induction others]
      | some address =>
          have bytes : buffer.length ≠ 0 := fun empty => by simp [own.mpr empty] at somewhere
          rw [List.filterMap_cons_some (by simp [Buffer.span?, somewhere]; rfl),
            List.filter_cons_of_pos (by simpa using bytes), induction others, List.map_cons,
            Buffer.pointer, somewhere]
          rfl

namespace Session

variable {scope : Scope} {count : Nat} {session : Session}

/-- A state that requests can lead to, in an arena of any size. -/
inductive Reached : Session → Prop where
  | start (arena : Arena) : Reached (.start arena)
  | step {session : Session} (reached : Reached session) (request : Request) :
      Reached (session.perform request).2

/-- A state that permitted requests can lead to, with the bases that were handed out raw on the way
and the ledgers that raw requests have passed. -/
inductive CarefulRun : Session → List Nat → List LedgerId → Prop where
  | start (arena : Arena) : CarefulRun (.start arena) [] []
  | step {session : Session} {raw : List Nat} {touched : List LedgerId}
      (run : CarefulRun session raw touched) (request : Request)
      (permitted : session.Permits request) :
      CarefulRun (session.perform request).2
        (rawBases request (session.perform request).1 ++ raw)
        (session.rawLedgers request ++ touched)

theorem Reached.initial : Reached .initial := .start .small

theorem CarefulRun.initial : CarefulRun .initial [] [] := .start .small

/-- The buffers that the objects of a session own, object by object. -/
def ownedBuffers (session : Session) : List Buffer :=
  session.objects.flatMap fun entry => entry.2.buffers

theorem start_sound (arena : Arena) (careful : Prop) :
    (start arena).Sound ⟨[], [], careful⟩ 1 none 0 where
  distinct := by
    change [trackedName, plainName].Nodup
    decide
  named := by simp
  resources := by
    refine List.forall_mem_cons.mpr ⟨?_, List.forall_mem_cons.mpr ⟨?_, by simp⟩⟩
    · intro resource same
      cases same
      exact (Resource.sound_device 0).track
    · intro resource same
      cases same
      exact Resource.sound_device 1
  custody := by
    have empty : Custody ⟨[], [], careful⟩ 0 0 (Machine.start arena) :=
      ⟨Heap.wellFormed_empty arena, rfl, MappingTable.counts_empty, fun _ =>
        ⟨rfl, by simp, by simp, by simp, fun id _ => Ledger.balances_new⟩,
        fun _ _ => List.not_mem_nil⟩
    exact empty.track .device

theorem Reached.sound (reached : Reached session) :
    ∃ scope count, ¬scope.careful ∧ session.Sound scope count none 0 := by
  induction reached with
  | start arena => exact ⟨_, _, id, start_sound arena False⟩
  | step reached request induction =>
      obtain ⟨scope, count, careless, sound⟩ := induction
      obtain ⟨more, next⟩ := sound.perform request fun careful => absurd careful careless
      exact ⟨scope.extend _ _, more, careless, next⟩

/-- In every state of every session, live blocks lie apart from each other below the next base. -/
theorem Reached.wellFormed (reached : Reached session) : session.machine.heap.WellFormed := by
  obtain ⟨scope, count, -, sound⟩ := reached.sound
  exact sound.custody.heap

/-- Whatever resource a session can name, it passes ledgers that exist, each of them once. -/
theorem Reached.resource_sound {via : String} {resource : Resource} (reached : Reached session)
    (provides : (session.find? via).bind Object.resource? = some resource) :
    resource.Sound session.machine.ledgers.length := by
  obtain ⟨scope, count, -, sound⟩ := reached.sound
  obtain ⟨object, named, selected⟩ := Option.bind_eq_some_iff.mp provides
  rw [sound.custody.counted]
  exact sound.object_sound named resource selected

theorem CarefulRun.sound {raw : List Nat} {touched : List LedgerId}
    (run : CarefulRun session raw touched) :
    ∃ count, session.Sound ⟨raw, touched, True⟩ count none 0 := by
  induction run with
  | start arena => exact ⟨1, start_sound arena True⟩
  | step run request permitted induction =>
      obtain ⟨count, sound⟩ := induction
      exact sound.perform request fun _ => permitted

theorem dropAll_custody (sound : session.Sound scope count none 0) :
    Custody scope count 0 session.dropAll.machine := by
  obtain ⟨machine, objects⟩ := session
  have custody : Custody scope count
      (0 + (objects.map fun entry => entry.2.holdings).sum) machine := sound.custody
  have dropped (entries : List (String × Object)) (machine : Machine)
      (custody : Custody scope count (0 + (entries.map fun entry => entry.2.holdings).sum) machine) :
      Custody scope count 0 (entries.foldl (fun machine entry => entry.2.drop machine) machine) := by
    induction entries generalizing machine with
    | nil => exact custody
    | cons entry rest induction =>
        refine induction _ (Object.drop_custody Custody.custodial (custody.of_eq ?_))
        rw [List.map_cons, List.sum_cons]
        abel
  exact dropped objects machine custody

end Session

/-- The live blocks that were not handed out raw are those of `buffers`, each owned once. Books that
no raw request has passed list those of the buffers that were allocated through them, and every
allocation has been freed or is listed. -/
structure Machine.Accounts (machine : Machine) (raw : List Nat) (touched : List LedgerId)
    (buffers : List Buffer) : Prop where
  blocks : (blocksOf buffers).Perm (machine.heap.spans.filter fun span => span.1 ∉ raw)
  once : ((blocksOf buffers).map Prod.fst).Nodup
  listed : ∀ id, id ∉ touched → (machine.ledger id).outstanding.Perm
    (blocksOf (buffers.filter fun buffer => id ∈ buffer.resource.ledgers))
  sparing : ∀ id, id ∉ touched → (machine.ledger id).bogusFrees = 0
  counted : ∀ id, id ∉ touched → (machine.ledger id).allocations =
    (machine.ledger id).frees + (machine.ledger id).outstanding.length

theorem Owned.accounts {raw : List Nat} {touched : List LedgerId} {buffers : List Buffer}
    {machine : Machine} (owned : Owned ⟨raw, touched, True⟩ buffers machine)
    (formed : machine.heap.WellFormed) : machine.Accounts raw touched buffers where
  blocks := by
    rw [← Multiset.coe_eq_coe, ← spansOf_coe owned.filled]
    exact owned.blocks
  once := by
    have distinct := owned.distinct formed
    rwa [spansOf_coe owned.filled, Multiset.map_coe, Multiset.coe_nodup] at distinct
  listed := by
    intro id untouched
    rw [← Multiset.coe_eq_coe, (owned.balanced id untouched).outstanding, passing,
      Multiset.filter_coe, spansOf_coe]
    exact fun buffer member => owned.filled buffer (List.mem_of_mem_filter member)
  sparing := fun id untouched => (owned.balanced id untouched).bogusFrees
  counted := fun id untouched => (owned.balanced id untouched).counted

namespace Session

variable {session : Session} {raw : List Nat} {touched : List LedgerId}

/-- In every state of a careful run the machine accounts for the buffers of the objects and for
nothing else. When all objects are dropped, every block that is left was handed out raw, and books
that no raw request has passed are even. -/
theorem CarefulRun.single_ownership (run : CarefulRun session raw touched) :
    session.machine.Accounts raw touched session.ownedBuffers ∧
      (∀ span ∈ session.dropAll.machine.heap.spans, span.1 ∈ raw) ∧
      ∀ id, id ∉ touched →
        (session.dropAll.machine.ledger id).outstanding = [] ∧
          (session.dropAll.machine.ledger id).bogusFrees = 0 ∧
          (session.dropAll.machine.ledger id).allocations =
            (session.dropAll.machine.ledger id).frees := by
  obtain ⟨count, sound⟩ := run.sound
  have owned : Owned ⟨raw, touched, True⟩ session.ownedBuffers session.machine := by
    have owned := sound.custody.owned trivial
    rwa [zero_add, holdingsWithout, holdings_buffers] at owned
  have dropped := dropAll_custody sound
  have none : Owned ⟨raw, touched, True⟩ ([] : List Buffer) session.dropAll.machine :=
    dropped.owned trivial
  have left := none.accounts dropped.heap
  refine ⟨owned.accounts sound.custody.heap, fun span member => ?_, fun id untouched => ?_⟩
  · by_contra other
    have listed := left.blocks.mem_iff.mpr (List.mem_filter.mpr ⟨member, by simpa using other⟩)
    exact List.not_mem_nil listed
  · have even : (session.dropAll.machine.ledger id).outstanding = [] :=
      (left.listed id untouched).eq_nil
    have counted := left.counted id untouched
    rw [even] at counted
    exact ⟨even, left.sparing id untouched, counted⟩

/-- A column that becomes an array, one that cannot be made, and a raw block that comes and goes. -/
def mixedRequests : List Request := [
  .values "c" ⟨.int32, 0⟩ .i32 [1, 2] (some [true, false]) "mr",
  .allocate "raw" 16 "plain",
  .values "d" ⟨.int32, 0⟩ .i32 [1, 2] (some [true]) "mr",
  .deallocate (.relative "raw" 0) 16 "plain",
  .array "c" "a" "mr"]

theorem CarefulRun.single_ownership_mixed :
    CarefulRun (runFrom mixedRequests .initial).2 [0x100000000100] [] ∧
      (runFrom mixedRequests .initial).2.ownedBuffers.length = 2 ∧
      (runFrom mixedRequests .initial).2.machine.Accounts [0x100000000100] []
        (runFrom mixedRequests .initial).2.ownedBuffers := by
  have made := CarefulRun.initial.step
    (.values "c" ⟨.int32, 0⟩ .i32 [1, 2] (some [true, false]) "mr") (by decide)
  have allocated := made.step (.allocate "raw" 16 "plain") (by decide)
  have refused := allocated.step
    (.values "d" ⟨.int32, 0⟩ .i32 [1, 2] (some [true]) "mr") (by decide)
  have freed := refused.step (.deallocate (.relative "raw" 0) 16 "plain") (by decide +kernel)
  have run : CarefulRun (runFrom mixedRequests .initial).2 [0x100000000100] [] :=
    freed.step (.array "c" "a" "mr") (by decide)
  exact ⟨run, by decide +kernel, run.single_ownership.1⟩

end Session

end DeviceColumns
