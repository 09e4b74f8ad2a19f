import DeviceColumns.Proofs.Custody.Runs
import DeviceColumns.Proofs.Isolation.Requests

/-!
Isolation over whole runs. What a request does to memory is recorded as a history of its heap, and
it frees and overwrites nothing but what it names or has made itself. From this the bytes of a live
block are at any moment those that were last copied there, and a column whose blocks are live and
were not copied into still reads as it did.
-/

namespace DeviceColumns

set_option autoImplicit false

open DeviceColumns.Action

namespace SessionAction

theorem freeBlock_heap (pointer : Pointer) (size : Nat) (via : String) (session : Session) :
    (freeBlock pointer size via session).2.machine.heap = session.machine.heap ∨
      ∃ address, (resolve pointer session).1 = .ok address ∧
        (freeBlock pointer size via session).2.machine.heap = session.machine.heap.free address := by
  unfold freeBlock
  obtain ⟨resource, found, -⟩ | ⟨fault, missing⟩ := resourceOf_cases session via
  · rw [bind_ok found]
    have same := ReadOnly.resolve pointer session
    rcases resolved : resolve pointer session with ⟨fault | address, after⟩ <;>
      rw [resolved] at same <;> simp only at same <;> subst same
    · rw [bind_error resolved]
      exact .inl rfl
    · rw [bind_ok resolved]
      have frame := Machine.freeFrame_freeThrough resource.ledgers address size after.machine
      obtain same | freed := frame.heap
      · exact .inl same
      · exact .inr ⟨address, rfl, freed⟩
  · rw [bind_error missing]
    exact .inl rfl

theorem writeBytes_heap (pointer : Pointer) (bytes : Bytes) (session : Session) :
    (writeBytes pointer bytes session).2.machine.heap = session.machine.heap ∨
      ∃ address, (resolve pointer session).1 = .ok address ∧
        session.machine.heap.write address bytes =
          .ok (writeBytes pointer bytes session).2.machine.heap := by
  unfold writeBytes
  have same := ReadOnly.resolve pointer session
  rcases resolved : resolve pointer session with ⟨fault | address, after⟩ <;>
    rw [resolved] at same <;> simp only at same <;> subst same
  · rw [bind_error resolved]
    exact .inl rfl
  · rw [bind_ok resolved, bind_apply, memory, onMachine, Machine.write]
    cases written : after.machine.heap.write address bytes with
    | error cause => exact .inl rfl
    | ok heap => exact .inr ⟨address, rfl, written⟩

end SessionAction

namespace Session

variable {session : Session} {request : Request} {events : List Heap.Event} {block : Block}

/-- The copy that a request makes on demand, if it is not refused: an address and at least one byte
that goes there. -/
def copied? (session : Session) : Request → Option (Nat × Bytes)
  | .write pointer bytes =>
      match (SessionAction.resolve pointer session).1 with
      | .ok address =>
          if bytes ≠ [] ∧ (session.machine.heap.write address bytes).isOk then some (address, bytes)
          else none
      | .error _ => none
  | _ => none

/-- The request names an object that owns the block, frees it by its base, or copies to an address
inside it. -/
def Touches (session : Session) (request : Request) (block : Block) : Prop :=
  block.base ∈ session.basesOf request.names ∨ session.rawFreed? request = some block.base ∨
    ∃ copy ∈ session.copied? request, block.holds copy.1

/-- The events, latest first, are what the request did to memory. It freed what it names and what it
has made, and copied to where it was told to and into what it has made. -/
structure Effects (session : Session) (request : Request) (events : List Heap.Event) : Prop where
  history : Heap.History session.machine.heap events (session.perform request).2.machine.heap
  frees : ∀ base, .freed base ∈ events → session.machine.heap.next ≤ base ∨
    base ∈ session.basesOf request.names ∨ session.rawFreed? request = some base
  copies : ∀ address bytes, .copied address bytes ∈ events →
    session.machine.heap.next ≤ address ∨ session.copied? request = some (address, bytes)

theorem effects_none (same : (session.perform request).2.machine.heap = session.machine.heap) :
    session.Effects request [] :=
  ⟨same ▸ .start, by simp, by simp⟩

/-- Every request has effects that it accounts for. -/
theorem perform_effects (formed : session.machine.heap.WellFormed) (request : Request) :
    ∃ events, session.Effects request events := by
  by_cases frees : ∃ pointer size via, request = .deallocate pointer size via
  · obtain ⟨pointer, size, via, rfl⟩ := frees
    obtain same | ⟨address, resolved, freed⟩ := SessionAction.freeBlock_heap pointer size via
      { session with machine := { session.machine with log := [] } }
    · exact ⟨[], effects_none same⟩
    · rw [resolve_clearLog] at resolved
      refine ⟨[.freed address], ?_, fun base member => ?_, by simp⟩
      · have step : Heap.Step session.machine.heap (.freed address)
            (session.perform (.deallocate pointer size via)).2.machine.heap :=
          freed ▸ .freed _ address
        exact .next .start step
      · cases List.mem_singleton.mp member
        exact .inr (.inr (by rw [rawFreed?, resolved]; rfl))
  · by_cases writes : ∃ pointer bytes, request = .write pointer bytes
    · obtain ⟨pointer, bytes, rfl⟩ := writes
      obtain same | ⟨address, resolved, written⟩ := SessionAction.writeBytes_heap pointer bytes
        { session with machine := { session.machine with log := [] } }
      · exact ⟨[], effects_none same⟩
      · rw [resolve_clearLog] at resolved
        by_cases nothing : bytes = []
        · subst nothing
          exact ⟨[], effects_none (Heap.write_nothing written)⟩
        · have told : session.copied? (.write pointer bytes) = some (address, bytes) := by
            have accepted : session.machine.heap.write address bytes = .ok _ := written
            simp [copied?, resolved, nothing, accepted, Except.isOk, Except.toBool]
          refine ⟨[.copied address bytes], .next .start (.copied written), by simp,
            fun place other member => ?_⟩
          cases List.mem_singleton.mp member
          exact .inr told
    · have notFree : ∀ pointer size via, request ≠ .deallocate pointer size via :=
        fun pointer size via same => frees ⟨pointer, size, via, same⟩
      have notWrite : ∀ pointer bytes, request ≠ .write pointer bytes :=
        fun pointer bytes same => writes ⟨pointer, bytes, same⟩
      have start := session.confined_basesOf request.names
      have outcome := SessionAction.carryOut_confines formed (Set.Subset.refl _) notFree notWrite
        { session with machine := { session.machine with log := [] } } (start.onto start.since)
      have since : session.machine.heap.Since (session.basesOf request.names)
          (session.perform request).2.machine.heap := by
        unfold Session.perform
        rcases ran : SessionAction.carryOut request
          { session with machine := { session.machine with log := [] } } with ⟨fault | value, after⟩ <;>
        rw [ran] at outcome
        · exact outcome.since
        · exact outcome.since
      obtain ⟨events, history, freed, copied⟩ := since
      refine ⟨events, history, fun base member => ?_, fun address bytes member => ?_⟩
      · obtain newer | owned := freed base member
        · exact .inl newer
        · exact .inr (.inl owned)
      · exact .inl (copied address bytes member)

namespace Effects

variable (effects : session.Effects request events) (formed : session.machine.heap.WellFormed)

include effects formed

theorem keeps_block (live : block ∈ session.machine.heap.blocks)
    (untouched : ¬session.Touches request block) :
    block ∈ (session.perform request).2.machine.heap.blocks := by
  refine effects.history.keeps_block formed live (fun freed => ?_) fun address bytes copied => ?_
  · obtain newer | owned | raw := effects.frees _ freed
    · exact absurd (formed.base_lt live) (Nat.not_lt_of_le newer)
    · exact untouched (.inl owned)
    · exact untouched (.inr (.inl raw))
  · refine (effects.copies address bytes copied).imp_right fun told holds => ?_
    exact untouched (.inr (.inr ⟨_, told, holds⟩))

theorem had_block (live : block ∈ (session.perform request).2.machine.heap.blocks)
    (older : block.base < session.machine.heap.next)
    (spared : ∀ copy ∈ session.copied? request, ¬block.holds copy.1) :
    block ∈ session.machine.heap.blocks :=
  effects.history.had_block formed live older fun address bytes copied =>
    (effects.copies address bytes copied).imp_right fun told => spared _ told

end Effects

/-- A run together with all that it did to memory, latest first. -/
inductive Recorded : List Heap.Event → Session → Prop where
  | start (arena : Arena) : Recorded [] (.start arena)
  | step {session : Session} {request : Request} {earlier latest : List Heap.Event}
      (recorded : Recorded earlier session) (effects : session.Effects request latest) :
      Recorded (latest ++ earlier) (session.perform request).2

theorem Recorded.history (recorded : Recorded events session) :
    ∃ arena, Heap.History (.empty arena) events session.machine.heap := by
  induction recorded with
  | start arena => exact ⟨arena, .start⟩
  | step recorded effects induction =>
      obtain ⟨arena, history⟩ := induction
      exact ⟨arena, history.trans effects.history⟩

theorem Reached.recorded (reached : session.Reached) : ∃ events, Recorded events session := by
  induction reached with
  | start arena => exact ⟨[], .start arena⟩
  | step reached request induction =>
      obtain ⟨earlier, recorded⟩ := induction
      obtain ⟨latest, effects⟩ := perform_effects reached.wellFormed request
      exact ⟨latest ++ earlier, recorded.step effects⟩

/-- Requests lead from the first session to the last one, with these explicit copies on the way. -/
inductive Leads (first : Session) : List (Nat × Bytes) → Session → Prop where
  | start : Leads first [] first
  | step {copies : List (Nat × Bytes)} {session : Session} (leads : Leads first copies session)
      (request : Request) :
      Leads first ((session.copied? request).toList ++ copies) (session.perform request).2

namespace Leads

variable {first : Session} {copies : List (Nat × Bytes)}

theorem reached (leads : Leads first copies session) (start : first.Reached) : session.Reached := by
  induction leads with
  | start => exact start
  | step leads request induction => exact induction.step request

theorem next_le (leads : Leads first copies session) (start : first.Reached) :
    first.machine.heap.next ≤ session.machine.heap.next := by
  induction leads with
  | start => exact Nat.le_refl _
  | step leads request induction =>
      obtain ⟨events, effects⟩ := perform_effects (leads.reached start).wellFormed request
      exact Nat.le_trans induction effects.history.next_le

/-- A block that is live at the end and not new was there in the beginning, with the
same size. -/
theorem had_span {span : Nat × Nat} (leads : Leads first copies session) (start : first.Reached)
    (live : span ∈ session.machine.heap.spans) (older : span.1 < first.machine.heap.next) :
    span ∈ first.machine.heap.spans := by
  induction leads with
  | start => exact live
  | step leads request induction =>
      have formed := (leads.reached start).wellFormed
      obtain ⟨events, effects⟩ := perform_effects formed request
      have still := Nat.lt_of_lt_of_le older (leads.next_le start)
      exact induction (effects.history.had_span formed live still)

/-- It had the same bytes too, unless it was copied into. -/
theorem had_block (leads : Leads first copies session) (start : first.Reached)
    (live : block ∈ session.machine.heap.blocks) (older : block.base < first.machine.heap.next)
    (spared : ∀ copy ∈ copies, ¬block.holds copy.1) : block ∈ first.machine.heap.blocks := by
  induction leads with
  | start => exact live
  | step leads request induction =>
      obtain ⟨told, earlier⟩ := List.forall_mem_append.mp spared
      have formed := (leads.reached start).wellFormed
      obtain ⟨events, effects⟩ := perform_effects formed request
      have before := effects.had_block formed live (Nat.lt_of_lt_of_le older (leads.next_le start))
        fun copy member => told copy (Option.mem_toList.mpr member)
      exact induction before earlier

/-- Buffers on blocks that are live at the end and were not copied into hold what they held. -/
theorem preserves {buffers : List Buffer} (leads : Leads first copies session)
    (start : first.Reached)
    (live : ∀ base ∈ Buffer.bases buffers, session.machine.heap.isLive base = true)
    (spared : ∀ copy ∈ copies, ∀ block ∈ session.machine.heap.blocks,
      block.base ∈ Buffer.bases buffers → ¬block.holds copy.1) :
    first.machine.heap.Preserves buffers session.machine.heap := by
  intro buffer member base place bytes stored
  obtain ⟨old, found, rfl, rfl⟩ := Heap.stored?_some stored
  have oldLive := (Heap.blockFrom?_some found).1
  have owned : old.base ∈ Buffer.bases buffers := Buffer.mem_bases.mpr ⟨buffer, member, place⟩
  obtain ⟨block, still, based⟩ := Heap.block_of_isLive (live old.base owned)
  have before : block ∈ first.machine.heap.blocks := by
    refine leads.had_block start still ?_ fun copy copied => ?_
    · rw [based]
      exact start.wellFormed.base_lt oldLive
    · exact spared copy copied block still (based ▸ owned)
  obtain rfl := start.wellFormed.block_unique before oldLive based
  exact (leads.reached start).wellFormed.stored?_base still

end Leads

end Session

end DeviceColumns
