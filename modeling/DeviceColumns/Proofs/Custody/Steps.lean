import DeviceColumns.Proofs.Custody.Requests

/-!
One step of a session. New counting resources add ledgers, and requests for raw blocks and raw frees
change what went past the buffers; with that booked in the scope, every request leads from a session
that keeps all holdings to another one.
-/

namespace DeviceColumns

set_option autoImplicit false

open DeviceColumns.Action

def Scope.extend (scope : Scope) (bases : List Nat) (ids : List LedgerId) : Scope :=
  { scope with raw := bases ++ scope.raw, touched := ids ++ scope.touched }

theorem Owned.touch {scope : Scope} {buffers : Multiset Buffer} {machine : Machine}
    (owned : Owned scope buffers machine) (ids : List LedgerId) :
    Owned (scope.extend [] ids) buffers machine where
  blocks := owned.blocks
  filled := owned.filled
  rawBelow := owned.rawBelow
  booked := owned.booked
  balanced := by
    intro id untouched
    simp only [Scope.extend, List.mem_append, not_or] at untouched
    exact owned.balanced id untouched.2

theorem Resource.Sound.track {base : Resource} {machine : Machine}
    (sound : base.Sound machine.ledgers.length) :
    (machine.track base).1.Sound (machine.ledgers.length + 1) where
  distinct := List.nodup_cons.mpr
    ⟨fun member => Nat.lt_irrefl _ (sound.existing _ member), sound.distinct⟩
  existing := List.forall_mem_cons.mpr
    ⟨Nat.lt_succ_self _, fun id member => Nat.lt_succ_of_lt (sound.existing id member)⟩

namespace Session

variable {scope : Scope} {count : Nat} {away : Option String} {held : Holdings} {session : Session}

theorem Sound.touch (sound : session.Sound scope count away held) (ids : List LedgerId) :
    session.Sound (scope.extend [] ids) count away held where
  distinct := sound.distinct
  named := sound.named
  resources := sound.resources
  custody := ⟨sound.custody.heap, sound.custody.counted, sound.custody.mappings,
    fun careful => (sound.custody.owned careful).touch ids, sound.custody.quiet⟩

theorem Sound.track (sound : session.Sound scope count none held) (base : Resource) :
    Session.Sound scope (count + 1) none held
      { session with machine := (session.machine.track base).2 } where
  distinct := sound.distinct
  named := by simp
  resources := fun entry member resource some =>
    (sound.resources entry member resource some).mono (Nat.le_succ count)
  custody := sound.custody.track base

/-- The ledgers that a request for a raw block or a raw free passes. -/
def rawLedgers (session : Session) : Request → List LedgerId
  | .allocate _ _ via | .deallocate _ _ via =>
      (((session.find? via).bind Object.resource?).map Resource.ledgers).getD []
  | _ => []

/-- The base that an answer hands out raw. -/
def rawBases : Request → Except Failure Answer → List Nat
  | .allocate _ _ _, .ok (.address base) => [base]
  | _, _ => []

def rawFreed? (session : Session) : Request → Option Nat
  | .deallocate pointer _ _ => (SessionAction.resolve pointer session).1.toOption
  | _ => none

/-- A raw free may not be given the address of a buffer that some object owns. -/
def Permits (session : Session) (request : Request) : Prop :=
  ∀ address ∈ session.rawFreed? request, ∀ entry ∈ session.objects,
    ∀ buffer ∈ entry.2.buffers, buffer.address ≠ some address

instance (session : Session) (request : Request) : Decidable (session.Permits request) :=
  inferInstanceAs (Decidable (∀ address ∈ session.rawFreed? request, ∀ entry ∈ session.objects,
    ∀ buffer ∈ entry.2.buffers, buffer.address ≠ some address))

end Session

namespace SessionAction

variable {scope : Scope} {count : Nat} {held : Holdings}

theorem bind_empty {name : String} {object : Object} (formed : object.Sound count)
    (empty : object.holdings = 0) {failed : Session → Prop} :
    Triple (Session.Sound scope count none held) (bind name object)
      (fun _ => Session.Sound scope count none held) failed :=
  Triple.modify fun _ sound => Session.Sound.bind (sound.of_eq (by rw [empty, add_zero])) formed

theorem newResource_sound (name below : String) :
    Triple (Session.Sound scope count none held) (newResource name below)
      (fun _ => Session.Sound scope (count + 1) none held)
      (Session.Sound scope count none held) := by
  apply (Session.Sound.stewardship.resourceOf below).bindFact
  intro base sound
  have tracked : Triple (Session.Sound scope count none held)
      (fun session : Session =>
        ((.ok (session.machine.track base).1 : Except Failure Resource),
          { session with machine := (session.machine.track base).2 }))
      (fun resource session =>
        resource.Sound (count + 1) ∧ session.Sound scope (count + 1) none held)
      (Session.Sound scope count none held) := by
    intro session settled
    have formed : (session.machine.track base).1.Sound (count + 1) := by
      have counted := settled.custody.counted
      subst counted
      exact sound.track
    exact ⟨formed, settled.track base⟩
  apply tracked.bindFact
  intro resource formed
  have named : (Object.resource resource).Sound (count + 1) := by
    intro other same
    cases same
    exact formed
  apply (bind_empty named rfl).bind
  intro _
  exact Triple.pure fun _ settled => settled

theorem create_sound (config : EngineConfig) :
    Triple (Session.Sound scope count none held) (columns (Engine.create config))
      (fun engine session => ∃ more, engine.resource.Sound more ∧
        session.Sound scope more none held)
      (Session.Sound scope count none held) := by
  intro session sound
  unfold columns onMachine Engine.create
  cases config.accelerator with
  | some ordinal => exact sound
  | none =>
      simp only
      split_ifs with tracked
      · refine ⟨count + 1, ?_, sound.track .device⟩
        have counted := sound.custody.counted
        subst counted
        exact (Resource.sound_device _).track
      · exact ⟨count, Resource.sound_device count, sound⟩

theorem newEngine_sound (name : String) (config : EngineConfig) :
    Triple (Session.Sound scope count none held) (newEngine name config)
      (fun _ session => ∃ more, session.Sound scope more none held)
      (fun session => ∃ more, session.Sound scope more none held) := by
  refine ((create_sound config).conseq (fun _ sound => sound) (fun _ _ sound => sound)
    fun _ sound => ⟨count, sound⟩).bind fun engine => ?_
  rintro session ⟨more, formed, sound⟩
  have named : (Object.engine engine).Sound more := by
    intro other same
    cases same
    exact formed
  have finish : Triple (Session.Sound scope more none held)
      (do
        bind name (.engine engine)
        let ledger ← ledgerOf name
        return Answer.engine engine ledger)
      (fun _ => Session.Sound scope more none held) (Session.Sound scope more none held) := by
    apply (bind_empty named rfl).bind
    intro _
    apply (ReadOnly.ledgerOf name).keeps.bind
    intro ledger
    exact Triple.pure fun _ settled => settled
  exact finish.conseq (fun _ settled => settled) (fun _ _ settled => ⟨more, settled⟩)
    (fun _ settled => ⟨more, settled⟩) session sound

/-- What `resourceOf` finds, if it finds anything, is the resource whose ledgers a raw request
passes. -/
theorem resourceOf_cases (session : Session) (via : String) :
    (∃ resource, resourceOf via session = (.ok resource, session) ∧
      (session.find? via).bind Object.resource? = some resource) ∨
    ∃ fault, resourceOf via session = (.error fault, session) := by
  have same := ReadOnly.findAs Object.resource? via session
  have spec : Triple (fun _ : Session => True) (findAs Object.resource? via) _ _ :=
    findAs_found Object.resource? via
  have found := spec session trivial
  unfold resourceOf
  rcases ran : findAs Object.resource? via session with ⟨fault | resource, after⟩ <;>
    rw [ran] at same found <;> simp only at same <;> subst same
  · exact .inr ⟨fault, rfl⟩
  · obtain ⟨⟨object, named, selected⟩, -⟩ := found
    exact .inl ⟨resource, rfl, by rw [named]; exact selected⟩

variable {session : Session}

theorem allocateBlock_sound (sound : session.Sound scope count none held) (name : String)
    (size : Nat) (via : String) :
    let (outcome, after) := allocateBlock name size via session
    after.Sound (scope.extend (Session.rawBases (.allocate name size via) outcome)
      (session.rawLedgers (.allocate name size via))) count none held := by
  unfold allocateBlock
  obtain ⟨resource, ran, found⟩ | ⟨fault, ran⟩ := resourceOf_cases session via
  · rw [bind_ok ran]
    have ledgers : session.rawLedgers (.allocate name size via) = resource.ledgers := by
      simp [Session.rawLedgers, found]
    obtain ⟨object, named, selected⟩ := Option.bind_eq_some_iff.mp found
    have formed := sound.object_sound named resource selected
    rw [bind_apply, memory, onMachine, ledgers]
    rcases granted : resource.allocate size session.machine with ⟨cause | address, machine⟩
    · rw [Resource.allocate_error granted]
      exact sound.touch resource.ledgers
    · have custody := sound.custody.allocateRaw formed granted
      have raw : Session.Sound (scope.extend [address] resource.ledgers) count none held
          { session with machine := machine } :=
        ⟨sound.distinct, sound.named, sound.resources, custody⟩
      exact (raw.of_eq (add_zero held).symm).bind (Object.sound_of_no_resource rfl)
  · rw [bind_error ran]
    exact sound.touch _

theorem freeBlock_sound (sound : session.Sound scope count none held) (pointer : Pointer)
    (size : Nat) (via : String)
    (permitted : scope.careful → ∀ address, (resolve pointer session).1 = .ok address →
      ∀ buffer ∈ (held + session.holdings).1, buffer.address ≠ some address) :
    (freeBlock pointer size via session).2.Sound
      (scope.extend [] (session.rawLedgers (.deallocate pointer size via))) count none held := by
  unfold freeBlock
  obtain ⟨resource, ran, found⟩ | ⟨fault, ran⟩ := resourceOf_cases session via
  · rw [bind_ok ran]
    have ledgers : session.rawLedgers (.deallocate pointer size via) = resource.ledgers := by
      simp [Session.rawLedgers, found]
    have same := ReadOnly.resolve pointer session
    rw [bind_apply, ledgers]
    rcases resolved : resolve pointer session with ⟨fault | address, after⟩ <;>
      rw [resolved] at same permitted <;> simp only at same <;> subst same
    · exact sound.touch resource.ledgers
    · have custody := sound.custody.freeRaw resource size fun careful =>
        permitted careful address rfl
      exact ⟨sound.distinct, sound.named, sound.resources, custody⟩
  · rw [bind_error ran]
    exact sound.touch _

theorem writeBytes_settles (pointer : Pointer) (bytes : Bytes) :
    Settles (Session.Sound scope count) (writeBytes pointer bytes) := by
  intro held
  apply (ReadOnly.resolve pointer).keeps.bind
  intro address
  apply (Session.Sound.stewardship.framed fun frame =>
    Machine.write_custody (held + frame) address bytes).bind
  intro _
  exact Triple.pure fun _ sound => sound

theorem carryOut_sound (request : Request)
    (notAllocate : ∀ name size via, request ≠ .allocate name size via)
    (notFree : ∀ pointer size via, request ≠ .deallocate pointer size via) :
    Triple (Session.Sound scope count none held) (carryOut request)
      (fun _ session => ∃ more, session.Sound scope more none held)
      (fun session => ∃ more, session.Sound scope more none held) := by
  have settled {act : SessionAction Answer} (settles : Settles (Session.Sound scope count) act) :
      Triple (Session.Sound scope count none held) act
        (fun _ session => ∃ more, session.Sound scope more none held)
        (fun session => ∃ more, session.Sound scope more none held) :=
    (settles held).conseq (fun _ sound => sound) (fun _ _ sound => ⟨count, sound⟩)
      fun _ sound => ⟨count, sound⟩
  by_cases special : request.Special
  · cases request with
    | resource name below =>
        exact (newResource_sound name below).conseq (fun _ sound => sound)
          (fun _ _ sound => ⟨count + 1, sound⟩) fun _ sound => ⟨count, sound⟩
    | engine name config => exact newEngine_sound name config
    | allocate name size via => exact absurd rfl (notAllocate name size via)
    | deallocate pointer size via => exact absurd rfl (notFree pointer size via)
    | write pointer bytes => exact settled (writeBytes_settles pointer bytes)
    | _ => exact special.elim
  · exact settled (Session.Sound.stewardship.carryOut_settles (Set.subset_univ _) special)

end SessionAction

namespace Session

variable {scope : Scope} {count : Nat} {session : Session}

theorem Sound.clearLog (sound : session.Sound scope count none 0) :
    Session.Sound scope count none 0
      { session with machine := { session.machine with log := [] } } :=
  sound.onto sound.custody.clearLog

theorem holdings_buffers (session : Session) :
    session.holdings.1 = (session.objects.flatMap fun entry => entry.2.buffers : List Buffer) := by
  obtain ⟨machine, objects⟩ := session
  induction objects with
  | nil => rfl
  | cons entry rest induction =>
      rw [holdings, List.map_cons, List.sum_cons, Prod.fst_add, List.flatMap_cons,
        ← Multiset.coe_add, ← induction]
      rfl

theorem resolve_clearLog (pointer : Pointer) :
    (SessionAction.resolve pointer
      { session with machine := { session.machine with log := [] } }).1 =
      (SessionAction.resolve pointer session).1 := by
  cases pointer with
  | absolute address => rfl
  | relative object offset =>
      simp only [SessionAction.resolve, SessionAction.findAs, SessionAction.find, bind_apply,
        Session.find?]
      cases session.objects.lookup object with
      | none => rfl
      | some found =>
          simp only
          cases found.address? <;> rfl

theorem rawBases_other {request : Request} {outcome : Except Failure Answer}
    (notAllocate : ∀ name size via, request ≠ .allocate name size via) :
    rawBases request outcome = [] := by
  unfold rawBases
  split
  · exact absurd rfl (notAllocate _ _ _)
  · rfl

theorem rawLedgers_other {request : Request}
    (notAllocate : ∀ name size via, request ≠ .allocate name size via)
    (notFree : ∀ pointer size via, request ≠ .deallocate pointer size via) :
    session.rawLedgers request = [] := by
  unfold rawLedgers
  split
  · exact absurd rfl (notAllocate _ _ _)
  · exact absurd rfl (notFree _ _ _)
  · rfl

/-- Every request leads from a session that keeps all holdings to another one, with what it did past
the buffers booked in the scope. -/
theorem Sound.perform (sound : session.Sound scope count none 0) (request : Request)
    (permitted : scope.careful → session.Permits request) :
    ∃ more, (session.perform request).2.Sound
      (scope.extend (rawBases request (session.perform request).1) (session.rawLedgers request))
      more none 0 := by
  have cleared := sound.clearLog
  by_cases allocates : ∃ name size via, request = .allocate name size via
  · obtain ⟨name, size, via, rfl⟩ := allocates
    exact ⟨count, SessionAction.allocateBlock_sound cleared name size via⟩
  · by_cases frees : ∃ pointer size via, request = .deallocate pointer size via
    · obtain ⟨pointer, size, via, rfl⟩ := frees
      refine ⟨count, SessionAction.freeBlock_sound cleared pointer size via ?_⟩
      intro careful address resolved buffer member
      rw [resolve_clearLog] at resolved
      rw [zero_add, holdings_buffers, Multiset.mem_coe, List.mem_flatMap] at member
      obtain ⟨entry, named, owned⟩ := member
      exact permitted careful address (by rw [rawFreed?, resolved]; rfl) entry named buffer owned
    · have notAllocate : ∀ name size via, request ≠ .allocate name size via :=
        fun name size via same => allocates ⟨name, size, via, same⟩
      have notFree : ∀ pointer size via, request ≠ .deallocate pointer size via :=
        fun pointer size via same => frees ⟨pointer, size, via, same⟩
      rw [rawBases_other notAllocate, rawLedgers_other notAllocate notFree]
      have outcome := SessionAction.carryOut_sound request notAllocate notFree _ cleared
      unfold Session.perform
      rcases ran : SessionAction.carryOut request
          { session with machine := { session.machine with log := [] } } with ⟨fault | value, after⟩ <;>
        rw [ran] at outcome <;> exact outcome

end Session

end DeviceColumns
