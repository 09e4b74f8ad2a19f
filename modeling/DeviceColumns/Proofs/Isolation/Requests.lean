import DeviceColumns.Proofs.Custody.Liveness
import DeviceColumns.Proofs.Custody.Requests
import DeviceColumns.Proofs.Isolation.Confinement

/-!
Confinement from request to request. A request takes, replaces and drops only objects that it names.
What these owned when the request began is given away to it; apart from that it frees only what it
has made itself, and all its copies go there. Raw frees and explicit copies are left out here, as
they name addresses and not objects.
-/

namespace DeviceColumns

set_option autoImplicit false

open DeviceColumns.Action

variable {first : Heap} {given : Set Nat} {names : Set String}

namespace Object

variable {object : Object} {machine : Machine}

theorem loose_of_bases (loose : ∀ base ∈ Buffer.bases object.buffers, first.Loose given base) :
    object.holdings.Loose first given :=
  fun buffer member base place => loose base (Buffer.mem_bases.mpr ⟨buffer, member, place⟩)

theorem loose_of_no_buffers (none : object.buffers = []) : object.holdings.Loose first given :=
  loose_of_bases (by simp [none, Buffer.bases])

theorem drop_since (formed : first.WellFormed) (loose : object.holdings.Loose first given)
    (since : first.Since given machine.heap) : first.Since given (object.drop machine).heap := by
  have confined : Confinement first given (0 + object.holdings) machine := ⟨since, loose.alone⟩
  exact (drop_custody (Confinement.custodial formed given) confined).since

end Object

namespace Session

/-- The bases of the blocks that objects with these names own. -/
def basesOf (session : Session) (names : Set String) : Set Nat :=
  {base | ∃ entry ∈ session.objects, entry.1 ∈ names ∧ base ∈ Buffer.bases entry.2.buffers}

/-- Only loose blocks were freed, and what objects with these names own is loose. -/
structure Confined (first : Heap) (given : Set Nat) (names : Set String) (session : Session) :
    Prop where
  since : first.Since given session.machine.heap
  loose : ∀ entry ∈ session.objects, entry.1 ∈ names → entry.2.holdings.Loose first given

theorem confined_basesOf (session : Session) (names : Set String) :
    session.Confined session.machine.heap (session.basesOf names) names where
  since := .refl _ _
  loose := fun entry member named =>
    Object.loose_of_bases fun _ owned => .inr ⟨entry, member, named, owned⟩

namespace Confined

variable {session : Session} {name : String} {object : Object} {held : Holdings}

theorem onto (confined : session.Confined first given names) {machine : Machine}
    (since : first.Since given machine.heap) :
    Session.Confined first given names { session with machine := machine } :=
  ⟨since, confined.loose⟩

theorem found (confined : session.Confined first given names)
    (found : session.find? name = some object) (named : name ∈ names) :
    object.holdings.Loose first given :=
  confined.loose _ (find?_mem found) named

theorem forget (confined : session.Confined first given names) (name : String) :
    (session.forget name).Confined first given names :=
  ⟨confined.since, fun entry member => confined.loose entry (List.mem_of_mem_filter member)⟩

theorem update (confined : session.Confined first given names)
    (loose : object.holdings.Loose first given) :
    (session.update name object).Confined first given names := by
  refine ⟨confined.since, fun entry member named => ?_⟩
  obtain ⟨old, earlier, rfl⟩ := List.mem_map.mp member
  split_ifs at named ⊢
  · exact loose
  · exact confined.loose old earlier named

theorem bind (confined : session.Confined first given names) (formed : first.WellFormed)
    (named : name ∈ names) (loose : object.holdings.Loose first given) :
    (session.bind name object).Confined first given names := by
  have objects : ∀ entry ∈ (name, object) :: (session.forget name).objects, entry.1 ∈ names →
      entry.2.holdings.Loose first given :=
    List.forall_mem_cons.mpr ⟨fun _ => loose, (confined.forget name).loose⟩
  unfold Session.bind
  cases replaced : session.find? name with
  | none => exact ⟨confined.since, objects⟩
  | some old =>
      have dropped := Object.drop_since formed (confined.found replaced named) confined.since
      exact ⟨dropped, objects⟩

/-- Loose blocks are not used up, so it does not matter what is in hand twice or lent. -/
theorem stewardship (formed : first.WellFormed) (given : Set Nat) (names : Set String) :
    Stewardship (Confinement first given) (fun _ => True)
      (fun buffer => ∀ base, buffer.address = some base → first.next ≤ base) names
      fun _ held session => held.Loose first given ∧ session.Confined first given names where
  toCustodial := Confinement.custodial formed given
  onto := by
    rintro away held session ⟨loose, confined⟩
    refine ⟨0, ⟨confined.since, ?_⟩, fun kept => ⟨?_, confined.onto kept.since⟩⟩
    · rwa [add_zero]
    · exact (Holdings.Loose.add_iff.mp kept.loose).1
  admitted := fun _ _ _ => trivial
  take := by
    rintro held session name object named found ⟨loose, confined⟩
    exact ⟨Holdings.Loose.add_iff.mpr ⟨loose, confined.found found named⟩, confined.forget name⟩
  lend := by
    rintro held session name object (named | bare) found ⟨loose, confined⟩
    · exact ⟨Holdings.Loose.add_iff.mpr ⟨loose, confined.found found named⟩, confined⟩
    · exact ⟨Holdings.Loose.add_iff.mpr ⟨loose, Object.loose_of_no_buffers bare⟩, confined⟩
  restore := fun _ settled => ⟨(Holdings.Loose.add_iff.mp settled.1).1, settled.2⟩
  update := by
    rintro held session name object - ⟨loose, confined⟩
    obtain ⟨others, own⟩ := Holdings.Loose.add_iff.mp loose
    exact ⟨others, confined.update own⟩
  bind := by
    rintro held session name object named - ⟨loose, confined⟩
    obtain ⟨others, own⟩ := Holdings.Loose.add_iff.mp loose
    exact ⟨others, confined.bind formed named own⟩

end Confined

end Session

namespace SessionAction

variable {Fault Value : Type}

/-- The action frees nothing but loose blocks and copies into nothing but new ones. -/
def Confines (first : Heap) (given : Set Nat) (names : Set String) (act : SessionAction Value) :
    Prop :=
  Triple (Session.Confined first given names) act (fun _ => Session.Confined first given names)
    (Session.Confined first given names)

theorem onMachine_confines {wrap : Fault → Failure} {act : Action Machine Fault Value}
    (spec : ∀ machine, first.Since given machine.heap →
      first.Since given (act machine).2.heap) :
    Confines first given names (onMachine wrap act) := by
  intro session confined
  have since := spec session.machine confined.since
  unfold onMachine
  rcases ran : act session.machine with ⟨fault | value, machine⟩ <;> rw [ran] at since
  · exact confined.onto since
  · exact confined.onto since

section Requests

variable (formed : first.WellFormed) {name : String}

include formed

theorem bindBare_confines (named : name ∈ names) {object : Object} (bare : object.buffers = [])
    (answer : Value) :
    Confines first given names (do
      bind name object
      return answer) :=
  Triple.bind (Triple.modify fun _ confined =>
    confined.bind formed named (Object.loose_of_no_buffers bare))
      fun _ => Triple.pure fun _ confined => confined

theorem newResource_confines (named : name ∈ names) (below : String) :
    Confines first given names (newResource name below) := by
  apply (ReadOnly.findAs _ below).keeps.bind
  intro base
  have tracked : Triple (Session.Confined first given names)
      (fun session : Session =>
        ((.ok (session.machine.track base).1 : Except Failure Resource),
          { session with machine := (session.machine.track base).2 }))
      (fun _ => Session.Confined first given names) (Session.Confined first given names) :=
    fun session confined => confined.onto confined.since
  apply tracked.bind
  intro resource
  exact bindBare_confines formed named rfl _

theorem newEngine_confines (named : name ∈ names) (config : EngineConfig) :
    Confines first given names (newEngine name config) := by
  have created : Confines first given names (columns (Engine.create config)) := by
    refine onMachine_confines fun machine since => ?_
    unfold Engine.create
    cases config.accelerator with
    | some ordinal => exact since
    | none =>
        simp only
        split_ifs
        · exact since
        · exact since
  apply created.bind
  intro engine
  have named : Confines first given names (bind name (.engine engine)) :=
    Triple.modify fun _ confined =>
      confined.bind formed named (Object.loose_of_no_buffers rfl)
  apply named.bind
  intro _
  apply (ReadOnly.ledgerOf name).keeps.bind
  intro ledger
  exact Triple.pure fun _ confined => confined

theorem allocateBlock_confines (named : name ∈ names) (size : Nat) (via : String) :
    Confines first given names (allocateBlock name size via) := by
  apply (ReadOnly.findAs _ via).keeps.bind
  intro resource
  have allocated : Confines first given names (memory (resource.allocate size)) := by
    refine onMachine_confines fun machine since => ?_
    rcases ran : resource.allocate size machine with ⟨cause | address, after⟩
    · rw [Resource.allocate_error ran]
      exact since
    · exact (since.allocate (Resource.allocate_heap ran)).2
  apply allocated.bind
  intro address
  exact bindBare_confines formed named rfl _

/-- Every request but raw frees and explicit copies is confined to what it names. -/
theorem carryOut_confines {request : Request} (named : request.names ⊆ names)
    (notFree : ∀ pointer size via, request ≠ .deallocate pointer size via)
    (notWrite : ∀ pointer bytes, request ≠ .write pointer bytes) :
    Confines first given names (carryOut request) := by
  by_cases special : request.Special
  · cases request with
    | resource name below => exact newResource_confines formed (named rfl) below
    | engine name config => exact newEngine_confines formed (named rfl) config
    | allocate name size via => exact allocateBlock_confines formed (named rfl) size via
    | deallocate pointer size via => exact absurd rfl (notFree pointer size via)
    | write pointer bytes => exact absurd rfl (notWrite pointer bytes)
    | _ => exact special.elim
  · have settles := (Session.Confined.stewardship formed given names).carryOut_settles named special
    exact (settles 0).conseq (fun _ confined => ⟨.zero, confined⟩) (fun _ _ settled => settled.2)
      fun _ settled => settled.2

end Requests

end SessionAction

end DeviceColumns
