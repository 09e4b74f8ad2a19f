import DeviceColumns.Proofs.Memory.Books
import Mathlib.Algebra.BigOperators.Group.Finset.Basic

/-!
What the books of a counting resource say about the calls that it has seen. Addresses are lent out by
allocations that are granted and come back by frees; a free of any other address is bogus. A ledger
that records each call as it comes lists what is lent out and counts the rest, whatever is freed.
-/

namespace DeviceColumns

set_option autoImplicit false

/-- A call to a resource and how it ended. Frees have no outcome. -/
inductive MemoryCall where
  | granted (address size : Nat)
  | refused (size : Nat)
  | freed (address size : Nat)

namespace MemoryCall

/-- The size under which an address is lent out after some calls, of which the latest comes first. -/
def lent? : List MemoryCall → Nat → Option Nat
  | [], _ => none
  | .granted address size :: earlier, place =>
      if place = address then some size else lent? earlier place
  | .refused _ :: earlier, place => lent? earlier place
  | .freed address _ :: earlier, place => if place = address then none else lent? earlier place

/-- The address was granted and has not been freed since. -/
def Outstanding (calls : List MemoryCall) (place : Nat) : Prop :=
  ∃ later size earlier, calls = later ++ .granted place size :: earlier ∧
    ∀ given, .freed place given ∉ later

def lentOut : List MemoryCall → Finset Nat
  | [] => ∅
  | .granted address _ :: earlier => insert address (lentOut earlier)
  | .refused _ :: earlier => lentOut earlier
  | .freed address _ :: earlier => (lentOut earlier).erase address

def grants : List MemoryCall → Nat
  | [] => 0
  | .granted _ _ :: earlier => grants earlier + 1
  | .refused _ :: earlier => grants earlier
  | .freed _ _ :: earlier => grants earlier

/-- The number of frees of addresses that were lent out. -/
def honoured : List MemoryCall → Nat
  | [] => 0
  | .granted _ _ :: earlier => honoured earlier
  | .refused _ :: earlier => honoured earlier
  | .freed address _ :: earlier =>
      if (lent? earlier address).isSome then honoured earlier + 1 else honoured earlier

/-- The number of frees of addresses that were not lent out. -/
def bogus : List MemoryCall → Nat
  | [] => 0
  | .granted _ _ :: earlier => bogus earlier
  | .refused _ :: earlier => bogus earlier
  | .freed address _ :: earlier =>
      if (lent? earlier address).isSome then bogus earlier else bogus earlier + 1

variable {calls : List MemoryCall} {place : Nat}

theorem outstanding_cons {call : MemoryCall} : Outstanding (call :: calls) place ↔
    (∃ size, call = .granted place size) ∨
      Outstanding calls place ∧ ∀ given, call ≠ .freed place given := by
  constructor
  · rintro ⟨later, size, earlier, split, kept⟩
    cases later with
    | nil => exact .inl ⟨size, (List.cons.inj split).1⟩
    | cons first later =>
        obtain ⟨rfl, rfl⟩ := List.cons.inj split
        refine .inr ⟨⟨later, size, earlier, rfl, fun given member => ?_⟩, fun given same => ?_⟩
        · exact kept given (List.mem_cons_of_mem _ member)
        · exact kept given (same ▸ List.mem_cons_self)
  · rintro (⟨size, rfl⟩ | ⟨⟨later, size, earlier, rfl, kept⟩, other⟩)
    · exact ⟨[], size, calls, rfl, by simp⟩
    · refine ⟨call :: later, size, earlier, rfl, fun given member => ?_⟩
      obtain same | behind := List.mem_cons.mp member
      · exact other given same.symm
      · exact kept given behind

/-- An address is lent out exactly if it was granted and has not been freed since. -/
theorem isSome_lent? : (lent? calls place).isSome = true ↔ Outstanding calls place := by
  induction calls with
  | nil => simp [lent?, Outstanding]
  | cons call earlier induction =>
      rw [outstanding_cons, ← induction]
      cases call with
      | granted address size =>
          by_cases same : place = address
          · simp [lent?, same]
          · simp [lent?, same, Ne.symm same]
      | refused size => simp [lent?]
      | freed address size =>
          by_cases same : place = address
          · simp [lent?, same]
          · simp [lent?, same, Ne.symm same]

theorem mem_lentOut : place ∈ lentOut calls ↔ (lent? calls place).isSome = true := by
  induction calls with
  | nil => simp [lent?, lentOut]
  | cons call earlier induction =>
      cases call with
      | granted address size =>
          by_cases same : place = address <;> simp [lent?, lentOut, same, induction]
      | refused size => exact induction
      | freed address size =>
          by_cases same : place = address <;> simp [lent?, lentOut, same, induction]

/-! ### Calls that are passed on -/

end MemoryCall

open MemoryCall

/-! ### One ledger -/

namespace Ledger

/-- What a ledger shows after some calls. -/
structure Accounts (ledger : Ledger) (calls : List MemoryCall) : Prop where
  balance : ledger.allocations = ledger.frees + ledger.outstanding.length
  allocations : ledger.allocations = grants calls
  frees : ledger.frees = honoured calls
  bogusFrees : ledger.bogusFrees = bogus calls
  size? : ∀ address, ledger.size? address = lent? calls address
  isOutstanding : ∀ address, ledger.isOutstanding address = true ↔ Outstanding calls address
  outstanding : ledger.outstanding.length = (lentOut calls).card
  outstandingBytes : ledger.outstandingBytes =
    ∑ address ∈ lentOut calls, (lent? calls address).getD 0

/-- The invariant behind it: the ledger lists every lent address once, and the counters count. -/
structure Tallies (ledger : Ledger) (calls : List MemoryCall) : Prop where
  distinct : (ledger.outstanding.map Prod.fst).Nodup
  size? : ∀ address, ledger.size? address = lent? calls address
  allocations : ledger.allocations = grants calls
  frees : ledger.frees = honoured calls
  bogusFrees : ledger.bogusFrees = bogus calls
  counted : grants calls = honoured calls + (lentOut calls).card

variable {ledger : Ledger} {calls : List MemoryCall} {address size : Nat}

theorem size?_recordFree_same : (ledger.recordFree address).size? address = none :=
  lookup_filter_same _ _

theorem isSome_lookup {entries : List (Nat × Nat)} {place : Nat} :
    (entries.lookup place).isSome = true ↔ place ∈ entries.map Prod.fst := by
  induction entries with
  | nil => simp
  | cons entry rest induction =>
      by_cases same : place = entry.1
      · simp [same]
      · rw [lookup_cons_other rest same, induction]
        simp [same]

/-- With distinct keys the entry that is listed is the one that is found. -/
theorem lookup_of_mem {entries : List (Nat × Nat)} (distinct : (entries.map Prod.fst).Nodup)
    {entry : Nat × Nat} (member : entry ∈ entries) : entries.lookup entry.1 = some entry.2 := by
  induction entries with
  | nil => cases member
  | cons first rest induction =>
      obtain ⟨fresh, later⟩ := List.nodup_cons.mp distinct
      obtain rfl | behind := List.mem_cons.mp member
      · rw [List.lookup_cons, beq_self_eq_true]
      · have different : entry.1 ≠ first.1 := by
          intro same
          exact fresh (same ▸ List.mem_map_of_mem behind)
        rw [lookup_cons_other rest different, induction later behind]

theorem distinct_filter {entries : List (Nat × Nat)} (distinct : (entries.map Prod.fst).Nodup)
    (place : Nat) : ((entries.filter fun entry => entry.1 != place).map Prod.fst).Nodup :=
  distinct.sublist (List.filter_sublist.map Prod.fst)

namespace Tallies

theorem new : Tallies {} [] := ⟨List.nodup_nil, fun _ => rfl, rfl, rfl, rfl, rfl⟩

theorem keys (tallies : ledger.Tallies calls) :
    (ledger.outstanding.map Prod.fst).toFinset = lentOut calls := by
  ext place
  rw [List.mem_toFinset, ← isSome_lookup, mem_lentOut, ← tallies.size?, Ledger.size?]

theorem accounts (tallies : ledger.Tallies calls) : ledger.Accounts calls := by
  have listed : ledger.outstanding.length = (lentOut calls).card := by
    rw [← tallies.keys, List.toFinset_card_of_nodup tallies.distinct, List.length_map]
  refine ⟨?_, tallies.allocations, tallies.frees, tallies.bogusFrees, tallies.size?, ?_, listed, ?_⟩
  · rw [tallies.allocations, tallies.frees, listed, tallies.counted]
  · intro address
    rw [← isSome_lent?, ← tallies.size?]
    rfl
  · rw [← tallies.keys, List.sum_toFinset _ tallies.distinct, List.map_map, outstandingBytes]
    congr 1
    refine List.map_congr_left fun entry member => ?_
    have found := lookup_of_mem tallies.distinct member
    simp only [Function.comp_apply, ← tallies.size?, Ledger.size?, found, Option.getD_some]

theorem granted (tallies : ledger.Tallies calls) (fresh : lent? calls address = none) :
    (ledger.recordAllocation address size).Tallies (.granted address size :: calls) := by
  have absent : address ∉ lentOut calls := by simp [mem_lentOut, fresh]
  constructor
  · refine List.nodup_cons.mpr ⟨?_, distinct_filter tallies.distinct address⟩
    rw [← isSome_lookup, lookup_filter_same]
    simp
  · intro place
    by_cases same : place = address
    · subst same
      rw [size?_recordAllocation_same, lent?, if_pos rfl]
    · rw [size?_recordAllocation_other same, lent?, if_neg same, tallies.size?]
  · exact congrArg Nat.succ tallies.allocations
  · exact tallies.frees
  · exact tallies.bogusFrees
  · rw [grants, honoured, lentOut, Finset.card_insert_of_notMem absent, tallies.counted, add_assoc]

theorem refused (tallies : ledger.Tallies calls) : ledger.Tallies (.refused size :: calls) :=
  ⟨tallies.distinct, tallies.size?, tallies.allocations, tallies.frees, tallies.bogusFrees,
    tallies.counted⟩

theorem freed {booked : Nat} (tallies : ledger.Tallies calls)
    (lent : lent? calls address = some booked) :
    (ledger.recordFree address).Tallies (.freed address size :: calls) := by
  have known : (lent? calls address).isSome = true := by rw [lent]; rfl
  have removed := Finset.card_erase_add_one (mem_lentOut.mpr known)
  constructor
  · exact distinct_filter tallies.distinct address
  · intro place
    by_cases same : place = address
    · subst same
      rw [size?_recordFree_same, lent?, if_pos rfl]
    · rw [size?_recordFree_other same, lent?, if_neg same, tallies.size?]
  · exact tallies.allocations
  · rw [honoured, if_pos known]
    exact congrArg Nat.succ tallies.frees
  · rw [bogus, if_pos known]
    exact tallies.bogusFrees
  · have counted := tallies.counted
    rw [grants, honoured, if_pos known, lentOut]
    omega

theorem freedInVain (tallies : ledger.Tallies calls) (unknown : lent? calls address = none) :
    ledger.recordBogusFree.Tallies (.freed address size :: calls) := by
  have nobody : ¬(lent? calls address).isSome = true := by simp [unknown]
  have absent : address ∉ lentOut calls := fun member => nobody (mem_lentOut.mp member)
  constructor
  · exact tallies.distinct
  · intro place
    rw [lent?]
    split_ifs with same
    · rw [same, ← unknown]
      exact tallies.size? address
    · exact tallies.size? place
  · exact tallies.allocations
  · rw [honoured, if_neg nobody]
    exact tallies.frees
  · rw [bogus, if_neg nobody]
    exact congrArg Nat.succ tallies.bogusFrees
  · rw [grants, honoured, if_neg nobody, lentOut, Finset.erase_eq_of_notMem absent]
    exact tallies.counted

end Tallies

end Ledger

end DeviceColumns
