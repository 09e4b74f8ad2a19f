import DeviceColumns.Proofs.Custody.Runs
import Mathlib.Algebra.BigOperators.Group.Finset.Basic

/-!
Open mappings over whole runs. The mappings that exist are those opened by themselves and those kept
by the owners of shared tables, and at any moment each base is counted once for each of them. So
whatever is dropped, in whatever order, and whether its memory is still there or not, its mappings
are found open and are closed.
-/

namespace DeviceColumns

set_option autoImplicit false

namespace SharedColumn

mutual

/-- How many mappings the owner of a column keeps open, those of its children included. -/
def openHandles : SharedColumn → Nat
  | ⟨_, data, validity, children⟩ =>
      data.isSome.toNat + validity.isSome.toNat + openHandlesOfAll children

def openHandlesOfAll : List SharedColumn → Nat
  | [] => 0
  | column :: rest => column.openHandles + openHandlesOfAll rest

end

theorem isSome_toNat (part : Option Mapping) : part.isSome.toNat = part.toList.length := by
  cases part <;> rfl

mutual

theorem length_mappings (column : SharedColumn) :
    column.mappings.length = column.openHandles := by
  obtain ⟨name, data, validity, children⟩ := column
  rw [mappings, openHandles, List.length_append, List.length_append, length_mappingsOfAll children,
    isSome_toNat, isSome_toNat]

theorem length_mappingsOfAll (columns : List SharedColumn) :
    (mappingsOfAll columns).length = openHandlesOfAll columns := by
  cases columns with
  | nil => rfl
  | cons column rest =>
      rw [mappingsOfAll, openHandlesOfAll, List.length_append, length_mappings column,
        length_mappingsOfAll rest]

end

theorem openHandlesOfAll_append (first second : List SharedColumn) :
    openHandlesOfAll (first ++ second) = openHandlesOfAll first + openHandlesOfAll second := by
  induction first with
  | nil => rw [List.nil_append, openHandlesOfAll, Nat.zero_add]
  | cons column rest induction =>
      rw [List.cons_append, openHandlesOfAll, openHandlesOfAll, induction, Nat.add_assoc]

end SharedColumn

namespace MappingTable

theorem Counts.empty {table : MappingTable} (counts : table.Counts 0) : table.entries = [] := by
  cases entries : table.entries with
  | nil => rfl
  | cons entry rest =>
      obtain ⟨base, count⟩ := entry
      have found := counts.lookup base
      simp [entries, List.lookup_cons_self] at found

end MappingTable

namespace Object

def mapping? : Object → Option Mapping
  | .mapping opened => some opened
  | _ => none

def owners : Object → List SharedColumn
  | .shared opened => opened.owners
  | _ => []

theorem length_mappings (object : Object) : object.mappings.length =
    SharedColumn.openHandlesOfAll object.owners + object.mapping?.toList.length := by
  cases object with
  | shared opened => exact SharedColumn.length_mappingsOfAll opened.owners
  | _ => rfl

end Object

namespace Session

variable {session : Session}

/-- All mappings that exist, object by object. -/
def openMappings (session : Session) : List Mapping :=
  session.objects.flatMap fun entry => entry.2.mappings

def standaloneMappings (session : Session) : List Mapping :=
  session.objects.flatMap fun entry => entry.2.mapping?.toList

def owners (session : Session) : List SharedColumn :=
  session.objects.flatMap fun entry => entry.2.owners

theorem length_openMappings (session : Session) : session.openMappings.length =
    SharedColumn.openHandlesOfAll session.owners + session.standaloneMappings.length := by
  obtain ⟨machine, objects⟩ := session
  simp only [openMappings, owners, standaloneMappings]
  induction objects with
  | nil => rfl
  | cons entry rest induction =>
      simp only [List.flatMap_cons, List.length_append, SharedColumn.openHandlesOfAll_append,
        induction, entry.2.length_mappings]
      omega

theorem holdings_mappings (session : Session) :
    session.holdings.2 = (session.openMappings : Multiset Mapping) := by
  obtain ⟨machine, objects⟩ := session
  induction objects with
  | nil => rfl
  | cons entry rest induction =>
      rw [holdings, List.map_cons, List.sum_cons, Prod.snd_add, openMappings, List.flatMap_cons,
        ← Multiset.coe_add]
      exact congrArg _ induction

/-- The counts of the machine are those of the mappings that exist, and each of these can be closed.
Every finite set of bases that leaves out none that is mapped has the same sum of counts. -/
structure CountsMappings (session : Session) : Prop where
  counted : ∀ base, session.machine.mappings.count base =
    session.openMappings.countP (fun mapping => mapping.base = base)
  total : ∀ bases : Finset Nat,
    (∀ base, session.machine.mappings.count base ≠ 0 → base ∈ bases) →
    ∑ base ∈ bases, session.machine.mappings.count base =
      SharedColumn.openHandlesOfAll session.owners + session.standaloneMappings.length
  positive : ∀ entry ∈ session.machine.mappings.entries, entry.2 ≠ 0
  closable : ∀ mapping ∈ session.openMappings, ∃ after,
    session.machine.mappings.close? mapping.base = some after ∧
      ∀ base, session.machine.mappings.count base =
        after.count base + if base = mapping.base then 1 else 0

theorem countsMappings_of_counts
    (counts : session.machine.mappings.Counts
      (session.openMappings.map Mapping.base : List Nat)) : session.CountsMappings where
  counted := by
    intro base
    rw [counts.count_eq, Multiset.coe_count, List.count, List.countP_map]
    exact List.countP_congr fun mapping _ => by simp
  total := by
    intro bases inside
    have all : ∀ base ∈ (session.openMappings.map Mapping.base : Multiset Nat), base ∈ bases := by
      intro base member
      apply inside
      rw [counts.count_eq]
      exact Multiset.count_ne_zero.mpr member
    simp only [counts.count_eq]
    rw [Multiset.sum_count_eq_card all, Multiset.coe_card, List.length_map, length_openMappings]
  positive := counts.positive
  closable := by
    intro mapping member
    have among : mapping.base ∈ (session.openMappings.map Mapping.base : Multiset Nat) :=
      List.mem_map_of_mem member
    obtain ⟨others, split⟩ := Multiset.exists_cons_of_mem among
    have before := counts
    rw [split] at before
    obtain ⟨after, closed, counted⟩ := before.close?
    refine ⟨after, closed, fun base => ?_⟩
    rw [before.count_eq, counted.count_eq, Multiset.count_cons]

theorem Reached.step_quiet (reached : Reached session) (request : Request) :
    (session.perform request).2.machine.Quiet := by
  obtain ⟨scope, count, _, sound⟩ := (reached.step request).sound
  exact sound.custody.quiet

/-- In every state that requests can lead to, the open mappings are counted exactly. No request
closes a mapping in vain, and neither does dropping all objects, after which nothing is mapped. -/
theorem Reached.mappings_counted (reached : Reached session) :
    session.CountsMappings ∧
      (∀ request, (session.perform request).2.machine.Quiet) ∧
      session.dropAll.machine.Quiet ∧ session.dropAll.machine.mappings.entries = [] := by
  obtain ⟨scope, count, _, sound⟩ := reached.sound
  have counts := sound.custody.mappings
  rw [zero_add, holdingsWithout, holdings_mappings, Multiset.map_coe] at counts
  have dropped := dropAll_custody sound
  exact ⟨countsMappings_of_counts counts, reached.step_quiet, dropped.quiet, dropped.mappings.empty⟩

/-- A block is mapped twice, freed while it is mapped, and one of its mappings is dropped. -/
def remappedRequests : List Request := [
  .allocate "block" 16 "plain",
  .openHandle "first" (Handle.issue 0x100000000000 16).bytes,
  .openHandle "second" (Handle.issue 0x100000000000 16).bytes,
  .deallocate (.relative "block" 0) 16 "plain",
  .drop "first"]

theorem Reached.mappings_counted_after_free :
    Reached (runFrom remappedRequests .initial).2 ∧
      (runFrom remappedRequests .initial).2.machine.heap.isLive 0x100000000000 = false ∧
      (runFrom remappedRequests .initial).2.machine.mappings.count 0x100000000000 = 1 ∧
      (runFrom remappedRequests .initial).2.CountsMappings := by
  have allocated := Reached.initial.step (.allocate "block" 16 "plain")
  have first := allocated.step (.openHandle "first" (Handle.issue 0x100000000000 16).bytes)
  have second := first.step (.openHandle "second" (Handle.issue 0x100000000000 16).bytes)
  have freed := second.step (.deallocate (.relative "block" 0) 16 "plain")
  have reached : Reached (runFrom remappedRequests .initial).2 := freed.step (.drop "first")
  exact ⟨reached, by decide +kernel, by decide +kernel, reached.mappings_counted.1⟩

end Session

end DeviceColumns
