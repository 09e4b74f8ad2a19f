import DeviceColumns.Memory.Machine
import Mathlib.Data.Multiset.Filter
import Mathlib.Tactic.SplitIfs

/-!
What bookkeeping does to the books. A ledger balances when it lists exactly the outstanding spans,
has seen no bogus free, and has counted every allocation as freed or outstanding. The mapping table
is exact when it gives each base its number of open mappings and has no entry for a base with none.
-/

namespace DeviceColumns

set_option autoImplicit false

theorem lookup_cons_other {entry : Nat × Nat} {other : Nat} (rest : List (Nat × Nat))
    (different : other ≠ entry.1) : (entry :: rest).lookup other = rest.lookup other := by
  rw [List.lookup_cons, beq_false_of_ne different]

theorem lookup_filter_same (entries : List (Nat × Nat)) (base : Nat) :
    (entries.filter fun entry => entry.1 != base).lookup base = none := by
  induction entries with
  | nil => rfl
  | cons entry rest induction =>
      by_cases same : entry.1 = base
      · rw [List.filter_cons_of_neg (by simpa using same), induction]
      · rw [List.filter_cons_of_pos (by simpa using same),
          lookup_cons_other _ (Ne.symm same), induction]

theorem lookup_filter_other (entries : List (Nat × Nat)) {base other : Nat}
    (different : other ≠ base) :
    (entries.filter fun entry => entry.1 != base).lookup other = entries.lookup other := by
  induction entries with
  | nil => rfl
  | cons entry rest induction =>
      by_cases same : entry.1 = base
      · rw [List.filter_cons_of_neg (by simpa using same), induction,
          lookup_cons_other _ (same ▸ different)]
      · rw [List.filter_cons_of_pos (by simpa using same), List.lookup_cons, List.lookup_cons,
          induction]

namespace Ledger

variable {ledger : Ledger} {address other size : Nat}

theorem size?_recordAllocation_same :
    (ledger.recordAllocation address size).size? address = some size := by
  simp [recordAllocation, size?]

theorem size?_recordAllocation_other (different : other ≠ address) :
    (ledger.recordAllocation address size).size? other = ledger.size? other := by
  rw [size?, recordAllocation, lookup_cons_other _ different]
  exact lookup_filter_other _ different

theorem size?_recordFree_other (different : other ≠ address) :
    (ledger.recordFree address).size? other = ledger.size? other :=
  lookup_filter_other _ different

/-- The ledger lists `spans` as outstanding and nothing went wrong with it so far. -/
structure Balances (ledger : Ledger) (spans : Multiset (Nat × Nat)) : Prop where
  outstanding : (ledger.outstanding : Multiset (Nat × Nat)) = spans
  bogusFrees : ledger.bogusFrees = 0
  counted : ledger.allocations = ledger.frees + ledger.outstanding.length

theorem balances_new : Balances {} 0 := ⟨rfl, rfl, rfl⟩

namespace Balances

variable {spans : Multiset (Nat × Nat)}

theorem filter_fresh (fresh : ∀ span ∈ spans, span.1 ≠ address) {entries : List (Nat × Nat)}
    (lists : (entries : Multiset (Nat × Nat)) = spans) :
    (entries.filter fun entry => entry.1 != address) = entries := by
  subst lists
  apply List.filter_eq_self.mpr
  intro entry member
  simpa using fresh entry member

theorem recordAllocation (balances : ledger.Balances spans)
    (fresh : ∀ span ∈ spans, span.1 ≠ address) :
    (ledger.recordAllocation address size).Balances ((address, size) ::ₘ spans) := by
  have kept := filter_fresh fresh balances.outstanding
  have counted := balances.counted
  constructor
  · simp only [Ledger.recordAllocation, kept, ← Multiset.cons_coe, balances.outstanding]
  · exact balances.bogusFrees
  · simp only [Ledger.recordAllocation, kept, List.length_cons]
    omega

theorem recordFree (balances : ledger.Balances ((address, size) ::ₘ spans))
    (fresh : ∀ span ∈ spans, span.1 ≠ address) :
    (ledger.recordFree address).Balances spans := by
  have remaining : ((ledger.outstanding.filter fun entry => entry.1 != address : List _) :
      Multiset (Nat × Nat)) = spans := by
    have filtered := congrArg (Multiset.filter fun entry => entry.1 ≠ address) balances.outstanding
    rw [Multiset.filter_cons_of_neg _ (by simp), Multiset.filter_eq_self.mpr fresh] at filtered
    rw [← filtered, Multiset.filter_coe]
    simp [bne, beq_eq_decide]
  have before : ledger.outstanding.length = spans.card + 1 := by
    rw [← Multiset.coe_card, balances.outstanding, Multiset.card_cons]
  have after : (ledger.outstanding.filter fun entry => entry.1 != address).length = spans.card := by
    rw [← Multiset.coe_card, remaining]
  have counted := balances.counted
  constructor
  · exact remaining
  · exact balances.bogusFrees
  · simp only [Ledger.recordFree, after]
    omega

end Balances

end Ledger

namespace MappingTable

variable {table after : MappingTable} {base : Nat}

theorem count_insert (table : MappingTable) (base other : Nat) :
    (table.insert base).count other = table.count other + if other = base then 1 else 0 := by
  split_ifs with same
  · subst same
    simp [count, insert]
  · have skipped : (table.insert base).entries.lookup other =
        (table.remove base).entries.lookup other := lookup_cons_other _ same
    rw [count, skipped, remove, lookup_filter_other _ same]
    rfl

/-- A base that is counted can be closed, and only its own count goes down. -/
theorem close?_counted (counted : table.count base ≠ 0) :
    ∃ after, table.close? base = some after ∧
      ∀ other, after.count other + (if other = base then 1 else 0) = table.count other := by
  cases found : table.entries.lookup base with
  | none => simp [count, found] at counted
  | some number =>
      have number_eq : table.count base = number := by simp [count, found]
      have others (entries : List (Nat × Nat)) (other : Nat) (different : other ≠ base)
          (kept : entries.lookup other = (table.remove base).entries.lookup other) :
          (MappingTable.mk entries).count other = table.count other := by
        rw [count, kept, remove, lookup_filter_other _ different]
        rfl
      simp only [close?, found]
      by_cases last : number = 1
      · rw [if_pos last]
        refine ⟨_, rfl, fun other => ?_⟩
        split_ifs with same
        · have gone : (table.remove base).entries.lookup base = none := lookup_filter_same _ _
          rw [same, count, gone, number_eq, last]
          rfl
        · exact others _ other same rfl
      · rw [if_neg last]
        refine ⟨_, rfl, fun other => ?_⟩
        split_ifs with same
        · subst same
          simp [count, found] at counted ⊢
          omega
        · exact others _ other same (lookup_cons_other _ same)

theorem ne_zero_of_lookup (positive : ∀ entry ∈ table.entries, entry.2 ≠ 0) {number : Nat}
    (found : table.entries.lookup base = some number) : number ≠ 0 := by
  obtain ⟨before, behind, split, -⟩ := List.lookup_eq_some_iff.mp found
  exact positive (base, number) (by simp [split])

theorem positive_remove (positive : ∀ entry ∈ table.entries, entry.2 ≠ 0) (base : Nat) :
    ∀ entry ∈ (table.remove base).entries, entry.2 ≠ 0 :=
  fun entry member => positive entry (List.mem_of_mem_filter member)

theorem positive_close? (positive : ∀ entry ∈ table.entries, entry.2 ≠ 0)
    (closed : table.close? base = some after) : ∀ entry ∈ after.entries, entry.2 ≠ 0 := by
  unfold close? at closed
  cases found : table.entries.lookup base with
  | none => simp [found] at closed
  | some number =>
      simp only [found] at closed
      split_ifs at closed with last
      · cases closed
        exact positive_remove positive base
      · cases closed
        have some_open := ne_zero_of_lookup positive found
        have more : number - 1 ≠ 0 := by omega
        exact List.forall_mem_cons.mpr ⟨more, positive_remove positive base⟩

/-- The table counts `bases` exactly. -/
structure Counts (table : MappingTable) (bases : Multiset Nat) : Prop where
  lookup : ∀ base, table.entries.lookup base =
    if bases.count base = 0 then none else some (bases.count base)
  positive : ∀ entry ∈ table.entries, entry.2 ≠ 0

theorem counts_empty : Counts empty 0 := ⟨fun base => by simp [empty], by simp [empty]⟩

namespace Counts

variable {bases : Multiset Nat}

theorem count_eq (counts : table.Counts bases) (base : Nat) :
    table.count base = bases.count base := by
  rw [count, counts.lookup]
  split_ifs with none
  · exact none.symm
  · rfl

/-- As no entry counts zero, the counts alone tell which bases have an entry. -/
theorem of_count (positive : ∀ entry ∈ table.entries, entry.2 ≠ 0)
    (exact : ∀ base, table.count base = bases.count base) : table.Counts bases := by
  refine ⟨fun base => ?_, positive⟩
  have number_eq := exact base
  cases found : table.entries.lookup base with
  | none =>
      simp only [count, found, Option.getD_none] at number_eq
      rw [if_pos number_eq.symm]
  | some number =>
      simp only [count, found, Option.getD_some] at number_eq
      rw [← number_eq, if_neg (ne_zero_of_lookup positive found)]

theorem insert (counts : table.Counts bases) (base : Nat) :
    (table.insert base).Counts (base ::ₘ bases) := by
  refine of_count ?_ fun other => ?_
  · exact List.forall_mem_cons.mpr ⟨Nat.succ_ne_zero _, positive_remove counts.positive base⟩
  · rw [count_insert, counts.count_eq, Multiset.count_cons]

theorem close? {base : Nat} (counts : table.Counts (base ::ₘ bases)) :
    ∃ after, table.close? base = some after ∧ after.Counts bases := by
  have counted : table.count base ≠ 0 := by
    rw [counts.count_eq, Multiset.count_cons_self]
    exact Nat.succ_ne_zero _
  obtain ⟨after, closed, fewer⟩ := close?_counted counted
  refine ⟨after, closed, of_count (positive_close? counts.positive closed) fun other => ?_⟩
  have one := fewer other
  rw [counts.count_eq, Multiset.count_cons] at one
  exact Nat.add_right_cancel one

end Counts

end MappingTable

end DeviceColumns
