import DeviceColumns.Kernel.Launch
import DeviceColumns.Proofs.Kernel.Packing
import Mathlib.Data.List.Basic
import Mathlib.Tactic.SplitIfs

/-!
What a launch gets done. Its threads are numbered through, block by block, and a thread whose number
is that of an element writes this element's result; the others return. Every thread writes a place
of its own, so it does not matter in which order they run. The grid is counted in a word of 32 bits
and cannot grow further than that: the elements behind the last thread of the largest grid are left
as they were.
-/

namespace DeviceColumns.Kernel

set_option autoImplicit false

/-- The elements that the largest grid has threads for. -/
def capacity : Nat := maxGridSize * blockSize

namespace Launch

variable {Value : Type} {launch : Launch} {compute : Nat → Value} {output : List Value}
  {order : List Nat} {count index : Nat}

/-- The number of a thread is that of the element which it works on. -/
def element (launch : Launch) (block thread : Nat) : Nat := block * launch.block + thread

def threads (launch : Launch) : List Nat :=
  (List.range launch.grid).flatMap fun block =>
    (List.range launch.block).map (launch.element block)

/-- One thread of a kernel with a bounds check. -/
def step (compute : Nat → Value) (output : List Value) (index : Nat) : List Value :=
  if index < output.length then output.set index (compute index) else output

/-- What threads leave in the output when they run in this order. -/
def run (compute : Nat → Value) (order : List Nat) (output : List Value) : List Value :=
  order.foldl (step compute) output

theorem threads_eq (launch : Launch) :
    launch.threads = List.range (launch.grid * launch.block) :=
  range_tiled launch.grid launch.block

theorem mem_of_perm (scheduled : order.Perm launch.threads) :
    index ∈ order ↔ index < launch.grid * launch.block := by
  rw [scheduled.mem_iff, threads_eq, List.mem_range]

theorem length_run (compute : Nat → Value) (order : List Nat) (output : List Value) :
    (run compute order output).length = output.length := by
  induction order generalizing output with
  | nil => rfl
  | cons first rest induction =>
      have kept : (step compute output first).length = output.length := by
        unfold step
        split_ifs <;> simp
      exact (induction _).trans kept

theorem getElem?_step (inside : index < output.length) (first : Nat) :
    (step compute output first)[index]? =
      if index = first then some (compute index) else output[index]? := by
  unfold step
  split_ifs with bounded same same
  · subst same
    exact List.getElem?_set_self inside
  · exact List.getElem?_set_ne (Ne.symm same)
  · subst same
    exact absurd inside bounded
  · rfl

/-- However often and in whatever order threads run, each element is written by its own thread. -/
theorem getElem?_run (inside : index < output.length) (order : List Nat) :
    (run compute order output)[index]? =
      if index ∈ order then some (compute index) else output[index]? := by
  induction order generalizing output with
  | nil => rfl
  | cons first rest induction =>
      have kept := length_run compute [first] output
      have behind : index < (step compute output first).length := kept.symm ▸ inside
      have later := induction behind
      rw [getElem?_step inside first] at later
      refine later.trans ?_
      by_cases same : index = first <;> simp [same]

/-- What a launch for `count` elements amounts to. It has a grid that can be launched, and every
block in it has work. It has a thread for every element up to its capacity, and however these are
scheduled, exactly the results of these elements are written. -/
structure Serves (launch : Launch) (count : Nat) : Prop where
  started : 0 < launch.grid
  word : launch.grid < 2 ^ 32
  tight : 0 < count → (launch.grid - 1) * launch.block < count
  busy : 0 < count → ∀ block < launch.grid, launch.element block 0 < count
  room : count ≤ launch.grid * launch.block ↔ count ≤ capacity
  results : ∀ {Value : Type} (compute : Nat → Value) (order : List Nat) (output : List Value),
    order.Perm launch.threads → output.length = count →
    (run compute order output).length = count ∧ ∀ index < count,
      (run compute order output)[index]? =
        if index < capacity then some (compute index) else output[index]?

theorem covering_serves (count : Nat) : (covering count).Serves count := by
  have width : (covering count).block = 256 := rfl
  have grid : (covering count).grid = max 1 (min ((count + 255) / 256) (2 ^ 32 - 1)) := rfl
  have most : capacity = 256 * (2 ^ 32 - 1) := rfl
  have tight (positive : 0 < count) :
      ((covering count).grid - 1) * (covering count).block < count := by
    rw [width, grid]
    omega
  have reached : ∀ index < count,
      index < (covering count).grid * (covering count).block ↔ index < capacity := by
    rw [width, grid, most]
    omega
  exact {
    started := by omega
    word := by omega
    tight := tight
    busy := by
      intro positive block inside
      have before : block ≤ (covering count).grid - 1 := by omega
      rw [element, Nat.add_zero]
      exact Nat.lt_of_le_of_lt (Nat.mul_le_mul_right _ before) (tight positive)
    room := by
      rw [width, grid, most]
      omega
    results := by
      intro Value compute order output scheduled sized
      refine ⟨(length_run compute order output).trans sized, fun index inside => ?_⟩
      rw [getElem?_run (sized ▸ inside)]
      simp only [mem_of_perm scheduled, reached index inside] }

/-- One element more than the largest grid has threads for, far below what 64 bits can count. -/
theorem covering_falls_short :
    1099511627521 < 2 ^ 64 ∧
      ¬1099511627521 ≤ (covering 1099511627521).grid * (covering 1099511627521).block := by
  decide

end Launch

end DeviceColumns.Kernel
