import DeviceColumns.Proofs.Custody.Liveness
import DeviceColumns.Proofs.Custody.Runs

/-!
What consumers may do with arrays. A consumer holds an exported array and the children that it has
moved out of it, and reaches what is still in place by child numbers. Each of its actions divides the
buffers of its nodes into those that the action gives back and those that the nodes hold afterwards;
so over any sequence of actions every buffer is given back once or is still held, and its block is
live for as long as it is held.
-/

namespace DeviceColumns

set_option autoImplicit false

theorem Holdings.perm_of_ofBuffers {buffers first second : List Buffer}
    (split : Holdings.ofBuffers buffers = .ofBuffers first + .ofBuffers second) :
    buffers.Perm (first ++ second) :=
  Multiset.coe_eq_coe.mp (congrArg Prod.fst split)

namespace ArrayNode

/-- The node that is still in place at a path of child numbers. -/
def at? : List Nat → ArrayNode → Option ArrayNode
  | [], node => some node
  | index :: path, node => (node.children[index]?).bind (at? path)

def modifyAt (change : ArrayNode → ArrayNode) : List Nat → ArrayNode → ArrayNode
  | [], node => change node
  | index :: path, .held length nullCount slots children event =>
      .held length nullCount slots (children.modify index (modifyAt change path)) event
  | _ :: _, node => node

variable {node target child rest : ArrayNode} {nodes : List ArrayNode} {index : Nat}
  {path : List Nat} {change : ArrayNode → ArrayNode} {given : List Buffer}

theorem at?_held (length nullCount : Int) (slots : List (Option Buffer)) (parts : List ArrayNode)
    (event : Option Nat) :
    (held length nullCount slots parts event).at? (index :: path) = (parts[index]?).bind (at? path) :=
  rfl

theorem buffersOfAll_append (first second : List ArrayNode) :
    buffersOfAll (first ++ second) = buffersOfAll first ++ buffersOfAll second := by
  induction first with
  | nil => rfl
  | cons node others induction =>
      rw [List.cons_append, buffersOfAll, buffersOfAll, induction, List.append_assoc]

theorem buffersOfAll_modify (found : nodes[index]? = some node)
    (split : Holdings.ofBuffers node.buffers = .ofBuffers given + .ofBuffers (change node).buffers) :
    Holdings.ofBuffers (buffersOfAll nodes) =
      .ofBuffers given + .ofBuffers (buffersOfAll (nodes.modify index change)) := by
  induction nodes generalizing index with
  | nil => simp at found
  | cons first others induction =>
      cases index with
      | zero =>
          rw [List.getElem?_cons_zero, Option.some.injEq] at found
          subst found
          rw [List.modify_zero_cons, buffersOfAll, buffersOfAll, Holdings.ofBuffers_append,
            Holdings.ofBuffers_append, split, add_assoc]
      | succ index =>
          rw [List.getElem?_cons_succ] at found
          rw [List.modify_succ_cons, buffersOfAll, buffersOfAll, Holdings.ofBuffers_append,
            Holdings.ofBuffers_append, induction found]
          abel

/-- What a node in place gives up, all nodes above it give up with it, and nothing else. -/
theorem buffers_modifyAt (found : node.at? path = some target)
    (split : Holdings.ofBuffers target.buffers =
      .ofBuffers given + .ofBuffers (change target).buffers) :
    Holdings.ofBuffers node.buffers =
      .ofBuffers given + .ofBuffers (node.modifyAt change path).buffers := by
  induction path generalizing node with
  | nil =>
      cases found
      exact split
  | cons index path induction =>
      cases node with
      | released => cases found
      | held length nullCount slots parts event =>
          rw [at?_held] at found
          obtain ⟨child, there, below⟩ := Option.bind_eq_some_iff.mp found
          simp only [modifyAt, buffers, Holdings.ofBuffers_append]
          rw [buffersOfAll_modify there (induction below), add_assoc]

theorem modifyAt_self (change : ArrayNode → ArrayNode) (found : node.at? path = some target)
    (same : change target = target) : node.modifyAt change path = node := by
  induction path generalizing node with
  | nil =>
      cases found
      exact same
  | cons index path induction =>
      cases node with
      | released => rfl
      | held length nullCount slots parts event =>
          rw [at?_held] at found
          obtain ⟨child, there, below⟩ := Option.bind_eq_some_iff.mp found
          have kept : parts.modify index (modifyAt change path) = parts := by
            apply List.ext_getElem?
            intro other
            rw [List.getElem?_modify]
            by_cases here : index = other
            · subst here
              simp [there, induction below]
            · simp [here]
          rw [modifyAt, kept]

theorem spent_of_released (released : node.isReleased = true) : node.spent = node := by
  cases node with
  | released => rfl
  | held => cases released

theorem buffers_of_released (released : node.isReleased = true) : node.buffers = [] := by
  rw [← spent_of_released released, spent_buffers]

theorem mem_buffers_of_slot {buffer : Buffer} (filled : some buffer ∈ node.slots) :
    buffer ∈ node.buffers := by
  cases node with
  | released => cases filled
  | held length nullCount slots children event =>
      exact List.mem_append_right _ (List.mem_filterMap.mpr ⟨some buffer, filled, rfl⟩)

end ArrayNode

/-- What a consumer can do. It names one of its own nodes by number and what is in place below it by
a path. -/
inductive Consumption where
  | release (node : Nat) (path : List Nat)
  /-- The callback is called without a node. -/
  | releaseNothing
  | moveChild (node : Nat) (path : List Nat) (child : Nat)
  | drop (node : Nat)

/-- The node of its own that the consumer names. -/
def Consumption.node? : Consumption → Option Nat
  | .release node _ | .moveChild node _ _ | .drop node => some node
  | .releaseNothing => none

/-- The nodes that a consumer holds: an array, and the children that were moved out of it. -/
structure Consumer where
  nodes : List ArrayNode
  machine : Machine

namespace Consumer

def buffers (consumer : Consumer) : List Buffer := ArrayNode.buffersOfAll consumer.nodes

def target? (consumer : Consumer) (index : Nat) (path : List Nat) : Option ArrayNode :=
  (consumer.nodes[index]?).bind (ArrayNode.at? path)

/-- What has no target does nothing. -/
def step (consumer : Consumer) : Consumption → Consumer
  | .release index path =>
      match consumer.target? index path with
      | none => consumer
      | some target =>
          let (spent, machine) := target.release consumer.machine
          ⟨consumer.nodes.modify index (ArrayNode.modifyAt (fun _ => spent) path), machine⟩
  | .releaseNothing => consumer
  | .moveChild index path child =>
      match (consumer.target? index path).bind (·.moveChild? child) with
      | none => consumer
      | some (moved, rest) =>
          ⟨consumer.nodes.modify index (ArrayNode.modifyAt (fun _ => rest) path) ++ [moved],
            consumer.machine⟩
  | .drop index =>
      match consumer.nodes[index]? with
      | none => consumer
      | some node => ⟨consumer.nodes.eraseIdx index, (node.release consumer.machine).2⟩

def run (consumer : Consumer) (actions : List Consumption) : Consumer :=
  actions.foldl step consumer

/-- The buffers that an action gives back: all that the node it releases or drops still holds, and
what is in place below it. -/
def givenBack (consumer : Consumer) : Consumption → List Buffer
  | .release index path => ((consumer.target? index path).map ArrayNode.buffers).getD []
  | .drop index => ((consumer.nodes[index]?).map ArrayNode.buffers).getD []
  | _ => []

def allGivenBack : Consumer → List Consumption → List Buffer
  | _, [] => []
  | consumer, action :: later =>
      consumer.givenBack action ++ (consumer.step action).allGivenBack later

variable {consumer : Consumer} {index : Nat} {path : List Nat} {node target : ArrayNode}

theorem buffers_modify {given : List Buffer} (change : ArrayNode → ArrayNode)
    (found : consumer.target? index path = some target)
    (split : Holdings.ofBuffers target.buffers =
      .ofBuffers given + .ofBuffers (change target).buffers) :
    Holdings.ofBuffers consumer.buffers = .ofBuffers given +
      .ofBuffers (ArrayNode.buffersOfAll
        (consumer.nodes.modify index (ArrayNode.modifyAt change path))) := by
  obtain ⟨node, there, below⟩ := Option.bind_eq_some_iff.mp found
  exact ArrayNode.buffersOfAll_modify there (ArrayNode.buffers_modifyAt below split)

theorem buffers_eraseIdx (found : consumer.nodes[index]? = some node) :
    Holdings.ofBuffers consumer.buffers =
      .ofBuffers node.buffers + .ofBuffers (ArrayNode.buffersOfAll (consumer.nodes.eraseIdx index)) := by
  obtain ⟨nodes, machine⟩ := consumer
  simp only [buffers] at found ⊢
  induction nodes generalizing index with
  | nil => simp at found
  | cons first others induction =>
      cases index with
      | zero =>
          rw [List.getElem?_cons_zero, Option.some.injEq] at found
          subst found
          rfl
      | succ index =>
          rw [List.getElem?_cons_succ] at found
          rw [List.eraseIdx_cons_succ, ArrayNode.buffersOfAll, ArrayNode.buffersOfAll,
            Holdings.ofBuffers_append, Holdings.ofBuffers_append, induction found]
          abel

/-- An action frees what it gives back and nothing else, and the nodes hold the rest. -/
theorem step_gives (consumer : Consumer) (action : Consumption) :
    (consumer.step action).machine = Buffer.freeAll (consumer.givenBack action) consumer.machine ∧
      Holdings.ofBuffers consumer.buffers = .ofBuffers (consumer.givenBack action) +
        .ofBuffers (consumer.step action).buffers := by
  cases action with
  | release index path =>
      cases found : consumer.target? index path with
      | none => simp [step, givenBack, found, Buffer.freeAll]
      | some target =>
          simp only [step, givenBack, found, ArrayNode.release, Option.map_some, Option.getD_some,
            true_and]
          apply buffers_modify _ found
          rw [ArrayNode.spent_buffers, Holdings.ofBuffers_nil, add_zero]
  | releaseNothing => simp [step, givenBack, Buffer.freeAll]
  | moveChild index path child =>
      cases moves : (consumer.target? index path).bind (·.moveChild? child) with
      | none => simp [step, givenBack, moves, Buffer.freeAll]
      | some parts =>
          obtain ⟨moved, rest⟩ := parts
          obtain ⟨target, found, taken⟩ := Option.bind_eq_some_iff.mp moves
          have split := buffers_modify (fun _ => rest) found
            (ArrayNode.moveChild?_holdings taken)
          simp only [step, givenBack, moves, Buffer.freeAll, List.foldl_nil, true_and,
            Holdings.ofBuffers_nil, zero_add]
          rw [split, buffers, ArrayNode.buffersOfAll_append, Holdings.ofBuffers_append, add_comm]
          simp [ArrayNode.buffersOfAll]
  | drop index =>
      cases found : consumer.nodes[index]? with
      | none => simp [step, givenBack, found, Buffer.freeAll]
      | some node =>
          simp only [step, givenBack, found, ArrayNode.release, Option.map_some, Option.getD_some,
            true_and]
          exact buffers_eraseIdx found

theorem run_gives (consumer : Consumer) (actions : List Consumption) :
    (consumer.run actions).machine =
        Buffer.freeAll (consumer.allGivenBack actions) consumer.machine ∧
      Holdings.ofBuffers consumer.buffers = .ofBuffers (consumer.allGivenBack actions) +
        .ofBuffers (consumer.run actions).buffers := by
  induction actions generalizing consumer with
  | nil => exact ⟨rfl, (zero_add _).symm⟩
  | cons action later induction =>
      obtain ⟨frees, split⟩ := consumer.step_gives action
      obtain ⟨freesLater, splitLater⟩ := induction (consumer.step action)
      constructor
      · rw [run, List.foldl_cons, ← run, freesLater, frees, allGivenBack, Buffer.freeAll,
          Buffer.freeAll, Buffer.freeAll, List.foldl_append]
      · rw [split, splitLater, allGivenBack, Holdings.ofBuffers_append, add_assoc]
        rfl

theorem run_append (consumer : Consumer) (actions : List Consumption) (action : Consumption) :
    consumer.run (actions ++ [action]) = (consumer.run actions).step action := by
  rw [run, List.foldl_append, List.foldl_cons, List.foldl_nil, ← run]

theorem target_buffers (found : consumer.target? index path = some target) :
    ∀ buffer ∈ target.buffers, buffer ∈ consumer.buffers := by
  intro buffer member
  have split : Holdings.ofBuffers target.buffers =
      .ofBuffers target.buffers + .ofBuffers target.spent.buffers := by
    rw [ArrayNode.spent_buffers, Holdings.ofBuffers_nil, add_zero]
  have all := Holdings.perm_of_ofBuffers (buffers_modify ArrayNode.spent found split)
  exact all.mem_iff.mpr (List.mem_append_left _ member)

theorem node_buffers (member : node ∈ consumer.nodes) :
    ∀ buffer ∈ node.buffers, buffer ∈ consumer.buffers := by
  obtain ⟨index, there⟩ := List.getElem?_of_mem member
  have found : consumer.target? index [] = some node := by
    rw [target?, there]
    rfl
  exact target_buffers found

/-- An action keeps the nodes that it does not name. -/
theorem step_keeps (consumer : Consumer) (action : Consumption)
    (there : consumer.nodes[index]? = some node) (other : action.node? ≠ some index) :
    node ∈ (consumer.step action).nodes := by
  have modified {changed : Nat} {change : ArrayNode → ArrayNode} (different : changed ≠ index) :
      node ∈ consumer.nodes.modify changed change := by
    apply List.mem_of_getElem? (i := index)
    rw [List.getElem?_modify_ne _ _ different]
    exact there
  cases action with
  | release changed path =>
      have different : changed ≠ index := fun same => other (congrArg some same)
      simp only [step]
      split
      · exact List.mem_of_getElem? there
      · exact modified different
  | releaseNothing => exact List.mem_of_getElem? there
  | moveChild changed path child =>
      have different : changed ≠ index := fun same => other (congrArg some same)
      simp only [step]
      split
      · exact List.mem_of_getElem? there
      · exact List.mem_append_left _ (modified different)
  | drop changed =>
      have different : index ≠ changed := fun same => other (congrArg some same.symm)
      simp only [step]
      split
      · exact List.mem_of_getElem? there
      · exact List.mem_eraseIdx_iff_getElem?.mpr ⟨index, different, there⟩

theorem step_released (found : consumer.target? index path = some target)
    (released : target.isReleased = true) : consumer.step (.release index path) = consumer := by
  obtain ⟨node, there, below⟩ := Option.bind_eq_some_iff.mp found
  have kept : consumer.nodes.modify index (ArrayNode.modifyAt (fun _ => target.spent) path) =
      consumer.nodes := by
    apply List.ext_getElem?
    intro other
    rw [List.getElem?_modify]
    by_cases here : index = other
    · subst here
      have same := ArrayNode.modifyAt_self (fun _ => target.spent) below
        (ArrayNode.spent_of_released released)
      simp [there, same]
    · simp [here]
  simp only [step, found, ArrayNode.release, ArrayNode.buffers_of_released released]
  rw [kept]
  rfl

/-- What holds after any actions on an array: which buffers were freed, each of them once; which
blocks are live, among them those of all slots that can be reached; and that neither what is released
already nor what was moved out is touched by a release elsewhere. -/
structure ReleasesOnce (start : Consumer) (actions : List Consumption) : Prop where
  distinct : (Buffer.bases start.buffers).Nodup
  ledger : start.buffers.Perm (start.allGivenBack actions ++ (start.run actions).buffers)
  frees : (start.run actions).machine = Buffer.freeAll (start.allGivenBack actions) start.machine
  live : ∀ base ∈ Buffer.bases start.buffers,
    (start.run actions).machine.heap.isLive base = true ↔
      base ∈ Buffer.bases (start.run actions).buffers
  filled : ∀ index path node, (start.run actions).target? index path = some node →
    ∀ buffer, some buffer ∈ node.slots → ∀ base, buffer.address = some base →
      (start.run actions).machine.heap.isLive base = true
  again : ∀ index path node, (start.run actions).target? index path = some node →
    node.isReleased = true → (start.run actions).step (.release index path) = start.run actions
  apart : ∀ action index node, (start.run actions).nodes[index]? = some node →
    action.node? ≠ some index → node ∈ ((start.run actions).step action).nodes ∧
      ∀ base ∈ Buffer.bases node.buffers,
        ((start.run actions).step action).machine.heap.isLive base = true
  done : (∀ node ∈ (start.run actions).nodes, node.isReleased = true) →
    ∀ base ∈ Buffer.bases start.buffers,
      (start.run actions).machine.heap.isLive base = false

section Custody

variable {scope : Scope} {count : Nat} {held : Holdings} {start : Consumer}

theorem run_custody (custody : Custody scope count (held + .ofBuffers start.buffers) start.machine)
    (actions : List Consumption) : Custody scope count
      (held + .ofBuffers (start.run actions).buffers) (start.run actions).machine := by
  obtain ⟨frees, split⟩ := start.run_gives actions
  rw [frees]
  apply Custody.freeAll
  apply custody.of_eq
  rw [split]
  abel

theorem live_of_mem (custody : Custody scope count (held + .ofBuffers start.buffers) start.machine)
    (careful : scope.careful) {part : List Buffer}
    (inside : ∀ buffer ∈ part, buffer ∈ start.buffers) :
    ∀ base ∈ Buffer.bases part, start.machine.heap.isLive base = true := by
  intro base member
  obtain ⟨buffer, among, place⟩ := Buffer.mem_bases.mp member
  exact (custody.live_of_held careful (Buffer.mem_bases.mpr ⟨buffer, inside buffer among, place⟩)).1

theorem releasesOnce (custody : Custody scope count (held + .ofBuffers start.buffers) start.machine)
    (careful : scope.careful) (actions : List Consumption) : start.ReleasesOnce actions := by
  have after := run_custody custody actions
  have live (base : Nat) (member : base ∈ Buffer.bases start.buffers) :=
    custody.live_iff after careful member
  obtain ⟨frees, split⟩ := start.run_gives actions
  constructor
  · exact custody.bases_nodup careful
  · exact Holdings.perm_of_ofBuffers split
  · exact frees
  · exact live
  · intro index path node found buffer filled base place
    have member : base ∈ Buffer.bases node.buffers :=
      Buffer.mem_bases.mpr ⟨buffer, ArrayNode.mem_buffers_of_slot filled, place⟩
    exact live_of_mem after careful (target_buffers found) base member
  · intro index path node found released
    exact step_released found released
  · intro action index node there other
    have kept := (start.run actions).step_keeps action there other
    have next := run_custody custody (actions ++ [action])
    rw [run_append] at next
    exact ⟨kept, live_of_mem next careful (node_buffers kept)⟩
  · intro released base member
    have empty : (start.run actions).buffers = [] := by
      rw [buffers]
      generalize (start.run actions).nodes = nodes at released
      induction nodes with
      | nil => rfl
      | cons node others induction =>
          obtain ⟨first, later⟩ := List.forall_mem_cons.mp released
          rw [ArrayNode.buffersOfAll, ArrayNode.buffers_of_released first, induction later]
          rfl
    have dead : ¬(start.run actions).machine.heap.isLive base = true := by
      rw [live base member, empty]
      exact List.not_mem_nil
    exact Bool.eq_false_iff.mpr dead

end Custody

end Consumer

namespace Session

variable {session : Session} {raw : List Nat} {touched : List LedgerId} {name : String}
  {object : Object} {root : ArrayNode}

/-- Whatever consumers do with an array of a careful run, it gives back each of its buffers once. -/
theorem CarefulRun.array_releases_once (run : CarefulRun session raw touched)
    (found : session.find? name = some object) (exported : object.array? = some root)
    (actions : List Consumption) :
    Consumer.ReleasesOnce ⟨[root], session.machine⟩ actions := by
  obtain ⟨count, sound⟩ := run.sound
  have holdings := (Object.array?_holdings exported).1
  have custody : Custody ⟨raw, touched, True⟩ count ((session.forget name).holdings +
      .ofBuffers (Consumer.buffers ⟨[root], session.machine⟩)) session.machine := by
    apply sound.custody.of_eq
    rw [zero_add, holdingsWithout, holdings_of_find? sound.distinct found, holdings, add_comm]
    simp [Consumer.buffers, ArrayNode.buffersOfAll]
  exact Consumer.releasesOnce custody trivial actions

/-- A table of numbers with a mask and of booleans, which are packed on the way. -/
def exportRequests : List Request := [
  .values "a" ⟨.int32, 0⟩ .i32 [1, 2] (some [true, false]) "mr",
  .booleans "b" [true, false] none "mr",
  .table "t" ["a", "b"],
  .deviceArray "t" "x" "mr"]

def exportSession : Session :=
  exportRequests.foldl (fun session request => (session.perform request).2) .initial

def exportRoot : ArrayNode :=
  .held 2 0 [none] [
    .held 2 1 [some ⟨some 0x100000000000, 64, ⟨[trackedLedger]⟩⟩,
      some ⟨some 0x100000000080, 8, ⟨[trackedLedger]⟩⟩] [] none,
    .held 2 0 [none, some ⟨some 0x100000000180, 64, ⟨[trackedLedger]⟩⟩] [] none] (some 1)

/-- The first child is moved out, the second one released in place, and the array twice. -/
def consumption : List Consumption :=
  [.moveChild 0 [] 0, .release 0 [1], .release 0 [], .releaseNothing, .release 0 []]

theorem CarefulRun.array_releases_once_moved :
    CarefulRun exportSession [] [] ∧
      exportSession.find? "x" = some (.deviceArray ⟨exportRoot, .host⟩) ∧
      Consumer.ReleasesOnce ⟨[exportRoot], exportSession.machine⟩ consumption ∧
      Buffer.bases (Consumer.run ⟨[exportRoot], exportSession.machine⟩ consumption).buffers =
        [0x100000000000, 0x100000000080] ∧
      Buffer.bases (Consumer.allGivenBack ⟨[exportRoot], exportSession.machine⟩ consumption) =
        [0x100000000180] := by
  have values := CarefulRun.initial.step
    (.values "a" ⟨.int32, 0⟩ .i32 [1, 2] (some [true, false]) "mr") (by decide)
  have booleans := values.step (.booleans "b" [true, false] none "mr") (by decide)
  have table := booleans.step (.table "t" ["a", "b"]) (by decide)
  have run : CarefulRun exportSession [] [] := table.step (.deviceArray "t" "x" "mr") (by decide)
  have found : exportSession.find? "x" = some (.deviceArray ⟨exportRoot, .host⟩) := rfl
  have exported : (Object.deviceArray ⟨exportRoot, .host⟩).array? = some exportRoot := rfl
  have once := run.array_releases_once found exported consumption
  exact ⟨run, found, once, by decide +kernel, by decide +kernel⟩

end Session

end DeviceColumns
