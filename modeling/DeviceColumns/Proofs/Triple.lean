import DeviceColumns.Action

/-!
Specifications of computations that may fail. A triple says what holds of the value and the state
after success and what holds of the state after failure. Nothing is said about which of the two
happens, except that a triple whose failure condition is `False` promises success.
-/

namespace DeviceColumns.Action

set_option autoImplicit false

variable {State Fault Other Value Next : Type}

/-- From states in which `before` holds, `act` ends in one in which `after` holds of its value, or
fails and leaves one in which `failed` holds. -/
def Triple (before : State → Prop) (act : Action State Fault Value)
    (after : Value → State → Prop) (failed : State → Prop) : Prop :=
  ∀ state, before state →
    match act state with
    | (.ok value, final) => after value final
    | (.error _, final) => failed final

namespace Triple

variable {before middle failed undone : State → Prop} {after : Value → State → Prop}
  {final : Next → State → Prop} {act : Action State Fault Value}
  {next : Value → Action State Fault Next}

theorem ok (spec : Triple before act after failed) {state left : State} {value : Value}
    (holds : before state) (ran : act state = (.ok value, left)) : after value left := by
  have outcome := spec state holds
  rwa [ran] at outcome

theorem error (spec : Triple before act after failed) {state left : State} {fault : Fault}
    (holds : before state) (ran : act state = (.error fault, left)) : failed left := by
  have outcome := spec state holds
  rwa [ran] at outcome

theorem returns (spec : Triple before act after fun _ => False) {state : State}
    (holds : before state) : ∃ value left, act state = (.ok value, left) ∧ after value left := by
  have outcome := spec state holds
  rcases ran : act state with ⟨fault | value, left⟩ <;> rw [ran] at outcome
  · exact outcome.elim
  · exact ⟨value, left, rfl, outcome⟩

theorem conseq {before' : State → Prop} {after' : Value → State → Prop} {failed' : State → Prop}
    (spec : Triple before act after failed) (weaken : ∀ state, before' state → before state)
    (onOk : ∀ value state, after value state → after' value state)
    (onError : ∀ state, failed state → failed' state) :
    Triple before' act after' failed' := by
  intro state holds
  have outcome := spec state (weaken state holds)
  rcases ran : act state with ⟨fault | value, left⟩ <;> rw [ran] at outcome
  · exact onError left outcome
  · exact onOk value left outcome

theorem weaken {before' : State → Prop} (spec : Triple before act after failed)
    (weaker : ∀ state, before' state → before state) : Triple before' act after failed :=
  fun state holds => spec state (weaker state holds)

theorem pure {value : Value} (holds : ∀ state, before state → after value state) :
    Triple before (Pure.pure value : Action State Fault Value) after failed :=
  fun state assumed => holds state assumed

theorem fail {fault : Fault} (holds : ∀ state, before state → failed state) :
    Triple before (Action.fail fault : Action State Fault Value) after failed :=
  fun state assumed => holds state assumed

theorem bind (first : Triple before act after failed)
    (second : ∀ value, Triple (after value) (next value) final failed) :
    Triple before (act >>= next) final failed := by
  intro state holds
  have outcome := first state holds
  rw [bind_apply]
  rcases ran : act state with ⟨fault | value, left⟩
  · rwa [ran] at outcome
  · rw [ran] at outcome
    exact second value left outcome

/-- What becomes known of the value alone is a fact from then on. -/
theorem bindFact {fact : Value → Prop}
    (first : Triple before act (fun value state => fact value ∧ after value state) failed)
    (second : ∀ value, fact value → Triple (after value) (next value) final failed) :
    Triple before (act >>= next) final failed := by
  apply first.bind
  intro value state holds
  exact second value holds.1 state holds.2

theorem always (act : Action State Fault Value) :
    Triple (fun _ => True) act (fun _ _ => True) fun _ => True := by
  intro state _
  rcases act state with ⟨fault | value, left⟩ <;> trivial

/-- Where nothing is said about states, the fact is all that is known. -/
theorem bindOnly {fact : Value → Prop}
    (first : Triple (fun _ => True) act (fun value _ => fact value) failed)
    (second : ∀ value, fact value → Triple (fun _ => True) (next value) final failed) :
    Triple (fun _ => True) (act >>= next) final failed :=
  first.bind fun value state known => second value known state trivial

theorem stop {fault : Fault} {next : Value → Action State Fault Next}
    (holds : ∀ state, before state → failed state) :
    Triple before (Action.fail fault >>= next) final failed :=
  fun state assumed => holds state assumed

theorem pass {value : Value} {next : Value → Action State Fault Next}
    (spec : Triple before (next value) final failed) :
    Triple before ((Pure.pure value : Action State Fault Value) >>= next) final failed :=
  fun state assumed => spec state assumed

theorem modify {change : State → State} {after : Unit → State → Prop}
    (holds : ∀ state, before state → after () (change state)) :
    Triple before (Action.modify change : Action State Fault Unit) after failed :=
  fun state assumed => holds state assumed

theorem get : Triple before (Action.get : Action State Fault State)
    (fun found state => found = state ∧ before state) failed :=
  fun _ holds => ⟨rfl, holds⟩

theorem look : Triple before (Action.get : Action State Fault State) (fun _ => before) failed :=
  fun _ holds => holds

theorem ofExcept {outcome : Except Fault Value}
    (onOk : ∀ value, outcome = .ok value → ∀ state, before state → after value state)
    (onError : ∀ fault, outcome = .error fault → ∀ state, before state → failed state) :
    Triple before (Action.ofExcept outcome) after failed := by
  intro state holds
  unfold Action.ofExcept
  cases outcome with
  | ok value => exact onOk value rfl state holds
  | error fault => exact onError fault rfl state holds

theorem checked (outcome : Except Fault Value) {failed : State → Prop}
    (onError : ∀ state, before state → failed state) :
    Triple before (Action.ofExcept outcome) (fun value state => outcome = .ok value ∧ before state)
      failed :=
  ofExcept (fun _ succeeded _ holds => ⟨succeeded, holds⟩) fun _ _ state holds => onError state holds

theorem check (outcome : Except Fault Value) :
    Triple before (Action.ofExcept outcome) (fun _ => before) before :=
  ofExcept (fun _ _ _ holds => holds) fun _ _ _ holds => holds

theorem mapFault {rename : Fault → Other} (spec : Triple before act after failed) :
    Triple before (act.mapFault rename) after failed := by
  intro state holds
  have outcome := spec state holds
  unfold Action.mapFault
  rcases ran : act state with ⟨fault | value, left⟩ <;> rwa [ran] at outcome

theorem undoOnFailure {undo : State → State} (spec : Triple before act after failed)
    (undoes : ∀ state, failed state → undone (undo state)) :
    Triple before (act.undoOnFailure undo) after undone := by
  intro state holds
  have outcome := spec state holds
  unfold Action.undoOnFailure
  rcases ran : act state with ⟨fault | value, left⟩
  · rw [ran] at outcome
    exact undoes left outcome
  · rwa [ran] at outcome

end Triple

end DeviceColumns.Action
