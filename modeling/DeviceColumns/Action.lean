/-!
Computations on a state that may fail. What a computation did to the state before it failed stays
done, so a caller that must leave nothing behind undoes it explicitly with `undoOnFailure`.
-/

namespace DeviceColumns

set_option autoImplicit false

/-- A computation over states `State`: the outcome and the state it leaves, in either case. -/
def Action (State Fault Value : Type) : Type :=
  State → Except Fault Value × State

namespace Action

variable {State Fault Other Value Next : Type}

instance : Monad (Action State Fault) where
  pure value := fun state => (.ok value, state)
  bind act next := fun state =>
    match act state with
    | (.ok value, after) => next value after
    | (.error fault, after) => (.error fault, after)

def fail (fault : Fault) : Action State Fault Value :=
  fun state => (.error fault, state)

def get : Action State Fault State :=
  fun state => (.ok state, state)

def modify (change : State → State) : Action State Fault Unit :=
  fun state => (.ok (), change state)

def ofExcept (outcome : Except Fault Value) : Action State Fault Value :=
  fun state => (outcome, state)

def mapFault (rename : Fault → Other) (act : Action State Fault Value) :
    Action State Other Value :=
  fun state =>
    match act state with
    | (.ok value, after) => (.ok value, after)
    | (.error fault, after) => (.error (rename fault), after)

/-- If `act` fails, `undo` is applied to the state it leaves. -/
def undoOnFailure (act : Action State Fault Value) (undo : State → State) :
    Action State Fault Value :=
  fun state =>
    match act state with
    | (.ok value, after) => (.ok value, after)
    | (.error fault, after) => (.error fault, undo after)

theorem bind_apply (act : Action State Fault Value) (next : Value → Action State Fault Next)
    (state : State) :
    (act >>= next) state =
      match act state with
      | (.ok value, after) => next value after
      | (.error fault, after) => (.error fault, after) := rfl

theorem bind_ok {act : Action State Fault Value} {next : Value → Action State Fault Next}
    {state after : State} {value : Value} (succeeded : act state = (.ok value, after)) :
    (act >>= next) state = next value after := by
  rw [bind_apply, succeeded]

theorem bind_error {act : Action State Fault Value} {next : Value → Action State Fault Next}
    {state after : State} {fault : Fault} (failed : act state = (.error fault, after)) :
    (act >>= next) state = (.error fault, after) := by
  rw [bind_apply, failed]

/-- A sequence succeeds only if both of its parts do. -/
theorem bind_eq_ok {act : Action State Fault Value} {next : Value → Action State Fault Next}
    {state after : State} {result : Next} (ran : (act >>= next) state = (.ok result, after)) :
    ∃ value middle, act state = (.ok value, middle) ∧ next value middle = (.ok result, after) := by
  rcases first : act state with ⟨fault | value, middle⟩
  · rw [bind_error first] at ran
    cases ran
  · rw [bind_ok first] at ran
    exact ⟨value, middle, rfl, ran⟩

theorem map_eq_ok {act : Action State Fault Value} {wrap : Value → Next} {state after : State}
    {result : Next} (ran : (wrap <$> act) state = (.ok result, after)) :
    ∃ value, act state = (.ok value, after) ∧ wrap value = result := by
  change (act >>= fun value => pure (wrap value)) state = _ at ran
  obtain ⟨value, middle, made, wrapped⟩ := bind_eq_ok ran
  cases wrapped
  exact ⟨value, made, rfl⟩

theorem ofExcept_eq_ok {outcome : Except Fault Value} {state after : State} {value : Value}
    (ran : (ofExcept outcome : Action State Fault Value) state = (.ok value, after)) :
    outcome = .ok value ∧ after = state := by
  obtain ⟨made, same⟩ := Prod.mk.inj ran
  exact ⟨made, same.symm⟩

theorem mapFault_eq_ok {act : Action State Fault Value} {rename : Fault → Other}
    {state after : State} {value : Value}
    (ran : act.mapFault rename state = (.ok value, after)) : act state = (.ok value, after) := by
  unfold mapFault at ran
  split at ran
  · cases ran
    assumption
  · cases ran

theorem bind_eq_error {act : Action State Fault Value} {next : Value → Action State Fault Next}
    {state after : State} {fault : Fault} (ran : (act >>= next) state = (.error fault, after)) :
    act state = (.error fault, after) ∨
      ∃ value middle, act state = (.ok value, middle) ∧
        next value middle = (.error fault, after) := by
  rcases first : act state with ⟨cause | value, middle⟩
  · rw [bind_error first] at ran
    cases ran
    exact .inl rfl
  · rw [bind_ok first] at ran
    exact .inr ⟨value, middle, rfl, ran⟩

theorem mapFault_eq_error {act : Action State Fault Value} {rename : Fault → Other}
    {state after : State} {fault : Other}
    (ran : act.mapFault rename state = (.error fault, after)) :
    ∃ cause, act state = (.error cause, after) ∧ rename cause = fault := by
  unfold mapFault at ran
  split at ran
  · cases ran
  · cases ran
    exact ⟨_, by assumption, rfl⟩

theorem undoOnFailure_eq_ok {act : Action State Fault Value} {undo : State → State}
    {state after : State} {value : Value}
    (ran : act.undoOnFailure undo state = (.ok value, after)) : act state = (.ok value, after) := by
  unfold undoOnFailure at ran
  split at ran
  · cases ran
    assumption
  · cases ran

theorem undoOnFailure_eq_error {act : Action State Fault Value} {undo : State → State}
    {state after : State} {fault : Fault}
    (ran : act.undoOnFailure undo state = (.error fault, after)) :
    ∃ middle, act state = (.error fault, middle) ∧ undo middle = after := by
  unfold undoOnFailure at ran
  split at ran
  · cases ran
  · cases ran
    exact ⟨_, by assumption, rfl⟩

end Action

end DeviceColumns
