import Mathlib.Tactic.Common

/-!
Programs that act on a state and may fail. A failed program leaves the state as
it was when it failed, so what was written before the failure stays written.
The rules here take a run apart at a `>>=` and carry a relation between the
state before and the state after through every way of composing programs.
-/

def Effect (Error State Value : Type) : Type := State → Except Error Value × State

namespace Effect

variable {Error State Part Value Result : Type}

instance : Monad (Effect Error State) where
  pure value state := (.ok value, state)
  bind first next state :=
    match first state with
    | (.ok value, after) => next value after
    | (.error error, after) => (.error error, after)

instance : LawfulMonad (Effect Error State) := by
  refine LawfulMonad.mk' _ ?_ ?_ ?_
  · intro Value action
    funext state
    change (match action state with
      | (.ok value, after) => (.ok value, after)
      | (.error error, after) => (.error error, after)) = action state
    rcases action state with ⟨outcome, after⟩
    cases outcome with
    | ok value => rfl
    | error error => rfl
  · intro Value Result value next
    rfl
  · intro Value Middle Result first second third
    funext state
    change (match (match first state with
        | (.ok value, after) => second value after
        | (.error error, after) => (.error error, after)) with
      | (.ok value, after) => third value after
      | (.error error, after) => (.error error, after)) =
      match first state with
      | (.ok value, after) => (second value >>= third) after
      | (.error error, after) => (.error error, after)
    rcases first state with ⟨outcome, after⟩
    cases outcome with
    | ok value => rfl
    | error error => rfl

def fail (error : Error) : Effect Error State Value :=
  fun state => (.error error, state)

def ofExcept (result : Except Error Value) : Effect Error State Value :=
  fun state => (result, state)

def read : Effect Error State State :=
  fun state => (.ok state, state)

def modify (change : State → State) : Effect Error State Unit :=
  fun state => (.ok (), change state)

/-- The outcome of a program as a value: the caller goes on after a failure. -/
def attempt (action : Effect Error State Value) : Effect Error State (Except Error Value) :=
  fun state => (.ok (action state).1, (action state).2)

def unwrapOr (default : Value) (action : Effect Error State Value) : Effect Error State Value :=
  fun state => (.ok ((action state).1.toOption.getD default), (action state).2)

def focus (view : State → Part) (update : State → Part → State)
    (action : Effect Error Part Value) : Effect Error State Value :=
  fun state => ((action (view state)).1, update state (action (view state)).2)

@[simp] theorem pure_apply (value : Value) (state : State) :
    (pure value : Effect Error State Value) state = (.ok value, state) := rfl

@[simp] theorem fail_apply (error : Error) (state : State) :
    (fail error : Effect Error State Value) state = (.error error, state) := rfl

@[simp] theorem ofExcept_apply (result : Except Error Value) (state : State) :
    (ofExcept result : Effect Error State Value) state = (result, state) := rfl

@[simp] theorem read_apply (state : State) :
    (read : Effect Error State State) state = (.ok state, state) := rfl

@[simp] theorem modify_apply (change : State → State) (state : State) :
    (modify change : Effect Error State Unit) state = (.ok (), change state) := rfl

@[simp] theorem map_modify (change : State → State) (make : Unit → Value) (state : State) :
    (make <$> (modify change : Effect Error State Unit)) state =
      (.ok (make ()), change state) := rfl

@[simp] theorem attempt_apply (action : Effect Error State Value) (state : State) :
    attempt action state = (.ok (action state).1, (action state).2) := rfl

@[simp] theorem unwrapOr_apply (default : Value) (action : Effect Error State Value)
    (state : State) :
    unwrapOr default action state =
      (.ok ((action state).1.toOption.getD default), (action state).2) := rfl

@[simp] theorem focus_apply (view : State → Part) (update : State → Part → State)
    (action : Effect Error Part Value) (state : State) :
    focus view update action state =
      ((action (view state)).1, update state (action (view state)).2) := rfl

theorem bind_apply (first : Effect Error State Value) (next : Value → Effect Error State Result)
    (state : State) :
    (first >>= next) state =
      match first state with
      | (.ok value, after) => next value after
      | (.error error, after) => (.error error, after) := rfl

theorem map_state (action : Effect Error State Value) (make : Value → Result) (state : State) :
    ((make <$> action) state).2 = (action state).2 := by
  rw [map_eq_pure_bind, bind_apply]
  rcases action state with ⟨outcome, after⟩
  cases outcome with
  | ok value => rfl
  | error error => rfl

theorem bind_ok {first : Effect Error State Value} {next : Value → Effect Error State Result}
    {state after : State} {value : Value} (ran : first state = (.ok value, after)) :
    (first >>= next) state = next value after := by
  rw [bind_apply, ran]

theorem bind_error {first : Effect Error State Value} {next : Value → Effect Error State Result}
    {state after : State} {error : Error} (ran : first state = (.error error, after)) :
    (first >>= next) state = (.error error, after) := by
  rw [bind_apply, ran]

theorem bind_eq_ok {first : Effect Error State Value} {next : Value → Effect Error State Result}
    {state after : State} {result : Result} :
    (first >>= next) state = (.ok result, after) ↔
      ∃ value middle, first state = (.ok value, middle) ∧
        next value middle = (.ok result, after) := by
  constructor
  · intro ran
    rcases parts : first state with ⟨outcome, middle⟩
    cases outcome with
    | error error =>
        rw [bind_error parts] at ran
        cases ran
    | ok value =>
        rw [bind_ok parts] at ran
        exact ⟨value, middle, rfl, ran⟩
  · rintro ⟨value, middle, ran, later⟩
    rw [bind_ok ran, later]

@[simp] theorem read_bind (next : State → Effect Error State Result) (state : State) :
    (read >>= next) state = next state state := rfl

@[simp] theorem modify_bind (change : State → State) (next : Unit → Effect Error State Result)
    (state : State) : (modify change >>= next) state = next () (change state) := rfl

def Meets (action : Effect Error State Value) (state : State)
    (post : Except Error Value → State → Prop) : Prop :=
  post (action state).1 (action state).2

section Meets

variable {state : State} {post : Except Error Result → State → Prop}
  {next : Value → Effect Error State Result}

theorem meets_read_bind {next : State → Effect Error State Result}
    (goes : Meets (next state) state post) : Meets (read >>= next) state post := goes

theorem meets_modify_bind {change : State → State} {next : Unit → Effect Error State Result}
    (goes : Meets (next ()) (change state) post) : Meets (modify change >>= next) state post := goes

theorem meets_bind {first : Effect Error State Value}
    (goes : ∀ value, (first state).1 = .ok value → Meets (next value) (first state).2 post)
    (stops : ∀ error, (first state).1 = .error error → post (.error error) (first state).2) :
    Meets (first >>= next) state post := by
  rcases ran : first state with ⟨outcome, after⟩
  rw [ran] at goes stops
  cases outcome with
  | ok value =>
      rw [Meets, bind_ok ran]
      exact goes value rfl
  | error error =>
      rw [Meets, bind_error ran]
      exact stops error rfl

theorem meets_ofExcept_bind {result : Except Error Value}
    (goes : ∀ value, result = .ok value → Meets (next value) state post)
    (stops : ∀ error, post (.error error) state) :
    Meets (ofExcept result >>= next) state post :=
  meets_bind goes fun error _ => stops error

end Meets

def Keeps (holds : State → Prop) (action : Effect Error State Value) : Prop :=
  ∀ state, holds state → holds (action state).2

section Keeps

variable {holds : State → Prop}

theorem keeps_pure (value : Value) : Keeps holds (pure value : Effect Error State Value) :=
  fun _ held => held

theorem keeps_modify {change : State → State} (kept : ∀ state, holds state → holds (change state)) :
    Keeps holds (modify change : Effect Error State Unit) := kept

theorem keeps_bind {first : Effect Error State Value} {next : Value → Effect Error State Result}
    (keepsFirst : Keeps holds first) (keepsNext : ∀ value, Keeps holds (next value)) :
    Keeps holds (first >>= next) := by
  intro state held
  have middle := keepsFirst state held
  rcases ran : first state with ⟨outcome, after⟩
  rw [ran] at middle
  cases outcome with
  | ok value =>
      rw [bind_ok ran]
      exact keepsNext value after middle
  | error error =>
      rw [bind_error ran]
      exact middle

theorem keeps_read_bind {next : State → Effect Error State Result}
    (kept : ∀ state, Keeps holds (next state)) : Keeps holds (read >>= next) :=
  fun state held => kept state state held

end Keeps

def Gives (action : Effect Error State Value) (state : State) (post : Value → State → Prop) :
    Prop :=
  ∃ value after, action state = (.ok value, after) ∧ post value after

def Total (action : Effect Error State Value) : Prop :=
  ∀ state, ∃ value after, action state = (.ok value, after)

theorem total_pure (value : Value) : (pure value : Effect Error State Value).Total :=
  fun state => ⟨value, state, rfl⟩

theorem Total.bind {first : Effect Error State Value} {next : Value → Effect Error State Result}
    (succeeds : first.Total) (succeedsNext : ∀ value, (next value).Total) :
    (first >>= next).Total := by
  intro state
  obtain ⟨value, middle, ran⟩ := succeeds state
  rw [bind_ok ran]
  exact succeedsNext value middle

theorem Total.unit {action : Effect Error State Unit} (succeeds : action.Total) (state : State) :
    ∃ after, action state = (.ok (), after) := by
  obtain ⟨value, after, ran⟩ := succeeds state
  exact ⟨after, ran⟩

theorem total_attempt (action : Effect Error State Value) : (attempt action).Total :=
  fun state => ⟨_, _, attempt_apply action state⟩

theorem total_unwrapOr (default : Value) (action : Effect Error State Value) :
    (unwrapOr default action).Total :=
  fun state => ⟨_, _, unwrapOr_apply default action state⟩

section Gives

variable {state after : State} {post : Result → State → Prop}
  {next : Value → Effect Error State Result}

theorem gives_pure {value : Result} :
    Gives (pure value : Effect Error State Result) state post ↔ post value state := by
  constructor
  · rintro ⟨given, last, same, holds⟩
    rw [pure_apply] at same
    cases same
    exact holds
  · intro holds
    exact ⟨value, state, rfl, holds⟩

theorem gives_bind {first : Effect Error State Value} {value : Value}
    (ran : first state = (.ok value, after)) :
    Gives (first >>= next) state post ↔ Gives (next value) after post := by
  rw [Gives, bind_ok ran, Gives]

theorem gives_ofExcept_bind {result : Except Error Value} :
    Gives (ofExcept result >>= next) state post ↔
      ∃ value, result = .ok value ∧ Gives (next value) state post := by
  cases result with
  | ok value =>
      constructor
      · intro gives
        exact ⟨value, rfl, gives⟩
      · rintro ⟨given, same, gives⟩
        cases same
        exact gives
  | error error =>
      constructor
      · rintro ⟨value, last, ran, _⟩
        cases ran
      · rintro ⟨value, same, _⟩
        cases same

theorem gives_read_bind {next : State → Effect Error State Result} :
    Gives (read >>= next) state post ↔ Gives (next state) state post := Iff.rfl

theorem gives_modify_bind {change : State → State} {next : Unit → Effect Error State Result} :
    Gives (modify change >>= next) state post ↔ Gives (next ()) (change state) post := Iff.rfl

end Gives

end Effect
