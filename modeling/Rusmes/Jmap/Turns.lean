import Rusmes.Jmap.Holdings

/-!
The objects of an Email/set call, one turn after another: the state before each turn, how
it ended and the state after. When every object is handled as a whole and its key is
reported once, in terms of the turns.
-/

namespace Rusmes

open WireText

structure SetTurn (σ α β : Type) where
  key : Text
  value : α
  before : JmapWorld σ
  outcome : Except JmapFault β
  after : JmapWorld σ

section Turns

variable {σ α β : Type} {view : σ → Holdings} {effect : Text → α → Holdings → Holdings → Prop}
  {handle : Text → α → JmapProgram σ β}

def setTurns (handle : Text → α → JmapProgram σ β) :
    List (Text × α) → JmapWorld σ → List (SetTurn σ α β)
  | [], _ => []
  | (key, value) :: others, world =>
      ⟨key, value, world, (handle key value world).1, (handle key value world).2⟩ ::
        setTurns handle others (handle key value world).2

def leftBy (handle : Text → α → JmapProgram σ β) (entries : List (Text × α))
    (world : JmapWorld σ) : JmapWorld σ :=
  entries.foldl (fun world entry => (handle entry.1 entry.2 world).2) world

def SetTurn.succeeds (turn : SetTurn σ α β) : Bool :=
  match turn.outcome with
  | .ok _ => true
  | .error _ => false

/-- A turn that went well took full effect, and one that failed changed nothing. -/
def SetTurn.Whole (view : σ → Holdings) (effect : Text → α → Holdings → Holdings → Prop)
    (turn : SetTurn σ α β) : Prop :=
  if turn.succeeds then
    effect turn.key turn.value (view turn.before.store) (view turn.after.store)
  else view turn.after.store = view turn.before.store

theorem SetTurn.whole_ok {turn : SetTurn σ α β} {value : β} (went : turn.outcome = .ok value) :
    turn.Whole view effect ↔
      effect turn.key turn.value (view turn.before.store) (view turn.after.store) := by
  rw [Whole, succeeds, went, if_pos rfl]

theorem SetTurn.whole_error {turn : SetTurn σ α β} {fault : JmapFault}
    (failed : turn.outcome = .error fault) :
    turn.Whole view effect ↔ view turn.after.store = view turn.before.store := by
  rw [Whole, succeeds, failed, if_neg Bool.false_ne_true]

structure AtomicEach (view : σ → Holdings) (effect : Text → α → Holdings → Holdings → Prop)
    (turns : List (SetTurn σ α β)) (done refused : List Text) : Prop where
  unchanged : ∀ turn ∈ turns, turn.key ∈ refused →
    view turn.after.store = view turn.before.store
  complete : ∀ turn ∈ turns, turn.key ∈ done →
    effect turn.key turn.value (view turn.before.store) (view turn.after.store)
  once : ∀ turn ∈ turns, done.count turn.key + refused.count turn.key = 1

theorem setTurns_keys (entries : List (Text × α)) (world : JmapWorld σ) :
    (setTurns handle entries world).map SetTurn.key = entries.map Prod.fst := by
  induction entries generalizing world with
  | nil => rfl
  | cons entry others ih => rw [setTurns, List.map_cons, List.map_cons, ih]

theorem setTurns_ran {entries : List (Text × α)} {world : JmapWorld σ} {turn : SetTurn σ α β}
    (member : turn ∈ setTurns handle entries world) :
    handle turn.key turn.value turn.before = (turn.outcome, turn.after) := by
  induction entries generalizing world with
  | nil => cases member
  | cons entry others ih =>
    rcases List.mem_cons.mp member with rfl | later
    · rfl
    · exact ih later

theorem eachEntry_turns {entries : List (Text × α)} {world after : JmapWorld σ}
    {outcomes : List (Text × Except JmapFault β)}
    (ran : eachEntry handle entries world = (.ok outcomes, after)) :
    outcomes = (setTurns handle entries world).map (fun turn => (turn.key, turn.outcome)) ∧
      after = leftBy handle entries world ∧
      ∀ turn ∈ setTurns handle entries world, turn.outcome ≠ .error .panicked := by
  induction entries generalizing world outcomes with
  | nil =>
    cases ran
    exact ⟨rfl, rfl, fun turn member => by cases member⟩
  | cons entry others ih =>
    obtain ⟨key, value⟩ := entry
    rw [eachEntry] at ran
    obtain ⟨outcome, middle, caughtOne, ran⟩ := Effect.bind_eq_ok.mp ran
    obtain ⟨rest, last, ranOthers, ran⟩ := Effect.bind_eq_ok.mp ran
    cases ran
    have turn : handle key value world = (outcome, middle) ∧ outcome ≠ .error .panicked := by
      rcases single : handle key value world with ⟨own, next⟩
      rw [caught, single] at caughtOne
      cases own with
      | ok made =>
        cases caughtOne
        exact ⟨rfl, by simp⟩
      | error fault =>
        cases fault with
        | panicked => cases caughtOne
        | message | notFound | forbidden =>
          cases caughtOne
          exact ⟨rfl, by simp⟩
    obtain ⟨rfl, rfl, calm⟩ := ih ranOthers
    refine ⟨?_, ?_, ?_⟩
    · rw [setTurns, List.map_cons, turn.1]
    · rw [leftBy, leftBy, List.foldl_cons, turn.1]
    · intro one member
      rw [setTurns, turn.1] at member
      rcases List.mem_cons.mp member with rfl | later
      · exact turn.2
      · exact calm one later

def doneKeys (turns : List (SetTurn σ α β)) : List Text :=
  (turns.filter SetTurn.succeeds).map SetTurn.key

def failedKeys (turns : List (SetTurn σ α β)) : List Text :=
  (turns.filter fun turn => !turn.succeeds).map SetTurn.key

variable {turns : List (SetTurn σ α β)}

theorem mem_doneKeys {key : Text} :
    key ∈ doneKeys turns ↔ ∃ turn ∈ turns, turn.succeeds = true ∧ turn.key = key := by
  simp [doneKeys, and_assoc]

theorem mem_failedKeys {key : Text} :
    key ∈ failedKeys turns ↔ ∃ turn ∈ turns, turn.succeeds = false ∧ turn.key = key := by
  simp [failedKeys, and_assoc]

theorem count_keys (turns : List (SetTurn σ α β)) (key : Text) :
    (turns.map SetTurn.key).count key =
      (doneKeys turns).count key + (failedKeys turns).count key := by
  induction turns with
  | nil => rfl
  | cons turn others ih =>
    cases own : turn.succeeds with
    | true =>
      simp only [doneKeys, failedKeys, List.filter_cons, own, List.map_cons, List.count_cons,
        if_true, Bool.not_true, Bool.false_eq_true, if_false] at ih ⊢
      omega
    | false =>
      simp only [doneKeys, failedKeys, List.filter_cons, own, List.map_cons, List.count_cons,
        if_true, Bool.not_false, Bool.false_eq_true, if_false] at ih ⊢
      omega

/-- Every object is handled as a whole and reported once exactly when each turn is whole and
a key that some turn settles has no other turn. -/
theorem atomicEach_iff {refused : List Text} (distinct : refused.Nodup)
    (failed : ∀ key, key ∈ refused ↔ key ∈ failedKeys turns) :
    AtomicEach view effect turns (doneKeys turns) refused ↔
      ∀ turn ∈ turns, turn.Whole view effect ∧
        (turn.succeeds = true → (turns.map SetTurn.key).count turn.key = 1) := by
  constructor
  · intro atomic turn member
    cases own : turn.succeeds with
    | false =>
      refine ⟨?_, by simp⟩
      rw [SetTurn.Whole, own, if_neg Bool.false_ne_true]
      exact atomic.unchanged turn member
        ((failed turn.key).mpr (mem_failedKeys.mpr ⟨turn, member, own, rfl⟩))
    | true =>
      have done : turn.key ∈ doneKeys turns := mem_doneKeys.mpr ⟨turn, member, own, rfl⟩
      refine ⟨?_, fun _ => ?_⟩
      · rw [SetTurn.Whole, own, if_pos rfl]
        exact atomic.complete turn member done
      · have once := atomic.once turn member
        have some := List.count_pos_iff.mpr done
        have never : turn.key ∉ refused := List.count_eq_zero.mp (by omega)
        have calm : (failedKeys turns).count turn.key = 0 :=
          List.count_eq_zero.mpr fun fault => never ((failed turn.key).mpr fault)
        have split := count_keys turns turn.key
        omega
  · intro whole
    -- a key that some turn settles is not refused by another
    have apart : ∀ key, key ∈ doneKeys turns → key ∉ failedKeys turns := by
      intro key done fault
      obtain ⟨turn, member, own, rfl⟩ := mem_doneKeys.mp done
      have single := (whole turn member).2 own
      have split := count_keys turns turn.key
      have first := List.count_pos_iff.mpr done
      have second := List.count_pos_iff.mpr fault
      omega
    refine ⟨fun turn member listed => ?_, fun turn member listed => ?_, fun turn member => ?_⟩
    · have fault := (failed turn.key).mp listed
      cases own : turn.succeeds with
      | true => exact absurd fault (apart turn.key (mem_doneKeys.mpr ⟨turn, member, own, rfl⟩))
      | false =>
        have kept := (whole turn member).1
        rw [SetTurn.Whole, own, if_neg Bool.false_ne_true] at kept
        exact kept
    · cases own : turn.succeeds with
      | false => exact absurd (mem_failedKeys.mpr ⟨turn, member, own, rfl⟩) (apart turn.key listed)
      | true =>
        have made := (whole turn member).1
        rw [SetTurn.Whole, own, if_pos rfl] at made
        exact made
    · have split := count_keys turns turn.key
      cases own : turn.succeeds with
      | true =>
        have done : turn.key ∈ doneKeys turns := mem_doneKeys.mpr ⟨turn, member, own, rfl⟩
        have never : turn.key ∉ refused :=
          fun listed => apart turn.key done ((failed turn.key).mp listed)
        have single := (whole turn member).2 own
        have calm := List.count_eq_zero.mpr (apart turn.key done)
        have none := List.count_eq_zero.mpr never
        omega
      | false =>
        have fault : turn.key ∈ failedKeys turns := mem_failedKeys.mpr ⟨turn, member, own, rfl⟩
        have listed := List.count_eq_one_of_mem distinct ((failed turn.key).mpr fault)
        have none := List.count_eq_zero.mpr fun done => apart turn.key done fault
        omega

end Turns

section Lists

variable {σ α β : Type} {turns : List (SetTurn σ α β)}

def outcomesOf (turns : List (SetTurn σ α β)) : List (Text × Except JmapFault β) :=
  turns.map fun turn => (turn.key, turn.outcome)

theorem succeeded_keys (turns : List (SetTurn σ α β)) :
    (succeeded (outcomesOf turns)).map Prod.fst = doneKeys turns := by
  induction turns with
  | nil => rfl
  | cons turn others ih =>
    cases own : turn.outcome with
    | ok value =>
      simp [outcomesOf, succeeded, doneKeys, SetTurn.succeeds, own, Except.toOption] at ih ⊢
      exact ih
    | error fault =>
      simp [outcomesOf, succeeded, doneKeys, SetTurn.succeeds, own, Except.toOption] at ih ⊢
      exact ih

theorem notDone_keys (classify : JmapFault → JmapSetError) (turns : List (SetTurn σ α β)) :
    (notDone classify (outcomesOf turns)).map Prod.fst = failedKeys turns := by
  induction turns with
  | nil => rfl
  | cons turn others ih =>
    cases own : turn.outcome with
    | ok value =>
      simp [outcomesOf, notDone, failedKeys, SetTurn.succeeds, own] at ih ⊢
      exact ih
    | error fault =>
      simp [outcomesOf, notDone, failedKeys, SetTurn.succeeds, own] at ih ⊢
      exact ih

theorem mem_keyed_keys {entries : List (Text × β)} {key : Text} :
    key ∈ (keyed entries).map Prod.fst ↔ key ∈ entries.map Prod.fst := by
  induction entries with
  | nil => rfl
  | cons entry others ih =>
    rw [keyed]
    split
    · rename_i again
      rw [ih, List.map_cons, List.mem_cons]
      constructor
      · exact Or.inr
      · rintro (rfl | later)
        · exact again
        · exact later
    · rw [List.map_cons, List.mem_cons, ih, List.map_cons, List.mem_cons]

theorem keyed_keys_nodup (entries : List (Text × β)) :
    ((keyed entries).map Prod.fst).Nodup := by
  induction entries with
  | nil => exact List.nodup_nil
  | cons entry others ih =>
    rw [keyed]
    split
    · exact ih
    · rename_i fresh
      rw [List.map_cons, List.nodup_cons, mem_keyed_keys]
      exact ⟨fresh, ih⟩

theorem getD_unlessEmpty {γ : Type} (values : List γ) :
    (unlessEmpty values).getD [] = values := by
  cases values with
  | nil => rfl
  | cons value others => rfl

theorem atomicEach_distinct_iff {view : σ → Holdings}
    {effect : Text → α → Holdings → Holdings → Prop}
    (distinct : (turns.map SetTurn.key).Nodup) :
    AtomicEach view effect turns (doneKeys turns) (failedKeys turns) ↔
      ∀ turn ∈ turns, turn.Whole view effect := by
  have failures : (failedKeys turns).Nodup := distinct.sublist (List.filter_sublist.map _)
  rw [atomicEach_iff failures fun _ => Iff.rfl]
  refine forall₂_congr fun turn member => and_iff_left fun _ => ?_
  exact List.count_eq_one_of_mem distinct (List.mem_map_of_mem member)

end Lists

end Rusmes
