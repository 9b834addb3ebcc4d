import Rusmes.Library.Effect

/-!
Calls that may fail, seen through a view of the state. A call answers for a meaning when
it either fails and leaves the view as it was, or succeeds and has done what is meant; a
sequence of calls that each make one change makes them all or stops after some of them.
-/

namespace Effect

variable {Error State View Value : Type} {view : State → View}

structure Answers (view : State → View) (call : Effect Error State Value)
    (meaning : View → Value → View → Prop) : Prop where
  refused : ∀ state error after, call state = (.error error, after) → view after = view state
  done : ∀ state value after, call state = (.ok value, after) →
    meaning (view state) value (view after)

theorem Answers.either {call : Effect Error State Value} {meaning : View → Value → View → Prop}
    (answers : Answers view call meaning) (state : State) :
    (∃ error after, call state = (.error error, after) ∧ view after = view state) ∨
      ∃ value after, call state = (.ok value, after) ∧ meaning (view state) value (view after) := by
  rcases ran : call state with ⟨outcome, after⟩
  cases outcome with
  | error error => exact .inl ⟨error, after, rfl, answers.refused state error after ran⟩
  | ok value => exact .inr ⟨value, after, rfl, answers.done state value after ran⟩

theorem Answers.discard {call : Effect Error State Value} {change : View → View}
    (answers : Answers view call fun before _ after => after = change before) :
    Answers view (discard call) fun before _ after => after = change before := by
  constructor
  · intro state error after ran
    rcases answers.either state with ⟨own, middle, stopped, same⟩ | ⟨value, middle, went, _⟩
    · have same' : (call >>= fun _ => pure ()) state = (.error own, middle) := bind_error stopped
      cases same'.symm.trans ran
      exact same
    · have same' : (call >>= fun _ => pure ()) state = (.ok (), middle) := bind_ok went
      cases same'.symm.trans ran
  · intro state value after ran
    rcases answers.either state with ⟨own, middle, stopped, _⟩ | ⟨value, middle, went, made⟩
    · have same' : (call >>= fun _ => pure ()) state = (.error own, middle) := bind_error stopped
      cases same'.symm.trans ran
    · have same' : (call >>= fun _ => pure ()) state = (.ok (), middle) := bind_ok went
      cases same'.symm.trans ran
      exact made

def Passes (call : Effect Error State Value) (state : State) : Prop :=
  ∃ value after, call state = (.ok value, after)

theorem passes_iff {call : Effect Error State Value} {state : State} :
    Passes call state ↔ (call state).1.isOk = true := by
  rcases ran : call state with ⟨outcome, after⟩
  cases outcome with
  | ok value => exact iff_of_true ⟨value, after, ran⟩ rfl
  | error error =>
    refine iff_of_false ?_ Bool.false_ne_true
    rintro ⟨value, last, passed⟩
    cases ran.symm.trans passed

def inSequence : List (Effect Error State Unit) → Effect Error State Unit
  | [] => pure ()
  | call :: calls => do
      call
      inSequence calls

theorem inSequence_append (first second : List (Effect Error State Unit)) :
    inSequence (first ++ second) = inSequence first >>= fun _ => inSequence second := by
  induction first with
  | nil => rfl
  | cons call calls ih =>
    rw [List.cons_append, inSequence, inSequence, ih, bind_assoc]

def changed (changes : List (View → View)) (start : View) : View :=
  changes.foldl (fun current change => change current) start

theorem inSequence_changes {calls : List (Effect Error State Unit)}
    {changes : List (View → View)}
    (each : List.Forall₂ (fun call change =>
      Answers view call fun before _ after => after = change before) calls changes)
    (state : State) :
    (∃ after, inSequence calls state = (.ok (), after) ∧
      view after = changed changes (view state)) ∨
    ∃ error after made, inSequence calls state = (.error error, after) ∧ made <+: changes ∧
      view after = changed made (view state) := by
  induction each generalizing state with
  | nil => exact .inl ⟨state, rfl, rfl⟩
  | @cons call change calls changes answers _ ih =>
    rcases answers.either state with ⟨error, after, ran, kept⟩ | ⟨_, middle, ran, made⟩
    · refine .inr ⟨error, after, [], ?_, List.nil_prefix, kept⟩
      rw [inSequence, bind_error ran]
    · rw [inSequence, bind_ok ran]
      rcases ih middle with ⟨after, rest, all⟩ | ⟨error, after, few, rest, among, left⟩
      · refine .inl ⟨after, rest, ?_⟩
        rw [all, made]
        rfl
      · refine .inr ⟨error, after, change :: few, rest, ?_, ?_⟩
        · exact (List.prefix_cons_inj change).mpr among
        · rw [left, made]
          rfl

end Effect
