import Rusmes.Sieve.Interpreter

/-!
The tests of a script as boolean formulas: what the connectives mean, and where a test
over lists is the formula over the members of the lists.
-/

namespace Rusmes

open WireText

section Laws

variable {letters : CaseMapping} {mail : Mail}

@[simp] theorem holds_exists (names : List Text) :
    holds letters mail (.exists names) = evaluateExistsTest mail names := rfl

@[simp] theorem holds_header (comparator : Option Text) (matchType : Text)
    (headers keys : List Text) : holds letters mail (.header comparator matchType headers keys) =
      evaluateHeaderTest letters mail matchType headers keys := rfl

theorem evaluateNot_eq (test : SieveTest) :
    evaluateTest letters mail (.not test) = .ok (!holds letters mail test) := by
  rw [evaluateTest, evaluateTest_eq]
  rfl

theorem evaluateAllOf_eq (tests : List SieveTest) :
    evaluateTest letters mail (.allOf tests) = .ok (tests.all (holds letters mail)) := by
  rw [evaluateTest]
  induction tests with
  | nil => rfl
  | cons test tests ih =>
      rw [evaluateAllOf, evaluateTest_eq, List.all_cons]
      cases holds letters mail test with
      | true => exact ih
      | false => rfl

theorem evaluateAnyOf_eq (tests : List SieveTest) :
    evaluateTest letters mail (.anyOf tests) = .ok (tests.any (holds letters mail)) := by
  rw [evaluateTest]
  induction tests with
  | nil => rfl
  | cons test tests ih =>
      rw [evaluateAnyOf, evaluateTest_eq, List.any_cons]
      cases holds letters mail test with
      | true => rfl
      | false => exact ih

theorem evaluateHeader_expand (comparator : Option Text) (matchType : Text)
    (headers keys : List Text) :
    evaluateTest letters mail (.header comparator matchType headers keys) =
      evaluateTest letters mail (.anyOf (headers.flatMap fun header =>
        keys.map fun key => .header comparator matchType [header] [key])) := by
  rw [evaluateAnyOf_eq, evaluateTest]
  congr 1
  induction headers with
  | nil => rfl
  | cons header headers ih =>
      rw [List.flatMap_cons, List.any_append, ← ih, evaluateHeaderTest, List.any_cons]
      congr 1
      rw [List.any_map]
      have single : holds letters mail ∘ (fun key => .header comparator matchType [header] [key]) =
          fun key => evaluateHeaderTest letters mail matchType [header] [key] := rfl
      rw [single]
      simp only [evaluateHeaderTest, List.any_cons, List.any_nil, Bool.or_false]
      cases (mail.getAttribute ("header.".toList ++ header)).bind AttributeValue.asStr with
      | none => simp
      | some value => rfl

end Laws

/-- The boolean meaning of the tests, on the headers of this list for `exists`. -/
structure BooleanTests (letters : CaseMapping) (mail : Mail) (names : List Text) : Prop where
  «exists» : evaluateTest letters mail (.exists names) =
    evaluateTest letters mail (.allOf (names.map fun name => .exists [name]))
  not : ∀ test held, evaluateTest letters mail test = .ok held →
    evaluateTest letters mail (.not test) = .ok !held
  allOf : ∀ tests, ∃ held : SieveTest → Bool,
    (∀ test ∈ tests, evaluateTest letters mail test = .ok (held test)) ∧
      evaluateTest letters mail (.allOf tests) = .ok (tests.all held)
  anyOf : ∀ tests, ∃ held : SieveTest → Bool,
    (∀ test ∈ tests, evaluateTest letters mail test = .ok (held test)) ∧
      evaluateTest letters mail (.anyOf tests) = .ok (tests.any held)
  header : ∀ comparator matchType headers keys,
    evaluateTest letters mail (.header comparator matchType headers keys) =
      evaluateTest letters mail (.anyOf (headers.flatMap fun header =>
        keys.map fun key => .header comparator matchType [header] [key]))

section Exists

variable {letters : CaseMapping} {mail : Mail}

def Mail.HasHeader (mail : Mail) (name : Text) : Prop :=
  (mail.getAttribute ("header.".toList ++ name)).isSome

theorem existsTest_iff (names : List Text) :
    evaluateExistsTest mail names = true ↔ ∃ name ∈ names, mail.HasHeader name := by
  simp [evaluateExistsTest, Mail.HasHeader]

theorem existsEach_iff (names : List Text) :
    (names.map fun name => SieveTest.exists [name]).all (holds letters mail) = true ↔
      ∀ name ∈ names, mail.HasHeader name := by
  simp [evaluateExistsTest, Mail.HasHeader]

/-- One header that exists is enough for the test, so it means that all of them do only
where they stand or fall together. -/
theorem exists_all_iff (names : List Text) :
    evaluateTest letters mail (.exists names) =
        evaluateTest letters mail (.allOf (names.map fun name => .exists [name])) ↔
      names ≠ [] ∧
        ((∀ name ∈ names, mail.HasHeader name) ∨ ∀ name ∈ names, ¬mail.HasHeader name) := by
  rw [evaluateAllOf_eq, evaluateTest, Except.ok.injEq, Bool.eq_iff_iff, existsTest_iff,
    existsEach_iff]
  constructor
  · intro same
    refine ⟨?_, ?_⟩
    · rintro rfl
      obtain ⟨_, member, _⟩ := same.mpr (fun _ member => absurd member List.not_mem_nil)
      exact List.not_mem_nil member
    · by_cases found : ∃ name ∈ names, mail.HasHeader name
      · exact .inl (same.mp found)
      · exact .inr fun name member has => found ⟨name, member, has⟩
  · rintro ⟨nonempty, all | none⟩
    · obtain ⟨name, member⟩ := List.exists_mem_of_ne_nil names nonempty
      exact ⟨fun _ => all, fun _ => ⟨name, member, all name member⟩⟩
    · constructor
      · rintro ⟨name, member, has⟩
        exact absurd has (none name member)
      · intro all
        obtain ⟨name, member⟩ := List.exists_mem_of_ne_nil names nonempty
        exact absurd (all name member) (none name member)

end Exists

/-- Which lists of headers leave the tests their boolean meaning. -/
theorem booleanTests_iff (letters : CaseMapping) (mail : Mail) (names : List Text) :
    BooleanTests letters mail names ↔
      names ≠ [] ∧
        ((∀ name ∈ names, mail.HasHeader name) ∨ ∀ name ∈ names, ¬mail.HasHeader name) := by
  constructor
  · intro boolean
    exact (exists_all_iff names).mp boolean.exists
  · intro alike
    refine ⟨(exists_all_iff names).mpr alike, ?_, ?_, ?_, ?_⟩
    · intro test held evaluated
      rw [evaluateTest_eq] at evaluated
      rw [evaluateNot_eq, Except.ok.inj evaluated]
    · intro tests
      exact ⟨_, fun test _ => evaluateTest_eq test, evaluateAllOf_eq tests⟩
    · intro tests
      exact ⟨_, fun test _ => evaluateTest_eq test, evaluateAnyOf_eq tests⟩
    · exact evaluateHeader_expand

/-- A mail with one of two headers has them both for `exists`. -/
theorem exists_one_of_two :
    let mail := (noteFromAlice []).setAttribute "header.Subject".toList (.string [])
    ¬BooleanTests asciiCase mail ["Subject".toList, "X-Spam".toList] := by
  intro mail boolean
  have same : Except.ok true = Except.ok false := boolean.exists
  cases same

end Rusmes
