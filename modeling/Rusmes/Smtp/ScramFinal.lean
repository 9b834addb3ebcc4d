import Rusmes.Library.Splitting
import Rusmes.Smtp.Auth

/-!
What the parser of `client-final` takes from a message. The signed text is cut at the
last `,p=`, the attributes are collected from the whole message: the two agree in the
messages that end with their proof.
-/

namespace Rusmes

open WireText

def LastNamed (parts : List Text) (name value : Text) : Prop :=
  ∃ earlier later, parts = earlier ++ (name ++ value) :: later ∧ ∀ part ∈ later, ¬name <+: part

def AttributeOf (text name value : Text) : Prop :=
  LastNamed (splitOn ',' text) name value

theorem lastNamed_append {parts : List Text} {part name value : Text} (unnamed : ¬name <+: part)
    (named : LastNamed (parts ++ [part]) name value) : LastNamed parts name value := by
  obtain ⟨earlier, later, whole, none⟩ := named
  rcases List.eq_nil_or_concat later with rfl | ⟨others, last, rfl⟩
  · have same := (List.append_inj' whole rfl).2
    rw [List.singleton_inj] at same
    exact absurd ⟨value, same.symm⟩ unnamed
  · rw [List.concat_eq_append, ← List.cons_append, ← List.append_assoc] at whole
    refine ⟨earlier, others, (List.append_inj' whole rfl).1, ?_⟩
    intro other member
    exact none other (by simp [member])

def attributeValue (names : List Text) (name part : Text) : Option Text :=
  if names.find? (fun other => other <+: part) = some name then some (part.drop name.length)
  else none

theorem scramAttribute_eq (names : List Text) (name : Text) (parts : List Text) :
    scramAttribute names name parts = parts.reverse.findSome? (attributeValue names name) := by
  rw [scramAttribute]
  induction parts using List.reverseRecOn with
  | nil => rfl
  | append_singleton parts part ih =>
      rw [List.foldl_append, List.foldl_cons, List.foldl_nil, ih, List.reverse_append]
      simp only [List.reverse_singleton, List.singleton_append, List.findSome?_cons,
        attributeValue]
      cases found : names.find? (fun other => other <+: part) with
      | none => simp
      | some other => by_cases same : other = name <;> simp [same]

def Apart (names : List Text) (name : Text) : Prop :=
  ∀ part, names.find? (fun other => other <+: part) = some name ↔ name <+: part

theorem scramAttribute_eq_some {names : List Text} {name : Text} (apart : Apart names name)
    (parts : List Text) (value : Text) :
    scramAttribute names name parts = some value ↔ LastNamed parts name value := by
  have reads (part : Text) (value : Text) :
      attributeValue names name part = some value ↔ part = name ++ value := by
    simp only [attributeValue, apart part, Option.ite_none_right_eq_some, Option.some.injEq]
    constructor
    · rintro ⟨⟨tail, rfl⟩, rfl⟩
      rw [List.drop_left]
    · rintro rfl
      exact ⟨List.prefix_append name value, List.drop_left⟩
  have skips (part : Text) : attributeValue names name part = none ↔ ¬name <+: part := by
    simp only [attributeValue, apart part, ite_eq_right_iff, reduceCtorEq, imp_false]
  rw [scramAttribute_eq, List.findSome?_eq_some_iff]
  constructor
  · rintro ⟨later, part, earlier, whole, found, none⟩
    refine ⟨earlier.reverse, later.reverse, ?_, ?_⟩
    · rw [List.reverse_eq_iff] at whole
      rw [whole, (reads part value).mp found]
      simp
    · intro other member
      exact (skips other).mp (none other (List.mem_reverse.mp member))
  · rintro ⟨earlier, later, whole, none⟩
    refine ⟨later.reverse, name ++ value, earlier.reverse, ?_, (reads _ _).mpr rfl, ?_⟩
    · rw [whole]
      simp
    · intro other member
      exact (skips other).mpr (none other (List.mem_reverse.mp member))

theorem apart_of_length {names : List Text} {name : Text} (known : name ∈ names)
    (lengths : ∀ other ∈ names, other.length = name.length) : Apart names name := by
  intro part
  constructor
  · intro found
    simpa using List.find?_some found
  · intro leads
    cases found : names.find? (fun other => other <+: part) with
    | none =>
        have absent := List.find?_eq_none.mp found name known
        simp [leads] at absent
    | some other =>
        have otherLeads : other <+: part := by simpa using List.find?_some found
        have same := lengths other (List.mem_of_find?_eq_some found)
        have shorter : other <+: name := List.prefix_of_prefix_length_le otherLeads leads (by omega)
        rw [shorter.eq_of_length same]

def finalNames : List Text := ["c=".toList, "r=".toList, "p=".toList]

theorem apart_finalNames : ∀ name ∈ finalNames, Apart finalNames name := by
  have lengths : ∀ name ∈ finalNames, name.length = 2 := by decide
  intro name known
  refine apart_of_length known fun other member => ?_
  rw [lengths other member, lengths name known]

theorem parseScramClientFinal_eq_ok {message : Text} {final : ScramClientFinal} :
    parseScramClientFinal message = .ok final ↔
      (∃ after, rsplitOnceAt ",p=".toList message = some (final.withoutProof, after)) ∧
        AttributeOf message "c=".toList final.channelBinding ∧
        AttributeOf message "r=".toList final.nonce ∧
        AttributeOf message "p=".toList final.proof := by
  have apart := apart_finalNames
  simp only [finalNames, List.forall_mem_cons] at apart
  obtain ⟨binding, nonce, proof, -⟩ := apart
  rw [AttributeOf, AttributeOf, AttributeOf, ← scramAttribute_eq_some binding, ← scramAttribute_eq_some nonce,
    ← scramAttribute_eq_some proof, parseScramClientFinal]
  cases rsplitOnceAt ",p=".toList message with
  | none => simp
  | some parts =>
      obtain ⟨channelBinding, nonce, proof, signed⟩ := final
      obtain ⟨withoutProof, after⟩ := parts
      dsimp only [-String.reduceToList]
      generalize scramAttribute ["c=".toList, "r=".toList, "p=".toList] "c=".toList
        (splitOn ',' message) = foundBinding
      generalize scramAttribute ["c=".toList, "r=".toList, "p=".toList] "r=".toList
        (splitOn ',' message) = foundNonce
      generalize scramAttribute ["c=".toList, "r=".toList, "p=".toList] "p=".toList
        (splitOn ',' message) = foundProof
      rcases foundBinding with - | binding
      · simp
      · rcases foundNonce with - | nonce
        · simp
        · rcases foundProof with - | proof
          · simp
          · simp only [Except.ok.injEq, ScramClientFinal.mk.injEq, Option.some.injEq,
              Prod.mk.injEq]
            tauto

theorem splitOn_proof {message before after : Text}
    (cut : rsplitOnceAt ",p=".toList message = some (before, after)) :
    ∃ first later, splitOn ',' after = first :: later ∧
      splitOn ',' message = splitOn ',' before ++ ("p=".toList ++ first) :: later ∧
      ∀ part ∈ later, ¬"p=".toList <+: part := by
  obtain ⟨whole, alone⟩ := rsplitOnceAt_eq_some.mp cut
  obtain ⟨first, later, parts⟩ := List.exists_cons_of_ne_nil (splitOn_ne_nil ',' after)
  refine ⟨first, later, parts, ?_, ?_⟩
  · rw [whole]
    have named : splitOn ',' ("p=".toList ++ after) = ("p=".toList ++ first) :: later := by
      change splitOn ',' ('p' :: '=' :: after) = _
      rw [splitOn_cons_ne (by decide), splitOn_cons_ne (by decide), parts]
      rfl
    rw [← named]
    exact splitOn_cut ',' before ("p=".toList ++ after)
  · rintro part member ⟨rest, rfl⟩
    apply alone
    have follows := splitOn_follows parts member
    have starts : ",p=".toList <+: ',' :: ("p=".toList ++ rest) := List.prefix_append _ rest
    exact (starts.isInfix.trans follows).trans (List.suffix_append _ after).isInfix

def ProofLast (message : Text) : Prop :=
  ∃ proof, (splitOn ',' message).getLast? = some ("p=".toList ++ proof)

theorem proofLast_iff {message before after : Text}
    (cut : rsplitOnceAt ",p=".toList message = some (before, after)) :
    ProofLast message ↔ ',' ∉ after := by
  obtain ⟨first, later, parts, whole, unnamed⟩ := splitOn_proof cut
  constructor
  · rintro ⟨proof, ends⟩
    cases later with
    | nil =>
        have same := joinWith_splitOn ',' after
        rw [parts] at same
        rw [← same]
        have member : joinWith [','] [first] ∈ splitOn ',' after := by simp [parts, joinWith]
        exact splitOn_whole member
    | cons second others =>
        rw [whole, List.getLast?_append, List.getLast?_cons_cons] at ends
        have last : "p=".toList ++ proof ∈ second :: others := by
          apply List.mem_of_getLast?
          simpa [List.getLast?_cons] using ends
        exact absurd (List.prefix_append _ proof) (unnamed _ last)
  · intro plain
    rw [splitOn_unbroken plain] at parts
    cases parts
    exact ⟨after, by simp [whole]⟩

theorem lastNamed_unique {parts : List Text} {name first second : Text}
    (one : LastNamed parts name first) (other : LastNamed parts name second) : first = second := by
  have apart : Apart [name] name := apart_of_length List.mem_cons_self (by simp)
  rw [← scramAttribute_eq_some apart] at one other
  rw [one] at other
  exact Option.some.inj other

theorem parseScramClientFinal_signed {message : Text} {final : ScramClientFinal}
    (accepted : parseScramClientFinal message = .ok final) :
    AttributeOf final.withoutProof "r=".toList final.nonce ∧
        AttributeOf final.withoutProof "c=".toList final.channelBinding ∧
        rsplitOnceAt ",p=".toList message = some (final.withoutProof, final.proof) ↔
      ProofLast message := by
  obtain ⟨⟨after, cut⟩, binding, nonce, proof⟩ := parseScramClientFinal_eq_ok.mp accepted
  obtain ⟨first, later, parts, whole, unnamed⟩ := splitOn_proof cut
  have same : final.proof = first := lastNamed_unique proof ⟨_, later, whole, unnamed⟩
  rw [proofLast_iff cut]
  constructor
  · rintro ⟨-, -, agrees⟩
    rw [cut, Option.some.injEq, Prod.mk.injEq] at agrees
    rw [agrees.2, same]
    have member : first ∈ splitOn ',' after := by simp [parts]
    exact splitOn_whole member
  · intro plain
    rw [splitOn_unbroken plain] at parts
    cases parts
    rw [AttributeOf, whole] at binding nonce
    refine ⟨lastNamed_append (fun leads => ?_) nonce, lastNamed_append (fun leads => ?_) binding, ?_⟩
    · simp [List.cons_prefix_cons] at leads
    · simp [List.cons_prefix_cons] at leads
    · rw [cut, same]

theorem parseScramClientFinal_signed_ordinary :
    AttributeOf "c=biws,r=a".toList "r=".toList "a".toList ∧
        AttributeOf "c=biws,r=a".toList "c=".toList "biws".toList ∧
        rsplitOnceAt ",p=".toList "c=biws,r=a,p=x".toList =
          some ("c=biws,r=a".toList, "x".toList) ↔
      ProofLast "c=biws,r=a,p=x".toList :=
  parseScramClientFinal_signed (show parseScramClientFinal "c=biws,r=a,p=x".toList =
    .ok ⟨"biws".toList, "a".toList, "x".toList, "c=biws,r=a".toList⟩ by decide +kernel)

/-- The nonce returned is not the one in the text that is signed. -/
theorem parseScramClientFinal_unsigned :
    parseScramClientFinal "c=biws,r=a,p=x,r=b".toList =
        .ok ⟨"biws".toList, "b".toList, "x".toList, "c=biws,r=a".toList⟩ ∧
      ¬(AttributeOf "c=biws,r=a".toList "r=".toList "b".toList ∧
        AttributeOf "c=biws,r=a".toList "c=".toList "biws".toList ∧
        rsplitOnceAt ",p=".toList "c=biws,r=a,p=x,r=b".toList =
          some ("c=biws,r=a".toList, "x".toList)) := by
  refine ⟨by decide +kernel, ?_⟩
  rintro ⟨nonce, -, -⟩
  have signed : AttributeOf "c=biws,r=a".toList "r=".toList "a".toList :=
    ⟨["c=biws".toList], [], by decide, by simp⟩
  exact absurd (lastNamed_unique nonce signed) (by decide)

end Rusmes
