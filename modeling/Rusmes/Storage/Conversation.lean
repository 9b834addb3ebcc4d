import Rusmes.Storage.Threading

/-!
Conversations: mails that name only each other, held together by their parents or by one
subject. From the first delivery on, all of them are filed under one thread.
-/

namespace Rusmes

open WireText

variable {letters : CaseMapping} {digest : Text → Text}

structure Conversation (letters : CaseMapping) (mails : List Mail) : Prop where
  distinct : (mails.map fun mail => mail.rfcMessageId letters).Nodup
  closed : ∀ mail ∈ mails, ∀ reference ∈ mail.references letters,
    reference ≠ mail.rfcMessageId letters ∧
      ∃ other ∈ mails, other.rfcMessageId letters = reference

def ParentsFirst (letters : CaseMapping) (mails : List Mail) : Prop :=
  ∃ root ∈ mails, ∀ before mail after, mails = before ++ mail :: after → mail ≠ root →
    ∃ parent ∈ before, parent.rfcMessageId letters ∈ mail.references letters

def OneSubject (letters : CaseMapping) (mails : List Mail) : Prop :=
  ∃ subject, subject ≠ [] ∧ ∀ mail ∈ mails, mail.normalizedSubject letters = subject

def NamedUnknown (letters : CaseMapping) (index : ThreadIndex) (mails : List Mail) : Prop :=
  ∀ before mail after, mails = before ++ mail :: after → ∀ later ∈ after,
    later.rfcMessageId letters ∈ mail.references letters →
      index.lookup (later.rfcMessageId letters) = none

/-- The index after some deliveries to a thread: it holds what it held at first, the thread
for each delivered mail, and the thread for the subject they share, if they share one. -/
structure Filed (letters : CaseMapping) (first : ThreadIndex) (shared : Option Text)
    (delivered : List Mail) (thread : Text) (index : ThreadIndex) : Prop where
  ids : ∀ mail ∈ delivered, index.lookup (mail.rfcMessageId letters) = some thread
  subject : ∀ key, shared = some key → index.lookup key = some thread
  kept : ∀ key other, index.lookup key = some other →
    other = thread ∨ first.lookup key = some other

theorem filed_first {first : ThreadIndex} {shared : Option Text} {mail : Mail}
    (unknown : ∀ reference ∈ mail.references letters, first.lookup reference = none)
    (subject : ∀ key, shared = some key → mail.subjectKey letters = some key) :
    Filed letters first shared [mail] (assignThreadId letters digest first mail).1
      (assignThreadId letters digest first mail).2 := by
  refine ⟨?_, ?_, ?_⟩
  · intro other member
    rw [List.mem_singleton.mp member, lookup_assignThreadId, if_pos (Or.inl rfl)]
  · intro key same
    have owned := subject key same
    rw [lookup_assignThreadId]
    split
    · rfl
    · rename_i other
      rw [not_or, not_and] at other
      rcases assignThreadId_cases letters digest first mail with chain | ⟨-, found | fresh⟩
      · obtain ⟨reference, member, held⟩ := chain
        rw [unknown reference member] at held
        cases held
      · obtain ⟨looked, matched, held⟩ := found
        rw [owned] at matched
        rw [Option.some.inj matched, held]
      · exact absurd (fresh.1 key owned) (other.2 owned)
  · intro key other held
    rw [lookup_assignThreadId] at held
    split at held
    · exact Or.inl (Option.some.inj held).symm
    · exact Or.inr held

theorem Filed.next {first : ThreadIndex} {shared : Option Text} {delivered : List Mail}
    {thread : Text} {index : ThreadIndex}
    (filed : Filed letters first shared delivered thread index) {mail : Mail}
    (named : ∀ reference ∈ mail.references letters,
      (∃ other ∈ delivered, other.rfcMessageId letters = reference) ∨ first.lookup reference = none)
    (joins : (∃ parent ∈ delivered, parent.rfcMessageId letters ∈ mail.references letters) ∨
      ∃ key, shared = some key ∧ mail.subjectKey letters = some key) :
    (assignThreadId letters digest index mail).1 = thread ∧
      Filed letters first shared (delivered ++ [mail]) thread
        (assignThreadId letters digest index mail).2 := by
  have given : (assignThreadId letters digest index mail).1 = thread := by
    rcases assignThreadId_cases letters digest index mail with chain | ⟨none, found | fresh⟩
    · obtain ⟨reference, member, held⟩ := chain
      rcases named reference member with ⟨other, before, same⟩ | unknown
      · rw [← same, filed.ids other before] at held
        exact (Option.some.inj held).symm
      · exact (filed.kept _ _ held).resolve_right (by simp [unknown])
    · obtain ⟨key, owned, held⟩ := found
      rcases joins with ⟨parent, before, member⟩ | ⟨joint, same, subject⟩
      · have absent := none _ member
        rw [filed.ids parent before] at absent
        cases absent
      · rw [owned, Option.some.injEq] at subject
        rw [subject, filed.subject joint same] at held
        exact (Option.some.inj held).symm
    · rcases joins with ⟨parent, before, member⟩ | ⟨joint, same, subject⟩
      · have absent := none _ member
        rw [filed.ids parent before] at absent
        cases absent
      · have absent := fresh.1 joint subject
        rw [filed.subject joint same] at absent
        cases absent
  refine ⟨given, ?_, ?_, ?_⟩
  · intro other member
    rw [lookup_assignThreadId, given]
    split
    · rfl
    · rename_i different
      rcases List.mem_append.mp member with before | last
      · exact filed.ids other before
      · rw [List.mem_singleton.mp last] at different
        exact absurd (Or.inl rfl) different
  · intro key same
    rw [lookup_assignThreadId, given, filed.subject key same]
    split
    · rfl
    · rfl
  · intro key other held
    rw [lookup_assignThreadId, given] at held
    split at held
    · exact Or.inl (Option.some.inj held).symm
    · exact filed.kept key other held

/-! Whole conversations. -/

section Run

variable {first : ThreadIndex} {shared : Option Text} {mails : List Mail}

theorem references_delivered (conversation : Conversation letters mails)
    (unknown : NamedUnknown letters first mails) {before after : List Mail} {mail : Mail}
    (split : mails = before ++ mail :: after) :
    ∀ reference ∈ mail.references letters,
      (∃ other ∈ before, other.rfcMessageId letters = reference) ∨ first.lookup reference = none := by
  intro reference member
  have inside : mail ∈ mails := by simp [split]
  obtain ⟨different, other, among, same⟩ := conversation.closed mail inside reference member
  rw [split] at among
  rcases List.mem_append.mp among with earlier | later
  · exact Or.inl ⟨other, earlier, same⟩
  · right
    rcases List.mem_cons.mp later with itself | behind
    · rw [itself] at same
      exact absurd same.symm different
    · rw [← same] at member ⊢
      exact unknown before mail after split other behind member

theorem assignAll_filed (conversation : Conversation letters mails)
    (unknown : NamedUnknown letters first mails)
    (joins : ∀ before mail after, mails = before ++ mail :: after → before ≠ [] →
      (∃ parent ∈ before, parent.rfcMessageId letters ∈ mail.references letters) ∨
        ∃ key, shared = some key ∧ mail.subjectKey letters = some key)
    {before rest : List Mail} (split : mails = before ++ rest) (started : before ≠ [])
    {thread : Text} {index : ThreadIndex}
    (filed : Filed letters first shared before thread index) :
    ∀ given ∈ (assignAll letters digest index rest).1, given = thread := by
  induction rest generalizing before index with
  | nil =>
      intro given member
      cases member
  | cons mail rest ih =>
      have named := references_delivered conversation unknown split
      obtain ⟨same, next⟩ :=
        @Filed.next letters digest first shared before thread index filed mail named
          (joins before mail rest split started)
      intro given member
      rw [assignAll] at member
      rcases List.mem_cons.mp member with rfl | later
      · exact same
      · exact ih (by simp [split]) (by simp) next given later

/-- A conversation gets one thread, unless the index already knows a mail of it that is
named before it is delivered. -/
theorem conversation_one_thread (index : ThreadIndex)
    (conversation : Conversation letters mails)
    (held : ParentsFirst letters mails ∨ OneSubject letters mails)
    (unknown : NamedUnknown letters index mails) :
    ∃ thread, ∀ given ∈ (assignAll letters digest index mails).1, given = thread := by
  obtain ⟨shared, subjects, joins⟩ : ∃ shared : Option Text,
      (∀ mail ∈ mails, ∀ key, shared = some key → mail.subjectKey letters = some key) ∧
      ∀ before mail after, mails = before ++ mail :: after → before ≠ [] →
        (∃ parent ∈ before, parent.rfcMessageId letters ∈ mail.references letters) ∨
          ∃ key, shared = some key ∧ mail.subjectKey letters = some key := by
    rcases held with ⟨root, among, parents⟩ | ⟨subject, full, all⟩
    · refine ⟨none, by simp, ?_⟩
      intro before mail after split started
      by_cases top : mail = root
      · obtain ⟨head, earlier, shape⟩ := List.exists_cons_of_ne_nil started
        rw [shape, List.cons_append] at split
        by_cases other : head = root
        · have distinct := conversation.distinct
          rw [split, top, other, List.map_cons, List.nodup_cons] at distinct
          exact absurd (List.mem_map_of_mem (by simp)) distinct.1
        · obtain ⟨parent, none, -⟩ := parents [] head (earlier ++ mail :: after) split other
          cases none
      · exact Or.inl (parents before mail after split top)
    · have keys : ∀ mail ∈ mails, mail.subjectKey letters = some (subjectKey subject) := by
        intro mail member
        simp [Mail.subjectKey, all mail member, full]
      refine ⟨some (subjectKey subject), ?_, ?_⟩
      · intro mail member key same
        rw [← same, keys mail member]
      · intro before mail after split _
        exact Or.inr ⟨_, rfl, keys mail (by simp [split])⟩
  cases mails with
  | nil => exact ⟨[], by simp [assignAll]⟩
  | cons mail rest =>
      refine ⟨(assignThreadId letters digest index mail).1, ?_⟩
      have named := references_delivered conversation unknown (List.nil_append (mail :: rest)).symm
      have filed := @filed_first letters digest index shared mail
        (fun reference member => (named reference member).resolve_left (by simp))
        (subjects mail List.mem_cons_self)
      intro given member
      rw [assignAll] at member
      rcases List.mem_cons.mp member with rfl | later
      · rfl
      · exact assignAll_filed conversation unknown joins List.singleton_append.symm (by simp) filed
          given later

end Run

def forwardConversation : List Mail :=
  [received 1 "Message-ID: <a>\r\n\r\n",
    received 2 "Message-ID: <b>\r\nReferences: <c> <a>\r\n\r\n",
    received 3 "Message-ID: <c>\r\nIn-Reply-To: <a>\r\n\r\n"]

theorem forwardConversation_ids :
    forwardConversation.map (fun mail => mail.rfcMessageId asciiCase) =
        ["a".toList, "b".toList, "c".toList] ∧
      forwardConversation.map (fun mail => mail.references asciiCase) =
        [[], ["c".toList, "a".toList], ["a".toList]] := by
  decide +kernel

theorem forwardConversation_conversation : Conversation asciiCase forwardConversation := by
  obtain ⟨ids, references⟩ := forwardConversation_ids
  simp only [forwardConversation, List.map_cons, List.map_nil, List.cons.injEq, and_true]
    at ids references
  constructor
  · simp [forwardConversation, ids]
  · simp [forwardConversation, ids, references]

theorem forwardConversation_parentsFirst : ParentsFirst asciiCase forwardConversation := by
  obtain ⟨ids, references⟩ := forwardConversation_ids
  simp only [forwardConversation, List.map_cons, List.map_nil, List.cons.injEq, and_true]
    at ids references
  refine ⟨received 1 "Message-ID: <a>\r\n\r\n", List.mem_cons_self, ?_⟩
  intro before mail after split other
  rcases before with _ | ⟨first, _ | ⟨second, _ | ⟨third, before⟩⟩⟩
  · rw [forwardConversation, List.nil_append, List.cons.injEq] at split
    exact absurd split.1.symm other
  · simp only [forwardConversation, List.cons_append, List.nil_append, List.cons.injEq] at split
    refine ⟨first, List.mem_cons_self, ?_⟩
    rw [← split.1, ← split.2.1, ids.1, references.2.1]
    simp
  · simp only [forwardConversation, List.cons_append, List.nil_append, List.cons.injEq] at split
    refine ⟨first, List.mem_cons_self, ?_⟩
    rw [← split.1, ← split.2.2.1, ids.1, references.2.2]
    simp
  · have sizes := congrArg List.length split
    simp [forwardConversation] at sizes

theorem forwardConversation_parted :
    Conversation asciiCase forwardConversation ∧ ParentsFirst asciiCase forwardConversation ∧
      ¬∃ thread, ∀ given ∈ (assignAll asciiCase id (AList.singleton "c".toList "old".toList)
        forwardConversation).1, given = thread := by
  refine ⟨forwardConversation_conversation, forwardConversation_parentsFirst, ?_⟩
  have given : (assignAll asciiCase id (AList.singleton "c".toList "old".toList)
      forwardConversation).1 = ["a".toList, "old".toList, "a".toList] := by
    decide +kernel
  rintro ⟨thread, same⟩
  rw [given] at same
  have first := same "a".toList (by simp)
  have second := same "old".toList (by simp)
  rw [← first] at second
  simp at second

theorem forwardConversation_fresh :
    ∃ thread, ∀ given ∈ (assignAll asciiCase id ∅ forwardConversation).1, given = thread :=
  conversation_one_thread ∅ forwardConversation_conversation
    (Or.inl forwardConversation_parentsFirst) fun _ _ _ _ _ _ _ => rfl

end Rusmes
