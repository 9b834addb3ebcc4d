import Rusmes.Library.Table
import Rusmes.Proto.Restored

/-!
The thread index of a mailbox, as `threading.rs` keeps it. One map holds the threads of
message identifiers and, under keys with a prefix, those of normalised subjects. The digest
that names a new thread is a parameter.
-/

namespace Rusmes

open WireText

abbrev ThreadIndex := Table Text Text

def stripAngleBrackets (text : Text) : Text :=
  let trimmed := trim text
  if trimmed.head? = some '<' ∧ trimmed.getLast? = some '>' then trimmed.tail.dropLast
  else trimmed

def separatesIds (character : Char) : Bool :=
  character ∈ [' ', ',', '\t', '\n', '\r']

def parseMessageIdList (value : Text) : List Text :=
  ((value.splitOnP separatesIds).map stripAngleBrackets).filter (· ≠ [])

def stripReplyPrefix (subject mark : Text) : Text :=
  if mark <+: subject then trimStart (subject.drop mark.length) else subject

def stripTag (subject : Text) : Text :=
  if subject.head? = some '[' ∧ ']' ∈ subject then
    trimStart (subject.dropWhile (· ≠ ']')).tail
  else subject

def stripSubject (subject : Text) : Text :=
  stripTag (["re:".toList, "fwd:".toList, "fw:".toList].foldl stripReplyPrefix subject)

/-- The loop; every turn that changes the subject makes it shorter. -/
def stripSubjectFrom : Nat → Text → Text
  | 0, subject => subject
  | turns + 1, subject =>
      let stripped := stripSubject subject
      if stripped = subject then subject else stripSubjectFrom turns stripped

def normalizeSubject (letters : CaseMapping) (subject : Text) : Text :=
  let folded := letters.toLowercase (trim subject)
  stripSubjectFrom folded.length folded

def Mail.firstHeader (letters : CaseMapping) (mail : Mail) (name : String) : Option Text :=
  mail.message.headers.getFirst letters name.toList

/-- The `Message-ID` of the mail without its brackets, if it has one. -/
def Mail.statedId (letters : CaseMapping) (mail : Mail) : Option Text :=
  (mail.firstHeader letters "message-id").map stripAngleBrackets

def Mail.rfcMessageId (letters : CaseMapping) (mail : Mail) : Text :=
  (mail.statedId letters).getD ("uuid:".toList ++ mail.messageId.display)

def Mail.references (letters : CaseMapping) (mail : Mail) : List Text :=
  let named (name : String) := ((mail.firstHeader letters name).map parseMessageIdList).getD []
  (named "references" ++ named "in-reply-to").eraseDups

def Mail.normalizedSubject (letters : CaseMapping) (mail : Mail) : Text :=
  ((mail.firstHeader letters "subject").map (normalizeSubject letters)).getD []

def subjectKey (subject : Text) : Text := "subj:".toList ++ subject

def Mail.subjectKey (letters : CaseMapping) (mail : Mail) : Option Text :=
  let subject := mail.normalizedSubject letters
  if subject = [] then none else some (Rusmes.subjectKey subject)

def ThreadIndex.own (index : ThreadIndex) (key thread : Text) : ThreadIndex :=
  if (index.lookup key).isSome then index else index.insert key thread

def ThreadIndex.find (letters : CaseMapping) (index : ThreadIndex) (mail : Mail) : Option Text :=
  ((mail.references letters).findSome? fun reference => index.lookup reference).or
    ((mail.subjectKey letters).bind fun key => index.lookup key)

def assignThreadId (letters : CaseMapping) (digest : Text → Text) (index : ThreadIndex)
    (mail : Mail) : Text × ThreadIndex :=
  let thread := (index.find letters mail).getD (digest (mail.rfcMessageId letters))
  let named : ThreadIndex := index.insert (mail.rfcMessageId letters) thread
  (thread, ((mail.subjectKey letters).map fun key => named.own key thread).getD named)

def ThreadIndex.getThreadId (index : ThreadIndex) (messageId : Text) : Option Text :=
  index.lookup (stripAngleBrackets messageId)

def assignAll (letters : CaseMapping) (digest : Text → Text) :
    ThreadIndex → List Mail → List Text × ThreadIndex
  | index, [] => ([], index)
  | index, mail :: mails =>
      let given := assignThreadId letters digest index mail
      let later := assignAll letters digest given.2 mails
      (given.1 :: later.1, later.2)

theorem stripReplyPrefix_suffix (subject mark : Text) : stripReplyPrefix subject mark <:+ subject := by
  rw [stripReplyPrefix]
  split
  · exact (trimStart_suffix _).trans (List.drop_suffix _ _)
  · exact List.suffix_refl _

theorem stripSubject_suffix (subject : Text) : stripSubject subject <:+ subject := by
  have marks : ∀ marks : List Text, marks.foldl stripReplyPrefix subject <:+ subject := by
    intro marks
    induction marks using List.reverseRecOn with
    | nil => exact List.suffix_refl _
    | append_singleton marks mark ih =>
        rw [List.foldl_append]
        exact (stripReplyPrefix_suffix _ mark).trans ih
  rw [stripSubject, stripTag]
  split
  · exact ((trimStart_suffix _).trans (List.tail_suffix _)).trans
      ((List.dropWhile_suffix _).trans (marks _))
  · exact marks _

theorem stripSubjectFrom_stable {turns : Nat} {subject : Text} (enough : subject.length ≤ turns) :
    stripSubject (stripSubjectFrom turns subject) = stripSubjectFrom turns subject := by
  induction turns generalizing subject with
  | zero =>
      have empty : subject = [] := List.length_eq_zero_iff.mp (Nat.le_zero.mp enough)
      rw [empty]
      decide
  | succ turns ih =>
      simp only [stripSubjectFrom]
      by_cases same : stripSubject subject = subject
      · rw [if_pos same, same]
      · have suffix := stripSubject_suffix subject
        have other : (stripSubject subject).length ≠ subject.length :=
          fun equal => same (suffix.eq_of_length equal)
        have shorter := suffix.length_le
        rw [if_neg same]
        exact ih (by omega)

theorem normalizeSubject_stable (letters : CaseMapping) (subject : Text) :
    stripSubject (normalizeSubject letters subject) = normalizeSubject letters subject :=
  stripSubjectFrom_stable (Nat.le_refl _)

section Step

variable (letters : CaseMapping) (digest : Text → Text) (index : ThreadIndex) (mail : Mail)

theorem lookup_own (key thread other : Text) :
    (index.own key thread).lookup other =
      if other = key ∧ index.lookup key = none then some thread else index.lookup other := by
  rw [ThreadIndex.own]
  cases held : index.lookup key with
  | some old => simp
  | none =>
      by_cases same : other = key
      · subst same
        simp
      · simp [same, AList.lookup_insert_ne]

theorem lookup_assignThreadId (key : Text) :
    (assignThreadId letters digest index mail).2.lookup key =
      if key = mail.rfcMessageId letters ∨
        (mail.subjectKey letters = some key ∧ index.lookup key = none) then
        some (assignThreadId letters digest index mail).1
      else index.lookup key := by
  rw [assignThreadId]
  dsimp only
  cases subject : mail.subjectKey letters with
  | none =>
      by_cases same : key = mail.rfcMessageId letters
      · subst same
        simp
      · simp [same, AList.lookup_insert_ne]
  | some owned =>
      rw [Option.map_some, Option.getD_some, lookup_own]
      by_cases same : key = mail.rfcMessageId letters
      · subst same
        simp
      · by_cases claimed : key = owned
        · subst claimed
          simp [same, AList.lookup_insert_ne]
        · simp [same, claimed, Ne.symm claimed, AList.lookup_insert_ne]

theorem assignThreadId_cases :
    (∃ reference ∈ mail.references letters,
      index.lookup reference = some (assignThreadId letters digest index mail).1) ∨
    (∀ reference ∈ mail.references letters, index.lookup reference = none) ∧
      ((∃ key, mail.subjectKey letters = some key ∧
        index.lookup key = some (assignThreadId letters digest index mail).1) ∨
      (∀ key, mail.subjectKey letters = some key → index.lookup key = none) ∧
        (assignThreadId letters digest index mail).1 = digest (mail.rfcMessageId letters)) := by
  rw [assignThreadId, ThreadIndex.find]
  dsimp only
  cases chain : (mail.references letters).findSome? fun reference => index.lookup reference with
  | some thread =>
      obtain ⟨reference, member, held⟩ := List.exists_of_findSome?_eq_some chain
      exact Or.inl ⟨reference, member, held⟩
  | none =>
      refine Or.inr ⟨List.findSome?_eq_none_iff.mp chain, ?_⟩
      cases subject : mail.subjectKey letters with
      | none =>
          refine Or.inr ⟨?_, rfl⟩
          intro key none
          cases none
      | some key =>
          cases held : index.lookup key with
          | some thread => exact Or.inl ⟨key, rfl, by simp [held]⟩
          | none =>
              refine Or.inr ⟨?_, by simp [held]⟩
              intro other same
              rw [← Option.some.inj same, held]

end Step

def received (number : Nat) (text : String) : Mail :=
  { noteFromAlice [] with messageId := ⟨BitVec.ofNat 128 number⟩ }.reading asciiCase
    (encodeUtf8 text.toList)

end Rusmes
