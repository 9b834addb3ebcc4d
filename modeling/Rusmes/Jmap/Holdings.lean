import Mathlib.Logic.Function.Basic
import Rusmes.Jmap.Email
import Rusmes.Library.Answers

/-!
A message store as the Email methods see it: the mail of each message, the mailboxes it is
filed in and its flags. A store answers truthfully when each of the calls made of it fails
and changes none of that, or does what its name says.
-/

namespace Rusmes

structure Holding where
  mail : Mail
  filed : MailboxId → Bool
  flags : MessageFlags

abbrev Holdings := MessageId → Option Holding

def Holding.filedAlso (holding : Holding) (mailboxes : List MailboxId) : Holding :=
  { holding with filed := fun id => holding.filed id || decide (id ∈ mailboxes) }

def Holdings.Files (holdings : Holdings) (messageId : MessageId) (mailbox : MailboxId) : Prop :=
  ∃ holding, holdings messageId = some holding ∧ holding.filed mailbox = true

def Holdings.change (holdings : Holdings) (messageId : MessageId)
    (make : Holding → Holding) : Holdings :=
  Function.update holdings messageId ((holdings messageId).map make)

open Effect WireText

structure Truthful {σ : Type} (store : MessageStore σ) (view : σ → Holdings) : Prop where
  append : ∀ mailbox mail, Answers view (store.appendMessage mailbox mail)
    fun before metadata after => before metadata.messageId = none ∧
      after = Function.update before metadata.messageId
        (some ⟨mail, fun id => decide (id = mailbox), .new⟩)
  copy : ∀ messageId dest, Answers view (store.copyMessages [messageId] dest)
    fun before _ after => after = before.change messageId (·.filedAlso [dest])
  flag : ∀ messageId flags, Answers view (store.setFlags [messageId] flags)
    fun before _ after => after = before.change messageId ({ · with flags })
  get : ∀ messageId, Answers view (store.getMessage messageId)
    fun before found after => found = (before messageId).map Holding.mail ∧ after = before
  list : ∀ mailbox, Answers view (store.getMailboxMessages mailbox)
    fun before listed after => after = before ∧
      (∀ messageId, (∃ entry ∈ listed, entry.messageId = messageId) ↔
        before.Files messageId mailbox) ∧
      ∀ entry ∈ listed, ∀ holding, before entry.messageId = some holding →
        entry.flags = holding.flags
  delete : ∀ messageId, Answers view (store.deleteMessages [messageId])
    fun before _ after => after = Function.update before messageId none

namespace Holdings

variable {holdings : Holdings} {messageId : MessageId} {holding : Holding}

theorem change_held (held : holdings messageId = some holding) (make : Holding → Holding) :
    holdings.change messageId make = Function.update holdings messageId (some (make holding)) := by
  rw [change, held, Option.map_some]

theorem change_absent (absent : holdings messageId = none) (make : Holding → Holding) :
    holdings.change messageId make = holdings := by
  rw [change, absent, Option.map_none, ← absent, Function.update_eq_self]

theorem files_iff (held : holdings messageId = some holding) (mailbox : MailboxId) :
    holdings.Files messageId mailbox ↔ holding.filed mailbox = true := by
  simp [Files, held]

theorem files_absent (absent : holdings messageId = none) (mailbox : MailboxId) :
    ¬holdings.Files messageId mailbox := by
  simp [Files, absent]

end Holdings

namespace Holding

theorem filedAlso_nil (holding : Holding) : holding.filedAlso [] = holding := by
  simp [filedAlso]

theorem filedAlso_append (holding : Holding) (first second : List MailboxId) :
    (holding.filedAlso first).filedAlso second = holding.filedAlso (first ++ second) := by
  simp [filedAlso, Bool.or_assoc]

theorem filedAlso_self {holding : Holding} {mailboxes : List MailboxId} :
    holding.filedAlso mailboxes = holding ↔ ∀ id ∈ mailboxes, holding.filed id = true := by
  constructor
  · intro same id member
    have there := congrFun (congrArg Holding.filed same) id
    rw [← there]
    simp [filedAlso, member]
  · intro inside
    have same : (fun id => holding.filed id || decide (id ∈ mailboxes)) = holding.filed := by
      funext id
      by_cases member : id ∈ mailboxes
      · simp [member, inside id member]
      · simp [member]
    rw [filedAlso, same]

end Holding

section Stored

variable {σ α : Type} {view : σ → Holdings} {meaning : Holdings → α → Holdings → Prop}
  {call : Effect Text σ α}

theorem stored_ok {world : JmapWorld σ} {value : α} {after : σ}
    (ran : call world.store = (.ok value, after)) :
    stored call world = (.ok value, { world with store := after }) := by
  rw [stored, ran]
  rfl

theorem stored_error {world : JmapWorld σ} {text : Text} {after : σ}
    (ran : call world.store = (.error text, after)) :
    stored call world = (.error (.message text), { world with store := after }) := by
  rw [stored, ran]
  rfl

theorem stored_either (answers : Answers view call meaning) (world : JmapWorld σ) :
    (∃ text after, call world.store = (.error text, after) ∧
      stored call world = (.error (.message text), { world with store := after }) ∧
      view after = view world.store) ∨
    ∃ value after, call world.store = (.ok value, after) ∧
      stored call world = (.ok value, { world with store := after }) ∧
      meaning (view world.store) value (view after) := by
  rcases answers.either world.store with ⟨text, after, ran, same⟩ | ⟨value, after, ran, done⟩
  · exact .inl ⟨text, after, ran, stored_error ran, same⟩
  · exact .inr ⟨value, after, ran, stored_ok ran, done⟩

end Stored

end Rusmes
