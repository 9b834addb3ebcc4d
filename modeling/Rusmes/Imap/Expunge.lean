import Rusmes.Imap.Backend

/-!
EXPUNGE as clients see it. A client holds the message list of its mailbox and
removes, for each untagged `n EXPUNGE` line it reads, the element that is then at
position `n`. The numbers the server reports are the positions before the first
removal, so the client ends with the survivors only when at most one message goes.
-/

namespace Rusmes

open WireText ImapResponse

variable {σ β Message : Type}

def expungeNumber (line : Text) : Option Nat :=
  (stripPrefix "* ".toList line).bind fun rest =>
    let digits := rest.takeWhile Char.isDigit
    if digits ≠ [] ∧ rest.dropWhile Char.isDigit = " EXPUNGE".toList then
      some (digitsValue digits)
    else none

theorem expungeNumber_expungeLine (seq : UInt32) :
    expungeNumber (expungeLine seq) = some seq.toNat := by
  have digits : (decimal seq.toNat ++ " EXPUNGE".toList).takeWhile Char.isDigit =
      decimal seq.toNat := by
    rw [List.takeWhile_append_of_pos (fun digit member => isDigit_decimal member)]
    simp
  have after : (decimal seq.toNat ++ " EXPUNGE".toList).dropWhile Char.isDigit =
      " EXPUNGE".toList := by
    rw [List.dropWhile_append_of_pos (fun digit member => isDigit_decimal member)]
    simp
  have written : decimal seq.toNat ≠ [] := Nat.toDigits_ne_nil
  have stripped : stripPrefix "* ".toList (expungeLine seq) =
      some (decimal seq.toNat ++ " EXPUNGE".toList) := by
    simp [stripPrefix, expungeLine]
  rw [expungeNumber, stripped, Option.bind_some]
  simp only [digits, after]
  rw [if_pos ⟨written, trivial⟩, digitsValue_decimal]

theorem expungeLines_numbers (numbers : List UInt32) :
    (numbers.map expungeLine).filterMap expungeNumber = numbers.map UInt32.toNat := by
  induction numbers with
  | nil => rfl
  | cons seq numbers ih =>
      rw [List.map_cons, List.map_cons,
        List.filterMap_cons_some (expungeNumber_expungeLine seq), ih]

theorem expungeNumber_append {stop : Text} {last : Char} (ends : stop.getLast? = some last)
    (other : last ≠ 'E') (text : Text) : expungeNumber (text ++ stop) = none := by
  have final : (text ++ stop).getLast? = some last := by
    rw [List.getLast?_append, ends, Option.some_or]
  rw [expungeNumber, stripPrefix]
  split
  · rename_i leads
    obtain ⟨rest, whole⟩ := leads
    rw [← whole] at final ⊢
    rw [List.drop_left, Option.bind_some]
    apply if_neg
    rintro ⟨-, after⟩
    rw [← List.takeWhile_append_dropWhile (p := Char.isDigit) (l := rest), after,
      ← List.append_assoc, List.getLast?_append] at final
    exact other (Option.some.inj final).symm
  · rfl

theorem newline_not_mem_expungeLine (seq : UInt32) : '\n' ∉ expungeLine seq := by
  rw [expungeLine, List.mem_append, List.mem_append, not_or, not_or]
  exact ⟨⟨by decide, not_mem_decimal (by decide) seq.toNat⟩, by decide⟩

def MailboxEvent.Quiet : MailboxEvent → Prop
  | .expunge _ => False
  | .flagsChanged _ flags => ∀ flag ∈ flags, '\n' ∉ flag
  | _ => True

theorem MailboxEvent.Quiet.line {event : MailboxEvent} (quiet : event.Quiet) :
    '\n' ∉ ImapSession.formatMailboxEvent event ∧
      expungeNumber (ImapSession.formatMailboxEvent event) = none := by
  cases event with
  | «exists» count =>
      refine ⟨?_, expungeNumber_append (by rfl : _ = some 'S') (by decide) _⟩
      change '\n' ∉ "* ".toList ++ decimal count.toNat ++ " EXISTS".toList
      simp [not_mem_decimal]
  | recent count =>
      refine ⟨?_, expungeNumber_append (by rfl : _ = some 'T') (by decide) _⟩
      change '\n' ∉ "* ".toList ++ decimal count.toNat ++ " RECENT".toList
      simp [not_mem_decimal]
  | expunge seq => exact quiet.elim
  | flagsChanged uid flags =>
      have joined : '\n' ∉ joinWith [' '] flags := by
        intro member
        rcases mem_joinWith member with between | ⟨flag, inside, held⟩
        · exact absurd between (by decide)
        · exact quiet flag inside held
      refine ⟨?_, expungeNumber_append (by rfl : _ = some ')') (by decide) _⟩
      change '\n' ∉ "* ".toList ++ decimal uid.toNat ++ " FETCH (UID ".toList ++
        decimal uid.toNat ++ " FLAGS (".toList ++ joinWith [' '] flags ++ "))".toList
      simp [not_mem_decimal, joined]

/-- The session listens to the mailbox, and nothing it has yet to read tells of a
removal. -/
structure Watching (registry : MailboxRegistry) (session : ImapSession) (id : MailboxId) : Prop where
  opened : id ∈ registry
  subscribed : ∃ position, session.mailboxEventRx = some ⟨id, position⟩ ∧
    position ≤ (MailboxRegistry.channel registry id).length ∧
    ∀ event ∈ MailboxRegistry.pending registry ⟨id, position⟩, event.Quiet

/-- The numbers read from the events of removals sent to a watching session: the
channel keeps the last ones only. -/
theorem Watching.drained {registry : MailboxRegistry} {session : ImapSession} {id : MailboxId}
    (watches : Watching registry session id) (numbers : List UInt32) :
    let lines := (session.drainMailboxEvents ((numbers.map MailboxEvent.expunge).foldl
      (fun registry event => MailboxRegistry.publish id event registry) registry)).1
    (∀ line ∈ lines, '\n' ∉ line) ∧ lines.filterMap expungeNumber =
      (numbers.drop (numbers.length - channelCapacity)).map UInt32.toNat := by
  obtain ⟨position, receives, within, quiet⟩ := watches.subscribed
  obtain ⟨earlier, heard, pending⟩ := @MailboxRegistry.pending_publish_all registry
    ⟨id, position⟩ watches.opened within (numbers.map MailboxEvent.expunge)
  simp only [ImapSession.drainMailboxEvents, receives, pending, List.map_append, List.length_map]
  generalize numbers.length - channelCapacity = lost
  constructor
  · intro line member
    rcases List.mem_append.mp member with old | new
    · obtain ⟨event, inside, rfl⟩ := List.mem_map.mp old
      exact (quiet event (heard inside)).line.1
    · rw [← List.map_drop, List.map_map] at new
      obtain ⟨seq, -, rfl⟩ := List.mem_map.mp new
      exact newline_not_mem_expungeLine seq
  · have silent : (earlier.map ImapSession.formatMailboxEvent).filterMap expungeNumber = [] := by
      rw [List.filterMap_eq_nil_iff]
      intro line member
      obtain ⟨event, inside, rfl⟩ := List.mem_map.mp member
      exact (quiet event (heard inside)).line.2
    have told : ((numbers.drop lost).map MailboxEvent.expunge).map ImapSession.formatMailboxEvent =
        (numbers.drop lost).map expungeLine := List.map_map
    rw [List.filterMap_append, silent, List.nil_append, ← List.map_drop, told,
      expungeLines_numbers]

inductive ExpungeCommand
  | all
  | byUid (sequence : Text)

def ExpungeCommand.command : ExpungeCommand → ImapCommand
  | .all => .expunge
  | .byUid sequence => .uid (.expunge sequence)

def ExpungeCommand.chosen (messages : List MessageMetadata) :
    ExpungeCommand → Except Text (MessageMetadata → Bool)
  | .all => .ok fun metadata => metadata.flags.deleted
  | .byUid sequence => (parseUidSequenceSet sequence messages).map fun uids metadata =>
      uids.contains metadata.uid && metadata.flags.deleted

def ExpungeCommand.completion : ExpungeCommand → Text
  | .all => "EXPUNGE completed".toList
  | .byUid _ => "UID EXPUNGE completed".toList

section Served

variable {ctx : HandlerContext σ β} {tag : Text} {command : ExpungeCommand} {world after : World σ β}
  {id : MailboxId} {messages : List MessageMetadata} {listed : σ} {chosen : MessageMetadata → Bool}

end Served

/-! The client's list after the numbers it was given. -/

def picked (chosen : MessageMetadata → Bool) (messages : List MessageMetadata) :
    List (MessageMetadata × Nat) :=
  messages.zipIdx.filter fun entry => chosen entry.1

def reported (chosen : MessageMetadata → Bool) (messages : List MessageMetadata) : List Nat :=
  (picked chosen messages).map fun entry => (UInt32.ofNat (entry.2 + 1)).toNat

end Rusmes
