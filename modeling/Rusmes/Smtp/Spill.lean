import Rusmes.Smtp.Transparency

/-!
Where a message is kept does not show. A receiver that knows no threshold and keeps the
octets of a message and nothing else gives the answer of the one with the hybrid sink, as
long as temporary files work and leave the stream to the client alone.
-/

namespace Rusmes

open WireText Machine

variable {σ : Type}

inductive Taken
  | complete (octets : Octets) (messageSize : Nat)
  | tooLarge
  | failed (error : Text)
  deriving DecidableEq, Repr

def Verdict.taken : Verdict → Taken
  | .complete sink messageSize => .complete sink.octets messageSize
  | .tooLarge => .tooLarge
  | .failed error => .failed error

/-- The receiver with nothing but the octets. -/
def takeMessage (maxMessageSize : Nat) : List Octets → Octets → Nat → Taken × Octets
  | [], _, _ => (.failed "Unexpected EOF during DATA".toList, [])
  | line :: rest, octets, total =>
      match decodeUtf8 line with
      | none => (.failed "stream did not contain valid UTF-8".toList, rest.flatten)
      | some text =>
          if trim text = ['.'] then (.complete octets total, rest.flatten)
          else
            let newTotal := saturatingAdd total (unstuffOctets line).length
            if newTotal > maxMessageSize then (.tooLarge, rest.flatten)
            else takeMessage maxMessageSize rest (octets ++ unstuffOctets line) newTotal

def messageLines (lines : List Octets) : List Octets :=
  lines.takeWhile fun line => (decodeUtf8 line).map trim ≠ some ['.']

theorem totalSize_eq {total : Nat} (bounded : total ≤ usizeBound - 1) (chunks : List Octets) :
    totalSize total chunks = saturatingAdd total chunks.flatten.length := by
  induction chunks generalizing total with
  | nil =>
      simp only [totalSize, saturatingAdd, List.foldl_nil, List.flatten_nil, List.length_nil]
      omega
  | cons chunk rest ih =>
      have later := ih (saturatingAdd_le total chunk.length)
      simp only [totalSize, List.foldl_cons, List.flatten_cons, List.length_append] at later ⊢
      rw [later]
      simp only [saturatingAdd]
      omega

theorem takeMessage_complete {maxMessageSize total messageSize : Nat} {lines : List Octets}
    {octets whole rest : Octets} (within : total ≤ maxMessageSize)
    (taken : takeMessage maxMessageSize lines octets total = (.complete whole messageSize, rest)) :
    whole = octets ++ ((messageLines lines).map unstuffOctets).flatten ∧
      messageSize = totalSize total ((messageLines lines).map unstuffOctets) ∧
      messageSize ≤ maxMessageSize := by
  induction lines generalizing octets total with
  | nil => cases taken
  | cons line lines ih =>
      simp only [takeMessage] at taken
      cases decoded : decodeUtf8 line with
      | none =>
          rw [decoded] at taken
          cases taken
      | some text =>
          rw [decoded] at taken
          by_cases dot : trim text = ['.']
          · have last : messageLines (line :: lines) = [] := by
              simp [messageLines, decoded, dot]
            simp only [dot, if_true] at taken
            cases taken
            rw [last]
            exact ⟨by simp, rfl, within⟩
          · have more : messageLines (line :: lines) = line :: messageLines lines := by
              simp [messageLines, decoded, dot]
            simp only [dot, if_false] at taken
            split at taken
            · cases taken
            · rename_i small
              obtain ⟨same, size, bound⟩ := ih (Nat.le_of_not_gt small) taken
              rw [more]
              refine ⟨?_, size, bound⟩
              rw [same]
              simp

def Unseen (env : SmtpEnv σ) (before after : σ) : Prop :=
  ∀ octets, (env.send octets after).1 = (env.send octets before).1

theorem Unseen.rfl {env : SmtpEnv σ} {world : σ} : Unseen env world world :=
  fun _ => Eq.refl _

theorem Unseen.trans {env : SmtpEnv σ} {first second third : σ} (before : Unseen env first second)
    (after : Unseen env second third) : Unseen env first third :=
  fun octets => (after octets).trans (before octets)

section Apart

variable {env : SmtpEnv σ}
  (apart : ∀ operation world octets,
    (env.send octets (env.tempfile operation world).2).1 = (env.send octets world).1)

include apart

theorem tempfile_unseen {operation : TempfileOperation} {world next : σ} {result : Except Text Unit}
    (done : env.tempfile operation world = (result, next)) : Unseen env world next := by
  intro octets
  have same := apart operation world octets
  rwa [done] at same

theorem writeTempfile_unseen (failure : Text) (contents octets : Octets) (world : σ) :
    Unseen env world (writeTempfile env failure contents octets world).2 := by
  simp only [writeTempfile]
  split
  · rename_i failed
    exact tempfile_unseen apart failed
  · rename_i wrote
    exact tempfile_unseen apart wrote

theorem spill_unseen (config : SmtpConfig) (memBuf : Octets) (world : σ) :
    Unseen env world (spill env config memBuf world).2 := by
  simp only [spill]
  split
  · rename_i failed
    exact tempfile_unseen apart failed
  · rename_i created
    exact (tempfile_unseen apart created).trans (writeTempfile_unseen apart _ _ _ _)

theorem storeChunk_unseen (config : SmtpConfig) (sink : Sink) (chunk : Octets) (world : σ) :
    Unseen env world (storeChunk env config sink chunk world).2 := by
  cases sink with
  | spilled contents => exact writeTempfile_unseen apart _ _ _ _
  | memory memBuf =>
      have moved := spill_unseen apart config memBuf world
      simp only [storeChunk]
      split
      · split
        · rename_i failed
          rwa [failed] at moved
        · rename_i spilled
          rw [spilled] at moved
          exact moved.trans (writeTempfile_unseen apart _ _ _ _)
      · exact Unseen.rfl

theorem buildMessageBody_unseen (sink : Sink) (world : σ) :
    Unseen env world (buildMessageBody env sink world).2 := by
  cases sink with
  | memory memBuf => exact Unseen.rfl
  | spilled contents =>
      simp only [buildMessageBody]
      split
      · rename_i failed
        exact tempfile_unseen apart failed
      · rename_i flushed
        have first := tempfile_unseen apart flushed
        split
        · rename_i failed
          exact first.trans (tempfile_unseen apart failed)
        · rename_i kept
          have second := first.trans (tempfile_unseen apart kept)
          split
          · rename_i failed
            exact second.trans (tempfile_unseen apart failed)
          · rename_i opened
            exact second.trans (tempfile_unseen apart opened)

variable (files : ∀ operation world, (env.tempfile operation world).1 = .ok ())

include files

theorem digest_takes (config : SmtpConfig) (lines : List Octets) (sink : Sink) (total : Nat)
    (world : σ) :
    ∃ verdict next,
      digest env config lines sink total world =
        ⟨verdict, (takeMessage config.maxMessageSize lines sink.octets total).2, next⟩ ∧
      verdict.taken = (takeMessage config.maxMessageSize lines sink.octets total).1 ∧
      Unseen env world next := by
  induction lines generalizing sink total world with
  | nil => exact ⟨_, world, rfl, rfl, Unseen.rfl⟩
  | cons line rest ih =>
      simp only [digest, takeMessage]
      cases decoded : decodeUtf8 line with
      | none => exact ⟨_, world, rfl, rfl, Unseen.rfl⟩
      | some text =>
          simp only [encodeUtf8_unstuff decoded]
          by_cases dot : trim text = ['.']
          · simp only [dot, if_true]
            exact ⟨_, world, rfl, rfl, Unseen.rfl⟩
          · by_cases large : saturatingAdd total (unstuffOctets line).length > config.maxMessageSize
            · simp only [dot, large, if_true, if_false]
              exact ⟨_, world, rfl, rfl, Unseen.rfl⟩
            · obtain ⟨after, between, stored⟩ := storeChunk_ok files config sink
                (unstuffOctets line) world
              have unseen := storeChunk_unseen apart config sink (unstuffOctets line) world
              rw [stored] at unseen
              obtain ⟨verdict, next, digested, taken, later⟩ :=
                ih after (saturatingAdd total (unstuffOctets line).length) between
              rw [storeChunk_octets stored] at digested taken
              simp only [dot, large, if_false, stored]
              exact ⟨verdict, next, digested, taken, unseen.trans later⟩

end Apart

/-! What a message does to the connection, apart from where it was kept. -/

def AcceptedMessage.raw (message : AcceptedMessage) :
    Option MailAddress × List MailAddress × Octets :=
  (message.sender, message.recipients, message.body.octets)

structure DataEffect where
  result : Except Text Unit
  replies : List SmtpResponse
  messages : List (Option MailAddress × List MailAddress × Octets)
  input : Octets
  state : SmtpState

namespace Connection

def effect (handled : Except Text Unit × Connection σ) : DataEffect where
  result := handled.1
  replies := handled.2.replies
  messages := handled.2.queued.map AcceptedMessage.raw
  input := handled.2.input
  state := handled.2.session.state

def answer (connection : Connection σ) : Taken → Except Text (SmtpResponse × Option Octets)
  | .failed error => .error error
  | .tooLarge =>
      .ok (.storageExceeded ("Message size exceeds maximum ".toList ++
        decimal connection.session.config.maxMessageSize), none)
  | .complete octets messageSize =>
      match exceedsDeclared connection.session.transaction messageSize with
      | some declaredSize =>
          .ok (.storageExceeded ("Message size ".toList ++ decimal messageSize ++
            " exceeds declared size ".toList ++ decimal declaredSize), none)
      | none => .ok (.ok "Message accepted for delivery".toList, some octets)

def settled (env : SmtpEnv σ) (connection : Connection σ) (input : Octets) :
    Except Text (SmtpResponse × Option Octets) → DataEffect
  | .error error =>
      ⟨.error error, connection.replies, connection.queued.map AcceptedMessage.raw, input,
        connection.session.state⟩
  | .ok (response, kept) =>
      if connection.broken = false ∧ (env.send (encodeUtf8 response.format) connection.world).1 then
        ⟨.ok (), connection.replies ++ [response],
          connection.queued.map AcceptedMessage.raw ++
            kept.toList.map fun octets => (connection.session.transaction.sender,
              connection.session.transaction.recipients, octets),
          input, .authenticated⟩
      else
        ⟨.error "write failed".toList, connection.replies,
          connection.queued.map AcceptedMessage.raw, input, connection.session.state⟩

def expectedEffect (env : SmtpEnv σ) (connection : Connection σ) : DataEffect :=
  let taken := takeMessage connection.session.config.maxMessageSize (splitLines connection.input)
    [] 0
  connection.settled env taken.2 (connection.answer taken.1)

theorem finishMessage_settled {env : SmtpEnv σ} (connection : Connection σ)
    {reading : Connection σ}
    (unseen : Unseen env connection.world reading.world)
    (broken : reading.broken = connection.broken) (replies : reading.replies = connection.replies)
    (queued : reading.queued = connection.queued)
    (state : reading.session.state = connection.session.state) (response : SmtpResponse)
    {messages : List AcceptedMessage} {kept : Option Octets}
    (handed : messages.map AcceptedMessage.raw = kept.toList.map fun octets =>
      (connection.session.transaction.sender, connection.session.transaction.recipients, octets)) :
    effect (finishMessage env response messages reading) =
      connection.settled env reading.input (.ok (response, kept)) := by
  have sent := unseen (encodeUtf8 response.format)
  rw [settled, ← handed, ← sent, ← broken, ← replies, ← queued, ← state]
  cases already : reading.broken with
  | true => simp [finishMessage, writeResponse, already, effect]
  | false =>
      rcases wrote : env.send (encodeUtf8 response.format) reading.world with ⟨done, next⟩
      cases done with
      | true => simp [finishMessage, writeResponse, already, wrote, effect]
      | false => simp [finishMessage, writeResponse, already, wrote, effect]

theorem handleDataInput_effect {env : SmtpEnv σ}
    (files : ∀ operation world, (env.tempfile operation world).1 = .ok ())
    (apart : ∀ operation world octets,
      (env.send octets (env.tempfile operation world).2).1 = (env.send octets world).1)
    (connection : Connection σ) :
    effect (handleDataInput env connection) = expectedEffect env connection := by
  obtain ⟨verdict, next, digested, taken, unseen⟩ := digest_takes apart files
    connection.session.config (splitLines connection.input) .empty 0 connection.world
  have octets : Sink.empty.octets = [] := rfl
  rw [octets] at digested taken
  simp only [handleDataInput, receiveMessage_digest, digested, expectedEffect, ← taken]
  cases verdict with
  | failed error => rfl
  | tooLarge =>
      dsimp only [Verdict.taken, answer]
      apply finishMessage_settled connection
      exacts [unseen, rfl, rfl, rfl, rfl, rfl]
  | complete sink messageSize =>
      dsimp only [Verdict.taken, answer]
      cases exceedsDeclared connection.session.transaction messageSize with
      | some declaredSize =>
          apply finishMessage_settled connection
          exacts [unseen, rfl, rfl, rfl, rfl, rfl]
      | none =>
          obtain ⟨body, last, built, same⟩ := buildMessageBody_ok files sink next
          have hidden := buildMessageBody_unseen apart sink next
          rw [built] at hidden
          dsimp only
          rw [built]
          apply finishMessage_settled connection
          exacts [unseen.trans hidden, rfl, rfl, rfl, rfl, by simp [AcceptedMessage.raw, same]]

theorem settled_messages (env : SmtpEnv σ) (connection : Connection σ) (input : Octets)
    (answered : Except Text (SmtpResponse × Option Octets)) :
    ∃ accepted,
      (connection.settled env input answered).messages =
        connection.queued.map AcceptedMessage.raw ++ accepted ∧
      ∀ message ∈ accepted, ∃ response, answered = .ok (response, some message.2.2) := by
  rcases answered with error | ⟨response, kept⟩
  · exact ⟨[], by simp [settled], by simp⟩
  · simp only [settled]
    split
    · refine ⟨_, rfl, ?_⟩
      intro message member
      obtain ⟨octets, inside, rfl⟩ := List.mem_map.mp member
      rw [Option.mem_toList] at inside
      exact ⟨response, by rw [inside]⟩
    · exact ⟨[], by simp, by simp⟩

theorem answer_accepted {connection : Connection σ} {taken : Taken} {response : SmtpResponse}
    {octets : Octets} (answered : connection.answer taken = .ok (response, some octets)) :
    ∃ messageSize, taken = .complete octets messageSize ∧
      exceedsDeclared connection.session.transaction messageSize = none := by
  cases taken with
  | failed error => cases answered
  | tooLarge => cases answered
  | complete whole messageSize =>
      simp only [answer] at answered
      split at answered
      · cases answered
      · rename_i declared
        cases answered
        exact ⟨messageSize, rfl, declared⟩

theorem declared_within {transaction : SmtpTransaction} {messageSize declaredSize : Nat}
    (fits : exceedsDeclared transaction messageSize = none)
    (declared : transaction.declaredSize = some declaredSize) :
    messageSize ≤ declaredSize + declaredSize / 10 := by
  simp only [exceedsDeclared, Option.filter_eq_none_iff, decide_eq_true_eq] at fits
  have allowed := fits declaredSize declared
  have wrapped : maxAllowed declaredSize ≤ declaredSize + declaredSize / 10 := Nat.mod_le _ _
  omega

def spillingAt (connection : Connection σ) (threshold : Nat) : Connection σ :=
  { connection with
    session := { connection.session with
      config := { connection.session.config with dataTempfileThreshold := threshold } } }

/-- Two thresholds give the same replies and hand on the same octets, and these are the
un-stuffed lines of the message, within the limit and the size declared. -/
theorem spill_threshold_invisible (env : SmtpEnv σ)
    (files : ∀ operation world, (env.tempfile operation world).1 = .ok ())
    (apart : ∀ operation world octets,
      (env.send octets (env.tempfile operation world).2).1 = (env.send octets world).1)
    (connection : Connection σ) (first second : Nat) :
    effect (handleDataInput env (connection.spillingAt first)) =
        effect (handleDataInput env (connection.spillingAt second)) ∧
      ∃ accepted,
        (effect (handleDataInput env connection)).messages =
          connection.queued.map AcceptedMessage.raw ++ accepted ∧
        ∀ message ∈ accepted,
          message.2.2 = ((messageLines (splitLines connection.input)).map unstuffOctets).flatten ∧
          (message.2.2.length < usizeBound →
            message.2.2.length ≤ connection.session.config.maxMessageSize ∧
            ∀ declaredSize, connection.session.transaction.declaredSize = some declaredSize →
              message.2.2.length ≤ declaredSize + declaredSize / 10) := by
  constructor
  · rw [handleDataInput_effect files apart, handleDataInput_effect files apart]
    rfl
  · rw [handleDataInput_effect files apart, expectedEffect]
    rcases taken : takeMessage connection.session.config.maxMessageSize
      (splitLines connection.input) [] 0 with ⟨outcome, rest⟩
    obtain ⟨accepted, messages, kept⟩ :=
      settled_messages env connection rest (connection.answer outcome)
    refine ⟨accepted, messages, ?_⟩
    intro message member
    obtain ⟨response, answered⟩ := kept message member
    obtain ⟨messageSize, rfl, fits⟩ := answer_accepted answered
    obtain ⟨whole, size, bound⟩ := takeMessage_complete (Nat.zero_le _) taken
    rw [List.nil_append] at whole
    refine ⟨whole, ?_⟩
    intro representable
    rw [totalSize_eq (Nat.zero_le _), ← whole, saturatingAdd] at size
    have same : messageSize = message.2.2.length := by omega
    rw [← same]
    exact ⟨bound, fun declaredSize declared => declared_within fits declared⟩

def dottedGreeting : Connection Unit where
  session := { remoteAddr := .v4 0, config := mxConfig }
  input := encodeUtf8 "hello\r\n..world\r\n.\r\n".toList
  world := ()

/-- In a file as in memory. -/
theorem dottedGreeting_invisible :
    effect (handleDataInput openEnv (dottedGreeting.spillingAt 0)) =
        effect (handleDataInput openEnv (dottedGreeting.spillingAt 1000)) ∧
      (effect (handleDataInput openEnv (dottedGreeting.spillingAt 0))).messages =
        [(none, [], encodeUtf8 "hello\r\n.world\r\n".toList)] :=
  ⟨(spill_threshold_invisible openEnv (fun _ _ => rfl) (fun _ _ _ => rfl) dottedGreeting 0 1000).1,
    by decide +kernel⟩

end Connection

end Rusmes
