import Rusmes.Pop3.Server

/-!
What one connection keeps: nobody is let in without a report of success, the marks of
the messages are those the client was told of, and the guard is that of the user in
the maildrop.
-/

namespace Rusmes

open WireText

variable {β σ : Type} {services : Pop3Services β σ}

/-- The report is one the backend, the digest or the mechanism gave for this user. -/
def LoginReport.Supports (services : Pop3Services β σ) (username : Username) : LoginReport → Prop
  | .password asked guess answer =>
      asked = username ∧ answer = .ok true ∧
        ∃ auth, (services.authBackend.authenticate asked guess auth).1 = answer
  | .digest asked timestamp secret given =>
      asked = username ∧ (∃ auth, (services.authBackend.getApopSecret asked auth).1 = .ok secret) ∧
        Pop3Session.constantTimeCompare (services.toLowercase given)
          (Pop3Session.computeApopDigest services timestamp secret)
  | .sasl answer =>
      answer = .ok (.done true (some username)) ∧
        ∃ entropy message exchange,
          (SaslMechanism.step services.crypto services.authBackend entropy message exchange).1 =
            answer

/-- The numbers of the messages marked since the maildrop was entered or reset. -/
def Heard.mark (numbers : List Nat) : Heard → List Nat
  | .entered => []
  | .command (.dele number) .ok => numbers ++ [number.toNat]
  | .command .rset .ok => []
  | _ => numbers

def accepted (transcript : List Heard) : List Nat := transcript.foldl Heard.mark []

def Heard.Silent : Heard → Prop
  | .entered => False
  | .command (.dele _) status => status ≠ .ok
  | .command .rset status => status ≠ .ok
  | .command .quit _ => False
  | _ => True

theorem accepted_append (earlier later : List Heard) :
    accepted (earlier ++ later) = later.foldl Heard.mark (accepted earlier) := by
  rw [accepted, List.foldl_append, accepted]

theorem mark_silent {heard : Heard} (silent : heard.Silent) (numbers : List Nat) :
    heard.mark numbers = numbers := by
  cases heard with
  | entered => cases silent
  | command command status =>
      cases status with
      | err => cases command <;> rfl
      | continuation => cases command <;> rfl
      | ok =>
          cases command with
          | dele number => exact absurd rfl silent
          | rset => exact absurd rfl silent
          | quit => cases silent
          | _ => rfl

theorem accepted_silent {transcript later : List Heard} (silent : ∀ heard ∈ later, heard.Silent) :
    accepted (transcript ++ later) = accepted transcript := by
  rw [accepted_append]
  induction later with
  | nil => rfl
  | cons heard later ih =>
      rw [List.foldl_cons, mark_silent (silent heard List.mem_cons_self)]
      exact ih fun other member => silent other (List.mem_cons_of_mem heard member)

namespace Pop3Session

structure Quiet (before after : Pop3Session) : Prop where
  state : after.state = before.state
  messages : after.messages = before.messages
  guard : after.maildropGuard = before.maildropGuard
  username : before.state ≠ .authorization → after.username = before.username
  pending : before.state ≠ .authorization → after.pendingSasl = before.pendingSasl

theorem Quiet.refl (session : Pop3Session) : Quiet session session :=
  ⟨rfl, rfl, rfl, fun _ => rfl, fun _ => rfl⟩

theorem quiet_outside {before after : Pop3Session} (outside : before.state = .authorization)
    (state : after.state = before.state) (messages : after.messages = before.messages)
    (guard : after.maildropGuard = before.maildropGuard) : Quiet before after :=
  ⟨state, messages, guard, fun inside => absurd outside inside, fun inside => absurd outside inside⟩

/-- A handler that leaves the maildrop alone, and lets nobody in without a report. -/
structure Harmless (services : Pop3Services β σ) (before : Pop3Session)
    (outcome : Pop3Handled × Pop3World β σ) : Prop where
  quiet : Quiet before outcome.2.session
  reported : ∀ username report, outcome.1 = .enter username report →
    before.state = .authorization ∧ report.Supports services username ∧
      outcome.2.session.pendingSasl = none

theorem harmless_answered {before : Pop3Session} {world : Pop3World β σ}
    (quiet : Quiet before world.session) (response : Pop3Response) :
    Harmless services before (answered world response) :=
  ⟨quiet, fun _ _ entered => by cases entered⟩

theorem harmless_moved {before session : Pop3Session} (quiet : Quiet before session) {auth : β}
    {store : σ} (response : Pop3Response) :
    Harmless services before (answered ⟨session, auth, store⟩ response) :=
  harmless_answered quiet response

theorem harmless_kept {session : Pop3Session} {auth : β} {store : σ} (response : Pop3Response) :
    Harmless services session (answered ⟨session, auth, store⟩ response) :=
  harmless_answered (Quiet.refl session) response

theorem harmless_handleUser (name : Text) (world : Pop3World β σ) :
    Harmless services world.session (handleUser name world) := by
  rw [handleUser]
  split
  · exact harmless_kept _
  · next outside =>
      rw [ne_eq, not_not] at outside
      cases Username.new name with
      | error error => exact harmless_kept _
      | ok username =>
          refine harmless_moved ?_ _
          exact quiet_outside outside rfl rfl rfl

theorem harmless_handlePass (password : Text) {world : Pop3World β σ}
    (free : world.session.pendingSasl = none) :
    Harmless services world.session (handlePass services password world) := by
  rw [handlePass]
  split
  · exact harmless_kept _
  · next outside =>
      rw [ne_eq, not_not] at outside
      cases world.session.username with
      | none => exact harmless_kept _
      | some username =>
          dsimp only
          cases answer : (services.authBackend.authenticate username password world.auth).1 with
          | error error => exact harmless_kept _
          | ok success =>
              cases success with
              | false => exact harmless_kept _
              | true =>
                  refine ⟨Quiet.refl _, ?_⟩
                  intro entered report same
                  cases same
                  exact ⟨outside, ⟨rfl, rfl, world.auth, answer⟩, free⟩

theorem harmless_describe (value : MessageInfo → Nat) (number : UInt32) (world : Pop3World β σ) :
    Harmless services world.session (describe value number world) := by
  rw [describe]
  cases world.session.numbered number with
  | none => exact harmless_kept _
  | some message =>
      dsimp only
      split
      · exact harmless_kept _
      · exact harmless_kept _

theorem harmless_handleStat (world : Pop3World β σ) :
    Harmless services world.session (handleStat world) := by
  rw [handleStat]
  split
  · exact harmless_kept _
  · exact harmless_kept _

theorem harmless_handleList (number : Option UInt32) (world : Pop3World β σ) :
    Harmless services world.session (handleList number world) := by
  unfold handleList
  split
  · exact harmless_kept _
  · cases number with
    | none => exact harmless_kept _
    | some number => exact harmless_describe _ number world

theorem harmless_handleUidl (number : Option UInt32) (world : Pop3World β σ) :
    Harmless services world.session (handleUidl number world) := by
  unfold handleUidl
  split
  · exact harmless_kept _
  · cases number with
    | none => exact harmless_kept _
    | some number => exact harmless_describe _ number world

theorem harmless_retrieve (number : UInt32) (present : MessageInfo → Text → Pop3Response)
    (world : Pop3World β σ) :
    Harmless services world.session (retrieve services number present world) := by
  rw [retrieve]
  split
  · exact harmless_kept _
  · cases world.session.numbered number with
    | none => exact harmless_kept _
    | some message =>
        dsimp only
        split
        · exact harmless_kept _
        · cases (services.messageStore.getMessage message.messageId world.store).1 with
          | error error => exact harmless_kept _
          | ok found =>
              cases found with
              | none => exact harmless_kept _
              | some mail => exact harmless_kept _

theorem harmless_handleNoop (world : Pop3World β σ) :
    Harmless services world.session (handleNoop world) := by
  rw [handleNoop]
  split
  · exact harmless_kept _
  · exact harmless_kept _

theorem harmless_handleApop (name digest : Text) {world : Pop3World β σ}
    (free : world.session.pendingSasl = none) :
    Harmless services world.session (handleApop services name digest world) := by
  rw [handleApop]
  split
  · exact harmless_kept _
  · next outside =>
      rw [ne_eq, not_not] at outside
      cases world.session.apopTimestamp with
      | none => exact harmless_kept _
      | some timestamp =>
          dsimp only
          cases Username.new name with
          | error error => exact harmless_kept _
          | ok username =>
              dsimp only
              cases answer : (services.authBackend.getApopSecret username world.auth).1 with
              | error error => exact harmless_kept _
              | ok secret =>
                  dsimp only
                  split
                  · next matching =>
                      refine ⟨Quiet.refl _, ?_⟩
                      intro entered report same
                      cases same
                      exact ⟨outside, ⟨rfl, ⟨world.auth, answer⟩, matching⟩, free⟩
                  · exact harmless_kept _

theorem harmless_handleStls (world : Pop3World β σ) :
    Harmless services world.session (handleStls services world) := by
  rw [handleStls]
  split
  · exact harmless_kept _
  · next outside =>
      rw [ne_eq, not_not] at outside
      split
      · exact harmless_kept _
      · refine harmless_moved ?_ _
        exact quiet_outside outside rfl rfl rfl

theorem harmless_drivePendingSasl {before : Pop3Session} (outside : before.state = .authorization)
    {world : Pop3World β σ} (quiet : Quiet before world.session) (entropy : Entropy)
    (input : Octets) : Harmless services before (drivePendingSasl services entropy input world) := by
  rw [drivePendingSasl]
  cases world.session.pendingSasl with
  | none => exact harmless_answered quiet _
  | some mechanism =>
      dsimp only
      have changed : ∀ pending, Quiet before { world.session with pendingSasl := pending } :=
        fun pending => quiet_outside outside quiet.state quiet.messages quiet.guard
      cases answer : (SaslMechanism.step services.crypto services.authBackend entropy input
          ⟨mechanism, world.auth⟩).1 with
      | error error => exact harmless_moved (changed none) _
      | ok step =>
          cases step with
          | challenge data => exact harmless_moved (changed _) _
          | proceed => exact harmless_moved (changed _) _
          | done success username =>
              match success, username with
              | true, none => exact harmless_moved (changed none) _
              | false, _ => exact harmless_moved (changed none) _
              | true, some username =>
                  refine ⟨changed none, ?_⟩
                  intro entered report same
                  cases same
                  exact ⟨outside, ⟨rfl, entropy, input, _, answer⟩, rfl⟩

theorem harmless_handleAuth (entropy : Entropy) (mechanism initialResponse : Option Text)
    (world : Pop3World β σ) :
    Harmless services world.session (handleAuth services entropy mechanism initialResponse world) := by
  unfold handleAuth
  split
  · exact harmless_kept _
  · next outside =>
      rw [ne_eq, not_not] at outside
      have parked : ∀ pending, Quiet world.session { world.session with pendingSasl := pending } :=
        fun pending => quiet_outside outside rfl rfl rfl
      have driven : ∀ mechanism input, Harmless services world.session
          (parkAndDrive services entropy mechanism input world) := by
        intro mechanism input
        rw [parkAndDrive]
        apply harmless_drivePendingSasl outside
        exact parked (some mechanism)
      cases mechanism with
      | none => exact harmless_kept _
      | some name =>
          dsimp only
          split
          · exact harmless_kept _
          · split
            · exact harmless_kept _
            · cases SaslServer.createMechanism
                ⟨⟨services.config.saslMechanisms, services.config.hostname⟩⟩ name with
              | error error => exact harmless_kept _
              | ok mechanism =>
                  cases initialResponse with
                  | none =>
                      dsimp only
                      split
                      · exact harmless_moved (parked _) _
                      · exact driven mechanism []
                  | some response =>
                      dsimp only
                      split
                      · exact driven mechanism []
                      · cases services.crypto.base64Decode response with
                        | error error => exact harmless_kept _
                        | ok input => exact driven mechanism input

theorem harmless_handleSaslContinuation {world : Pop3World β σ}
    (outside : world.session.state = .authorization) (entropy : Entropy) (line : Text) :
    Harmless services world.session (handleSaslContinuation services entropy line world) := by
  have dropped : Quiet world.session { world.session with pendingSasl := none } :=
    quiet_outside outside rfl rfl rfl
  rw [handleSaslContinuation]
  split
  · exact harmless_moved dropped _
  · split
    · exact harmless_drivePendingSasl outside (Quiet.refl _) entropy []
    · cases services.crypto.base64Decode line with
      | error error => exact harmless_moved dropped _
      | ok input => exact harmless_drivePendingSasl outside (Quiet.refl _) entropy input

inductive LineEffect (services : Pop3Services β σ) (reading : Reading) (before : Pop3Session) :
    Pop3Handled → Pop3Session → Prop
  | quiet (response : Pop3Response) (after : Pop3Session) (quiet : Quiet before after)
      (silent : ∀ heard ∈ Pop3Server.heard reading response, heard.Silent) :
      LineEffect services reading before (.answer response) after
  | enter (username : Username) (report : LoginReport) (after : Pop3Session)
      (quiet : Quiet before after) (outside : before.state = .authorization)
      (supports : report.Supports services username) (settled : after.pendingSasl = none) :
      LineEffect services reading before (.enter username report) after
  | dele (number : UInt32) (message : MessageInfo) (response : Pop3Response)
      (told : Pop3Server.heard reading response = [.command (.dele number) .ok])
      (inside : before.state = .transaction) (named : before.numbered number = some message) :
      LineEffect services reading before (.answer response)
        { before with
          messages := before.messages.set (number.toNat - 1) { message with deleted := true } }
  | rset (response : Pop3Response)
      (told : Pop3Server.heard reading response = [.command .rset .ok])
      (inside : before.state = .transaction) :
      LineEffect services reading before (.answer response)
        { before with
          messages := before.messages.map fun message => { message with deleted := false } }
  | quit (response : Pop3Response)
      (told : Pop3Server.heard reading response = [.command .quit .ok])
      (free : before.pendingSasl = none) :
      LineEffect services reading before (.answer response) { before with state := .update }

theorem effect_of_harmless {reading : Reading} {before : Pop3Session}
    {outcome : Pop3Handled × Pop3World β σ} (harmless : Harmless services before outcome)
    (silent : ∀ response, ∀ heard ∈ Pop3Server.heard reading response, heard.Silent) :
    LineEffect services reading before outcome.1 outcome.2.session := by
  rcases outcome with ⟨handled, after⟩
  cases handled with
  | answer response => exact .quiet response _ harmless.quiet (silent response)
  | enter username report =>
      obtain ⟨outside, supports, settled⟩ := harmless.reported username report rfl
      exact .enter username report _ harmless.quiet outside supports settled

theorem effect_wrongState (world : Pop3World β σ) (command : Pop3Command)
    (silent : (Heard.command command .err).Silent) :
    LineEffect services (.command command) world.session (answered world wrongState).1
      (answered world wrongState).2.session := by
  apply LineEffect.quiet _ _ (Quiet.refl _)
  intro heard told
  rwa [List.mem_singleton.mp told]

theorem effect_handleDele (number : UInt32) (world : Pop3World β σ) :
    LineEffect services (.command (.dele number)) world.session (handleDele number world).1
      (handleDele number world).2.session := by
  have refused : ∀ message, LineEffect services (.command (.dele number)) world.session
      (answered world (.err message)).1 (answered world (.err message)).2.session := by
    intro message
    apply LineEffect.quiet _ _ (Quiet.refl _)
    intro heard told
    rw [List.mem_singleton.mp told]
    exact fun status => by cases status
  rw [handleDele]
  split
  · exact refused _
  · next inside =>
      rw [ne_eq, not_not] at inside
      cases named : world.session.numbered number with
      | none => exact refused _
      | some message =>
          dsimp only
          split
          · exact refused _
          · exact .dele number message _ rfl inside named

theorem effect_handleRset (world : Pop3World β σ) :
    LineEffect services (.command .rset) world.session (handleRset world).1
      (handleRset world).2.session := by
  rw [handleRset]
  split
  · exact effect_wrongState world .rset (fun status => by cases status)
  · next inside =>
      rw [ne_eq, not_not] at inside
      exact .rset _ rfl inside

theorem effect_handleQuit {world : Pop3World β σ} (free : world.session.pendingSasl = none) :
    LineEffect services (.command .quit) world.session (handleQuit world).1
      (handleQuit world).2.session := by
  rw [handleQuit]
  cases world.session.state with
  | transaction => exact .quit _ rfl free
  | authorization => exact .quit _ rfl free
  | update => exact .quit _ rfl free

theorem effect_handleCommand {world : Pop3World β σ} (free : world.session.pendingSasl = none)
    (entropy : Entropy) (command : Pop3Command) :
    LineEffect services (.command command) world.session (handleCommand services entropy command world).1
      (handleCommand services entropy command world).2.session := by
  have unmarking : (∀ status, (Heard.command command status).Silent) →
      Harmless services world.session (handleCommand services entropy command world) →
      LineEffect services (.command command) world.session
        (handleCommand services entropy command world).1
        (handleCommand services entropy command world).2.session := by
    intro silent harmless
    apply effect_of_harmless harmless
    intro response heard told
    rw [List.mem_singleton.mp told]
    exact silent response.status
  cases command with
  | dele number => exact effect_handleDele number world
  | rset => exact effect_handleRset world
  | quit => exact effect_handleQuit free
  | user name => exact unmarking (fun _ => trivial) (harmless_handleUser name world)
  | pass password => exact unmarking (fun _ => trivial) (harmless_handlePass password free)
  | stat => exact unmarking (fun _ => trivial) (harmless_handleStat world)
  | list number => exact unmarking (fun _ => trivial) (harmless_handleList number world)
  | retr number =>
      apply unmarking (fun _ => trivial)
      rw [handleCommand, handleRetr]
      exact harmless_retrieve number _ world
  | noop => exact unmarking (fun _ => trivial) (harmless_handleNoop world)
  | top number lines =>
      apply unmarking (fun _ => trivial)
      rw [handleCommand, handleTop]
      exact harmless_retrieve number _ world
  | uidl number => exact unmarking (fun _ => trivial) (harmless_handleUidl number world)
  | apop name digest => exact unmarking (fun _ => trivial) (harmless_handleApop name digest free)
  | capa => exact unmarking (fun _ => trivial) (harmless_kept _)
  | stls => exact unmarking (fun _ => trivial) (harmless_handleStls world)
  | auth mechanism initialResponse =>
      exact unmarking (fun _ => trivial)
        (harmless_handleAuth entropy mechanism initialResponse world)

theorem readLine_command {session : Pop3Session} {line : Text} {command : Pop3Command}
    (read : session.readLine services line = .command command) : session.pendingSasl = none := by
  rw [readLine] at read
  split at read
  · cases read
  · split at read
    · cases read
    · next free => exact Option.not_isSome_iff_eq_none.mp free

theorem readLine_continuation {session : Pop3Session} {line text : Text}
    (read : session.readLine services line = .continuation text) :
    session.pendingSasl.isSome := by
  rw [readLine] at read
  split at read
  · cases read
  · split at read
    · assumption
    · cases parsed : Pop3Parser.parseCommand services.alphanumeric (trim line) with
      | ok command => rw [parsed] at read; cases read
      | error error => rw [parsed] at read; cases read

theorem effect_handleLine {world : Pop3World β σ}
    (parked : world.session.pendingSasl.isSome → world.session.state = .authorization)
    (entropy : Entropy) (line : Text) :
    LineEffect services (world.session.readLine services line) world.session
      (handleLine services entropy line world).1
      (handleLine services entropy line world).2.session := by
  rw [handleLine]
  cases read : world.session.readLine services line with
  | blank => exact effect_of_harmless (harmless_kept _) (fun _ heard told => by cases told)
  | garbled => exact effect_of_harmless (harmless_kept _) (fun _ heard told => by cases told)
  | command command => exact effect_handleCommand (readLine_command read) entropy command
  | continuation text =>
      have outside := parked (readLine_continuation read)
      exact effect_of_harmless (harmless_handleSaslContinuation outside entropy text)
        (fun _ heard told => by cases told)

theorem loadMessages_unmarked (index : Nat) (ids : List MessageId) {loaded : List MessageInfo}
    (unmarked : ∀ message ∈ loaded, message.deleted = false) (store : σ) :
    ∀ message ∈ (loadMessages services index ids loaded store).2.1, message.deleted = false := by
  induction ids generalizing index loaded store with
  | nil => exact unmarked
  | cons id ids ih =>
      rw [loadMessages]
      rcases services.messageStore.getMessage id store with ⟨found, later⟩
      cases found with
      | error error => exact unmarked
      | ok found =>
          cases found with
          | none => exact ih (index + 1) unmarked _
          | some mail =>
              refine ih (index + 1) ?_ _
              intro message member
              rcases List.mem_append.mp member with earlier | last
              · exact unmarked message earlier
              · rw [List.mem_singleton.mp last]

structure Loaded (before after : Pop3Session) : Prop where
  state : after.state = before.state
  guard : after.maildropGuard = before.maildropGuard
  pending : after.pendingSasl = before.pendingSasl
  unmarked : (∀ message ∈ before.messages, message.deleted = false) →
    ∀ message ∈ after.messages, message.deleted = false

theorem loadMailbox_loaded (username : Username) (session : Pop3Session) (store : σ) :
    Loaded session (loadMailbox services username session store).2.1 := by
  rw [loadMailbox]
  rcases services.mailboxStore.getUserInbox username store with ⟨inbox, later⟩
  cases inbox with
  | error error => exact ⟨rfl, rfl, rfl, id⟩
  | ok inbox =>
      cases inbox with
      | none => exact ⟨rfl, rfl, rfl, id⟩
      | some inbox =>
          rcases searched : services.messageStore.search inbox .all later with ⟨ids, last⟩
          simp only [searched]
          cases ids with
          | error error => exact ⟨rfl, rfl, rfl, id⟩
          | ok ids =>
              exact ⟨rfl, rfl, rfl, fun _ =>
                loadMessages_unmarked 0 ids (fun _ member => by cases member) _⟩

end Pop3Session

namespace MaildropLockManager

theorem locked_insert (manager : MaildropLockManager) (user other : Text) (value : Bool) :
    locked (AList.insert user value manager) other =
      if other = user then value else locked manager other := by
  rw [locked]
  by_cases same : other = user
  · subst same
    rw [AList.lookup_insert, if_pos rfl]
    rfl
  · rw [AList.lookup_insert_ne same, if_neg same]
    rfl

theorem tryAcquire_eq_some {manager after : MaildropLockManager} {user : Text}
    (taken : tryAcquire manager user = some after) :
    ¬locked manager user ∧ ∀ other, locked after other ↔ other = user ∨ locked manager other := by
  rw [tryAcquire] at taken
  split at taken
  · cases taken
  · next free =>
      cases taken
      refine ⟨free, fun other => ?_⟩
      rw [locked_insert]
      by_cases same : other = user
      · simp [same]
      · simp [same]

theorem locked_release (manager : MaildropLockManager) (guard : Option Text) (other : Text) :
    locked (release manager guard) other ↔ locked manager other ∧ guard ≠ some other := by
  cases guard with
  | none => simp [release]
  | some user =>
      rw [release, locked_insert]
      by_cases same : other = user
      · simp [same]
      · simp [same, Ne.symm same]

end MaildropLockManager

def SignedOff (transcript : List Heard) : Prop :=
  ∃ earlier, transcript = earlier ++ [.command .quit .ok] ∧ .entered ∈ earlier

namespace Pop3Connection

def markedIds (connection : Pop3Connection) : List MessageId :=
  (connection.session.messages.zipIdx.filter fun entry =>
    entry.2 + 1 ∈ accepted connection.transcript).map fun entry => entry.1.messageId

def Busy (connection : Pop3Connection) : Prop :=
  (connection.session.state = .transaction ∨
    connection.session.state = .update ∧ .entered ∈ connection.transcript) ∧
    connection.activity ≠ .ended

structure Sound (services : Pop3Services β σ) (connection : Pop3Connection) : Prop where
  parked : connection.session.pendingSasl.isSome → connection.session.state = .authorization
  reading : connection.activity = .reading → connection.session.state ≠ .update
  closing : connection.activity = .closing → connection.session.state = .update
  arriving : ∀ username report, connection.activity = .entering username report ∨
    connection.activity = .loading username report →
    connection.session.state = .authorization ∧ report.Supports services username ∧
      connection.session.pendingSasl = none
  outside : .entered ∉ connection.transcript → connection.session.state ≠ .transaction ∧
    connection.session.maildropGuard = none ∧
    ∀ message ∈ connection.session.messages, message.deleted = false
  inside : .entered ∈ connection.transcript → connection.session.state ≠ .authorization ∧
    (connection.activity = .ended ∨ ∃ username, connection.session.username = some username ∧
      connection.session.maildropGuard = some username.text)
  quit : connection.session.state = .update → .entered ∈ connection.transcript →
    SignedOff connection.transcript
  marks : .entered ∈ connection.transcript → ∀ index message,
    connection.session.messages[index]? = some message →
      (message.deleted = true ↔ index + 1 ∈ accepted connection.transcript)

theorem sound_new (timestamp : Text) :
    Sound services ⟨.new timestamp, .reading, []⟩ where
  parked pending := rfl
  reading _ updating := by cases updating
  closing turned := by cases turned
  arriving username report arriving := by
    rcases arriving with entering | loading
    · cases entering
    · cases loading
  outside _ := ⟨fun inside => (by cases inside), rfl, fun _ member => (by cases member)⟩
  inside entered := by cases entered
  quit _ entered := by cases entered
  marks entered := by cases entered

section Lines

variable {connection : Pop3Connection} (sound : connection.Sound services)

include sound

theorem Sound.turn {activity : Pop3Activity}
    (reading : activity = .reading → connection.session.state ≠ .update)
    (closing : activity = .closing → connection.session.state = .update)
    (arriving : ∀ username report, activity = .entering username report ∨
      activity = .loading username report →
      connection.session.state = .authorization ∧ report.Supports services username ∧
        connection.session.pendingSasl = none)
    (alive : connection.activity ≠ .ended) :
    Sound services { connection with activity } where
  parked := sound.parked
  reading := reading
  closing := closing
  arriving := arriving
  outside := sound.outside
  inside entered := ⟨(sound.inside entered).1,
    Or.inr ((sound.inside entered).2.resolve_left alive)⟩
  quit := sound.quit
  marks := sound.marks

theorem Sound.ended :
    Sound services { connection with
      session := { connection.session with maildropGuard := none }, activity := .ended } where
  parked := sound.parked
  reading turned := by cases turned
  closing turned := by cases turned
  arriving username report arriving := by
    rcases arriving with entering | loading
    · cases entering
    · cases loading
  outside untouched := ⟨(sound.outside untouched).1, rfl, (sound.outside untouched).2.2⟩
  inside entered := ⟨(sound.inside entered).1, Or.inl rfl⟩
  quit := sound.quit
  marks := sound.marks

theorem Sound.quiet {after : Pop3Session} {activity : Pop3Activity} {later : List Heard}
    (quiet : Pop3Session.Quiet connection.session after) (silent : ∀ heard ∈ later, heard.Silent)
    (going : connection.activity = .reading) (turned : activity ≠ .reading)
    (busy : activity ≠ .closing)
    (arriving : ∀ username report, activity = .entering username report ∨
      activity = .loading username report →
      connection.session.state = .authorization ∧ report.Supports services username ∧
        after.pendingSasl = none) :
    Sound services ⟨after, activity, connection.transcript ++ later⟩ := by
  have entered : .entered ∈ connection.transcript ++ later ↔ .entered ∈ connection.transcript := by
    rw [List.mem_append, or_iff_left]
    intro told
    cases silent _ told
  have alive : connection.activity ≠ .ended := by
    rw [going]
    exact fun same => by cases same
  constructor
  · intro pending
    rw [quiet.state]
    by_contra inside
    rw [quiet.pending inside] at pending
    exact inside (sound.parked pending)
  · exact fun same => absurd same turned
  · exact fun same => absurd same busy
  · intro username report arrives
    rw [quiet.state]
    exact arriving username report arrives
  · intro untouched
    obtain ⟨state, guard, unmarked⟩ := sound.outside (fun there => untouched (entered.mpr there))
    exact ⟨quiet.state ▸ state, quiet.guard ▸ guard, quiet.messages ▸ unmarked⟩
  · intro there
    obtain ⟨state, owner⟩ := sound.inside (entered.mp there)
    obtain ⟨username, named, guard⟩ := owner.resolve_left alive
    exact ⟨quiet.state ▸ state, Or.inr ⟨username, (quiet.username state).trans named,
      quiet.guard.trans guard⟩⟩
  · intro updating
    exact absurd (quiet.state ▸ updating) (sound.reading going)
  · intro there index message found
    dsimp only at found ⊢
    rw [quiet.messages] at found
    rw [accepted_silent silent]
    exact sound.marks (entered.mp there) index message found

theorem Sound.entered (inside : connection.session.state = .transaction) :
    .entered ∈ connection.transcript := by
  by_contra untouched
  exact (sound.outside untouched).1 inside

theorem Sound.owner (entered : .entered ∈ connection.transcript)
    (alive : connection.activity ≠ .ended) :
    ∃ username, connection.session.username = some username ∧
      connection.session.maildropGuard = some username.text :=
  (sound.inside entered).2.resolve_left alive

theorem Sound.remark {messages : List MessageInfo} {heard : Heard} (response : Pop3Response)
    (alive : connection.activity ≠ .ended) (inside : connection.session.state = .transaction)
    (marks : ∀ index message, messages[index]? = some message →
      (message.deleted = true ↔ index + 1 ∈ accepted (connection.transcript ++ [heard]))) :
    Sound services ⟨{ connection.session with messages }, .answering response,
      connection.transcript ++ [heard]⟩ := by
  have there := sound.entered inside
  constructor
  · exact sound.parked
  · intro turned
    cases turned
  · intro turned
    cases turned
  · rintro username report (entering | loading)
    · cases entering
    · cases loading
  · intro untouched
    exact absurd (List.mem_append_left _ there) untouched
  · intro _
    exact ⟨(sound.inside there).1, Or.inr (sound.owner there alive)⟩
  · intro updating
    exact absurd (inside.symm.trans updating) (fun same => by cases same)
  · intro _
    exact marks

theorem Sound.dele {number : UInt32} {message : MessageInfo} (response : Pop3Response)
    (alive : connection.activity ≠ .ended) (inside : connection.session.state = .transaction)
    (named : connection.session.numbered number = some message) :
    Sound services ⟨{ connection.session with
        messages := connection.session.messages.set (number.toNat - 1)
          { message with deleted := true } },
      .answering response, connection.transcript ++ [.command (.dele number) .ok]⟩ := by
  have positive : 0 < number.toNat := by
    rw [Pop3Session.numbered] at named
    split at named
    · cases named
    · next nonzero => exact Nat.pos_of_ne_zero fun zero => nonzero (UInt32.toNat_inj.mp zero)
  have numbers : accepted (connection.transcript ++ [.command (.dele number) .ok]) =
      accepted connection.transcript ++ [number.toNat] := by
    rw [accepted_append]
    rfl
  apply sound.remark response alive inside
  intro index marked found
  rw [numbers, List.mem_append, List.mem_singleton]
  rw [List.getElem?_set] at found
  by_cases here : number.toNat - 1 = index
  · rw [if_pos here] at found
    have same : index + 1 = number.toNat := by omega
    split at found
    · cases found
      exact iff_of_true rfl (Or.inr same)
    · cases found
  · rw [if_neg here] at found
    have other : index + 1 ≠ number.toNat := by omega
    rw [sound.marks (sound.entered inside) index marked found, or_iff_left other]

theorem Sound.rset (response : Pop3Response) (alive : connection.activity ≠ .ended)
    (inside : connection.session.state = .transaction) :
    Sound services ⟨{ connection.session with
        messages := connection.session.messages.map fun message =>
          { message with deleted := false } },
      .answering response, connection.transcript ++ [.command .rset .ok]⟩ := by
  have numbers : accepted (connection.transcript ++ [.command .rset .ok]) = [] := by
    rw [accepted_append]
    rfl
  apply sound.remark response alive inside
  intro index marked found
  rw [numbers]
  rw [List.getElem?_map] at found
  obtain ⟨message, _, same⟩ := Option.map_eq_some_iff.mp found
  subst same
  exact iff_of_false (fun same => by cases same) (fun member => by cases member)

theorem Sound.signOff (response : Pop3Response) (alive : connection.activity ≠ .ended)
    (free : connection.session.pendingSasl = none) :
    Sound services ⟨{ connection.session with state := .update }, .answering response,
      connection.transcript ++ [.command .quit .ok]⟩ := by
  have entered : .entered ∈ connection.transcript ++ [.command .quit .ok] ↔
      .entered ∈ connection.transcript := by
    rw [List.mem_append, or_iff_left]
    intro told
    cases List.mem_singleton.mp told
  constructor
  · intro pending
    dsimp only at pending
    rw [free] at pending
    cases pending
  · intro turned
    cases turned
  · intro turned
    cases turned
  · rintro username report (entering | loading)
    · cases entering
    · cases loading
  · intro untouched
    obtain ⟨_, guard, unmarked⟩ := sound.outside (fun there => untouched (entered.mpr there))
    exact ⟨fun same => (by cases same), guard, unmarked⟩
  · intro there
    exact ⟨fun same => (by cases same), Or.inr (sound.owner (entered.mp there) alive)⟩
  · intro _ there
    exact ⟨connection.transcript, rfl, entered.mp there⟩
  · intro there index message found
    have numbers : accepted (connection.transcript ++ [.command .quit .ok]) =
        accepted connection.transcript := by
      rw [accepted_append]
      rfl
    dsimp only at found ⊢
    rw [numbers]
    exact sound.marks (entered.mp there) index message found

theorem Sound.enter {after : Pop3Session} (username : Username) (response : Pop3Response)
    (outside : connection.session.state = .authorization)
    (loaded : Pop3Session.Loaded connection.session after)
    (settled : connection.session.pendingSasl = none) :
    Sound services ⟨{ after with
        username := some username, maildropGuard := some username.text, state := .transaction },
      .answering response, connection.transcript ++ [.entered]⟩ := by
  have untouched : .entered ∉ connection.transcript := fun there =>
    (sound.inside there).1 outside
  have unmarked := loaded.unmarked (sound.outside untouched).2.2
  constructor
  · intro pending
    dsimp only at pending
    rw [loaded.pending, settled] at pending
    cases pending
  · intro turned
    cases turned
  · intro turned
    cases turned
  · rintro username report (entering | loading)
    · cases entering
    · cases loading
  · intro missing
    exact absurd (List.mem_append_right _ (List.mem_singleton_self _)) missing
  · intro _
    exact ⟨fun same => (by cases same), Or.inr ⟨username, rfl, rfl⟩⟩
  · intro updating
    cases updating
  · intro _ index message found
    have numbers : accepted (connection.transcript ++ [.entered]) = [] := by
      rw [accepted_append]
      rfl
    dsimp only at found ⊢
    rw [numbers, unmarked message (List.mem_of_getElem? found)]
    exact iff_of_false (fun same => by cases same) (fun member => by cases member)

theorem Sound.refused {after : Pop3Session} (response : Pop3Response)
    (outside : connection.session.state = .authorization)
    (loaded : Pop3Session.Loaded connection.session after) :
    Sound services ⟨after, .answering response, connection.transcript⟩ := by
  have untouched : .entered ∉ connection.transcript := fun there =>
    (sound.inside there).1 outside
  obtain ⟨state, guard, unmarked⟩ := sound.outside untouched
  constructor
  · intro _
    exact loaded.state.trans outside
  · intro turned
    cases turned
  · intro turned
    cases turned
  · rintro username report (entering | loading)
    · cases entering
    · cases loading
  · intro _
    exact ⟨loaded.state ▸ state, loaded.guard.trans guard, loaded.unmarked unmarked⟩
  · intro there
    exact absurd there untouched
  · intro _ there
    exact absurd there untouched
  · intro there
    exact absurd there untouched

end Lines

end Pop3Connection

end Rusmes
