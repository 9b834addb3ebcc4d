import Rusmes.Imap.Backend
import Rusmes.Imap.Steps

/-!
One user's session does not reach another's mailboxes. The stores and the backend of a
context are wrapped so that every call leaves a record; the invariant relates the
session's state to the records of the calls it has made so far.
-/

namespace Rusmes

open WireText

variable {σ β Value : Type}

inductive StoreEvent
  | listMailboxes (user : Username) (given : List MailboxId)
  | getUserInbox (user : Username) (given : Option MailboxId)
  | getMailbox (id : MailboxId) (given : Option MailboxId)
  | getMailboxCounters (id : MailboxId)
  | listSubscriptions (user : Username)
  | subscribeMailbox (user : Username) (name : Text)
  | unsubscribeMailbox (user : Username) (name : Text)
  | createMailbox (path : MailboxPath)
  | deleteMailbox (id : MailboxId)
  | renameMailbox (id : MailboxId) (path : MailboxPath)
  | getMailboxMessages (id : MailboxId)
  | search (id : MailboxId)
  | appendMessage (id : MailboxId)
  | copyMessages (ids : List MessageId) (dest : MailboxId)
  | getMessage (id : MessageId)
  | getMessageFlags (id : MessageId)
  | setFlags (ids : List MessageId)
  | deleteMessages (ids : List MessageId)
  deriving DecidableEq

namespace StoreEvent

/-- The call is made on behalf of this user: the mailboxes it names are among those
obtained, the paths it writes are the user's. -/
def IsFor (user : Username) (obtained : MailboxId → Prop) : StoreEvent → Prop
  | listMailboxes asked _ | getUserInbox asked _ | listSubscriptions asked
  | subscribeMailbox asked _ | unsubscribeMailbox asked _ => asked = user
  | getMailbox id _ | getMailboxCounters id | deleteMailbox id | getMailboxMessages id
  | search id | appendMessage id | copyMessages _ id => obtained id
  | createMailbox path => path.user = user
  | renameMailbox id path => obtained id ∧ path.user = user
  | getMessage _ | getMessageFlags _ | setFlags _ | deleteMessages _ => True

theorem IsFor.mono {user : Username} {obtained wider : MailboxId → Prop} {event : StoreEvent}
    (holds : event.IsFor user obtained) (grows : ∀ id, obtained id → wider id) :
    event.IsFor user wider := by
  cases event with
  | renameMailbox id path => exact ⟨grows id holds.1, holds.2⟩
  | listMailboxes | getUserInbox | listSubscriptions | subscribeMailbox
  | unsubscribeMailbox | createMailbox => exact holds
  | getMailbox | getMailboxCounters | deleteMailbox | getMailboxMessages | search
  | appendMessage | copyMessages => exact grows _ holds
  | getMessage | getMessageFlags | setFlags | deleteMessages => exact trivial

end StoreEvent

abbrev Recorded (σ : Type) := σ × List StoreEvent

def noting (event : Except Text Value → StoreEvent) (action : Effect Text σ Value) :
    Effect Text (Recorded σ) Value := fun state =>
  let (outcome, store) := action state.1
  (outcome, (store, event outcome :: state.2))

def givenIds (outcome : Except Text (List Mailbox)) : List MailboxId :=
  (outcome.toOption.getD []).map Mailbox.id

def recordedMailboxStore (store : MailboxStore σ) : MailboxStore (Recorded σ) where
  createMailbox path := noting (fun _ => .createMailbox path) (store.createMailbox path)
  createMailboxWithSpecialUse path uses :=
    noting (fun _ => .createMailbox path) (store.createMailboxWithSpecialUse path uses)
  deleteMailbox id := noting (fun _ => .deleteMailbox id) (store.deleteMailbox id)
  renameMailbox id path := noting (fun _ => .renameMailbox id path) (store.renameMailbox id path)
  getMailbox id :=
    noting (fun outcome => .getMailbox id ((outcome.toOption.getD none).map Mailbox.id))
      (store.getMailbox id)
  listMailboxes user :=
    noting (fun outcome => .listMailboxes user (givenIds outcome)) (store.listMailboxes user)
  getUserInbox user :=
    noting (fun outcome => .getUserInbox user (outcome.toOption.getD none)) (store.getUserInbox user)
  subscribeMailbox user name :=
    noting (fun _ => .subscribeMailbox user name) (store.subscribeMailbox user name)
  unsubscribeMailbox user name :=
    noting (fun _ => .unsubscribeMailbox user name) (store.unsubscribeMailbox user name)
  listSubscriptions user := noting (fun _ => .listSubscriptions user) (store.listSubscriptions user)

def recordedMessageStore (store : MessageStore σ) : MessageStore (Recorded σ) where
  appendMessage id mail := noting (fun _ => .appendMessage id) (store.appendMessage id mail)
  getMessage id := noting (fun _ => .getMessage id) (store.getMessage id)
  deleteMessages ids := noting (fun _ => .deleteMessages ids) (store.deleteMessages ids)
  setFlags ids flags := noting (fun _ => .setFlags ids) (store.setFlags ids flags)
  getMessageFlags id := noting (fun _ => .getMessageFlags id) (store.getMessageFlags id)
  search id criteria := noting (fun _ => .search id) (store.search id criteria)
  copyMessages ids dest := noting (fun _ => .copyMessages ids dest) (store.copyMessages ids dest)
  getMailboxMessages id := noting (fun _ => .getMailboxMessages id) (store.getMailboxMessages id)

def recordedMetadataStore (store : MetadataStore σ) : MetadataStore (Recorded σ) where
  getMailboxCounters id := noting (fun _ => .getMailboxCounters id) (store.getMailboxCounters id)

/-- The backend with the users for which `authenticate` returned true. -/
abbrev Vouching (β : Type) := β × List Username

def vouchingFor (user : Username) (action : Effect Text β Bool) : Effect Text (Vouching β) Bool :=
  fun state =>
    let (outcome, backend) := action state.1
    match outcome with
    | .ok true => (outcome, (backend, user :: state.2))
    | _ => (outcome, (backend, state.2))

def unrecorded (action : Effect Text β Value) : Effect Text (Vouching β) Value :=
  Effect.focus Prod.fst (fun state backend => (backend, state.2)) action

def recordedBackend (backend : AuthBackend β) : AuthBackend (Vouching β) where
  authenticate user password := vouchingFor user (backend.authenticate user password)
  verifyIdentity user := unrecorded (backend.verifyIdentity user)
  getScramParams user := unrecorded (backend.getScramParams user)
  getScramStoredKey user := unrecorded (backend.getScramStoredKey user)
  getScramServerKey user := unrecorded (backend.getScramServerKey user)
  getApopSecret user := unrecorded (backend.getApopSecret user)
  verifyBearerToken token := unrecorded (backend.verifyBearerToken token)

def recordedContext (ctx : HandlerContext σ β) : HandlerContext (Recorded σ) (Vouching β) where
  toCaseMapping := ctx.toCaseMapping
  mailboxStore := recordedMailboxStore ctx.mailboxStore
  messageStore := recordedMessageStore ctx.messageStore
  metadataStore := recordedMetadataStore ctx.metadataStore
  authBackend := recordedBackend ctx.authBackend
  toUppercase := ctx.toUppercase
  newUuid := ctx.newUuid

def Obtained (log : List StoreEvent) (user : Username) (id : MailboxId) : Prop :=
  (∃ given, .listMailboxes user given ∈ log ∧ id ∈ given) ∨ .getUserInbox user (some id) ∈ log

def Faithful (log : List StoreEvent) : Prop :=
  ∀ id found, .getMailbox id (some found) ∈ log → found = id

theorem Obtained.later {log : List StoreEvent} {user : Username} {id : MailboxId}
    (obtained : Obtained log user id) (event : StoreEvent) : Obtained (event :: log) user id := by
  rcases obtained with ⟨given, listed, member⟩ | inbox
  · exact .inl ⟨given, List.mem_cons_of_mem _ listed, member⟩
  · exact .inr (List.mem_cons_of_mem _ inbox)

theorem Faithful.earlier {log earlier : List StoreEvent} (faithful : Faithful log)
    (before : earlier <:+ log) : Faithful earlier :=
  fun id found recorded => faithful id found (before.subset recorded)

def ObtainedFaithfully (log : List StoreEvent) (user : Username) (id : MailboxId) : Prop :=
  Faithful log → Obtained log user id

theorem ObtainedFaithfully.later {log : List StoreEvent} {user : Username} {id : MailboxId}
    (obtained : ObtainedFaithfully log user id) (event : StoreEvent) :
    ObtainedFaithfully (event :: log) user id :=
  fun faithful => (obtained (faithful.earlier (List.suffix_cons _ _))).later event

def recordedKnown (store : Recorded σ) : Username → MailboxId → Prop :=
  ObtainedFaithfully store.2

def recordedProven (backend : Vouching β) (user : Username) : Prop := user ∈ backend.2

theorem storeCall_recorded {ctx : HandlerContext σ β} {chosen : Choice} {session : ImapSession}
    {store next : Recorded σ}
    (call : StoreCall (recordedContext ctx) recordedKnown chosen session store next) :
    ∃ user event, session.ActsFor user ∧ next.2 = event :: store.2 ∧
      event.IsFor user (ObtainedFaithfully store.2 user) := by
  cases call with
  | listMailboxes acts => exact ⟨_, _, acts, rfl, rfl⟩
  | getUserInbox acts => exact ⟨_, _, acts, rfl, rfl⟩
  | getMailbox acts given => exact ⟨_, _, acts, rfl, given⟩
  | getMailboxCounters acts given => exact ⟨_, _, acts, rfl, given⟩
  | listSubscriptions acts => exact ⟨_, _, acts, rfl, rfl⟩
  | subscribeMailbox acts name => exact ⟨_, _, acts, rfl, rfl⟩
  | unsubscribeMailbox acts name => exact ⟨_, _, acts, rfl, rfl⟩
  | createMailbox acts path => exact ⟨_, _, acts, rfl, rfl⟩
  | createMailboxWithSpecialUse acts path uses => exact ⟨_, _, acts, rfl, rfl⟩
  | deleteMailbox acts given picked => exact ⟨_, _, acts, rfl, given⟩
  | renameMailbox acts given path => exact ⟨_, _, acts, rfl, given, rfl⟩
  | getMailboxMessages acts given => exact ⟨_, _, acts, rfl, given⟩
  | search acts given criteria => exact ⟨_, _, acts, rfl, given⟩
  | getMessage acts id => exact ⟨_, _, acts, rfl, trivial⟩
  | appendMessage acts given mail => exact ⟨_, _, acts, rfl, given⟩
  | copyMessages acts given ids => exact ⟨_, _, acts, rfl, given⟩
  | setFlags acts flags => exact ⟨_, _, acts, rfl, trivial⟩
  | deleteMessages acts => exact ⟨_, _, acts, rfl, trivial⟩

theorem noting_eq_ok {event : Except Text Value → StoreEvent} {action : Effect Text σ Value}
    {store after : Recorded σ} {value : Value}
    (ran : noting event action store = (.ok value, after)) :
    after.2 = event (.ok value) :: store.2 := by
  rcases asked : action store.1 with ⟨outcome, next⟩
  rw [noting, asked, Prod.mk.injEq] at ran
  obtain ⟨rfl, rfl⟩ := ran
  rfl

theorem recorded_knowledge (ctx : HandlerContext σ β) :
    Knowledge (recordedContext ctx) recordedKnown recordedProven where
  listed := by
    intro user store mailboxes after ran mailbox member _
    have noted : noting (fun outcome => .listMailboxes user (givenIds outcome))
        (ctx.mailboxStore.listMailboxes user) store = (.ok mailboxes, after) := ran
    rw [noting_eq_ok noted]
    exact .inl ⟨_, List.mem_cons_self, List.mem_map_of_mem member⟩
  inbox := by
    intro user store id after ran _
    have noted : noting (fun outcome => .getUserInbox user (outcome.toOption.getD none))
        (ctx.mailboxStore.getUserInbox user) store = (.ok (some id), after) := ran
    rw [noting_eq_ok noted]
    exact .inr List.mem_cons_self
  fetched := by
    intro user store id mailbox after known ran
    have noted : noting
        (fun outcome => .getMailbox id ((outcome.toOption.getD none).map Mailbox.id))
        (ctx.mailboxStore.getMailbox id) store = (.ok (some mailbox), after) := ran
    have recorded := noting_eq_ok noted
    intro faithful
    rw [recorded] at faithful
    have same : mailbox.id = id := faithful id mailbox.id List.mem_cons_self
    rw [same, recorded]
    exact known.later _ faithful
  granted := by
    intro user password backend after ran
    rcases asked : ctx.authBackend.authenticate user password backend.1 with ⟨outcome, next⟩
    have vouched : vouchingFor user (ctx.authBackend.authenticate user password) backend =
        (.ok true, after) := ran
    rw [vouchingFor, asked] at vouched
    match outcome with
    | .ok true =>
        obtain rfl := (Prod.mk.inj vouched).2
        exact List.mem_cons_self
    | .ok false => cases (Prod.mk.inj vouched).1
    | .error error => cases (Prod.mk.inj vouched).1
  stays := by
    intro chosen session store next user id call known
    obtain ⟨_, event, _, recorded, _⟩ := storeCall_recorded call
    rw [recordedKnown, recorded]
    exact ObtainedFaithfully.later known event

/-- A session keeps to its user, with a given notion of the mailboxes obtained. -/
structure Confined (obtained : List StoreEvent → Username → MailboxId → Prop)
    (world : World (Recorded σ) (Vouching β)) : Prop
    extends Sound (fun store => obtained store.2) recordedProven world where
  calls : ∀ {event earlier}, event :: earlier <:+ world.store.2 →
    ∃ user, world.session.username = some user ∧ event.IsFor user (obtained earlier user)
  fresh : world.session.state = .notAuthenticated → world.store.2 = []

theorem Confined.faithful {world : World (Recorded σ) (Vouching β)}
    (confined : Confined ObtainedFaithfully world) (faithful : Faithful world.store.2) :
    Confined Obtained world where
  user := confined.user
  mailbox := by
    intro id held
    obtain ⟨user, named, obtained⟩ := confined.mailbox held
    exact ⟨user, named, obtained faithful⟩
  calls := by
    intro event earlier before
    obtain ⟨user, named, isFor⟩ := confined.calls before
    have kept : Faithful earlier :=
      faithful.earlier ((List.suffix_cons event earlier).trans before)
    exact ⟨user, named, isFor.mono fun id obtained => obtained kept⟩
  fresh := confined.fresh

section Step

variable {ctx : HandlerContext σ β} {chosen : Choice} {compressing : Prop}
  {world after : World (Recorded σ) (Vouching β)}

theorem Confined.called {next : Recorded σ} {user : Username} {event : StoreEvent}
    (confined : Confined ObtainedFaithfully world)
    (named : world.session.username = some user) (recorded : next.2 = event :: world.store.2)
    (isFor : event.IsFor user (ObtainedFaithfully world.store.2 user))
    {made : StoreEvent} {earlier : List StoreEvent} (before : made :: earlier <:+ next.2) :
    ∃ user, world.session.username = some user ∧
      made.IsFor user (ObtainedFaithfully earlier user) := by
  rw [recorded, List.suffix_cons_iff] at before
  rcases before with latest | before
  · obtain ⟨rfl, rfl⟩ := List.cons.inj latest
    exact ⟨user, named, isFor⟩
  · exact confined.calls before

theorem Confined.action (confined : Confined ObtainedFaithfully world)
    (action : Action (recordedContext ctx) recordedKnown recordedProven chosen compressing world
      after) :
    Confined ObtainedFaithfully after := by
  refine ⟨confined.toSound.action (recorded_knowledge ctx) action, ?_, ?_⟩
  · intro event earlier before
    cases action with
    | store call =>
        obtain ⟨user, event, acts, recorded, isFor⟩ := storeCall_recorded call
        exact confined.called acts.2 recorded isFor before
    | login fresh tag vouched =>
        have unused : world.store.2 = [] := confined.fresh fresh
        change event :: earlier <:+ world.store.2 at before
        rw [unused] at before
        exact absurd before (by simp)
    | authenticate | logout | select | idle | close | watch | compress | publish | draw =>
        exact confined.calls before
  · intro fresh
    cases action with
    | store call =>
        obtain ⟨user, event, acts, _⟩ := storeCall_recorded call
        exact absurd fresh acts.active.1
    | login | logout | select | idle | close => cases fresh
    | authenticate | watch | compress | publish | draw => exact confined.fresh fresh

theorem Confined.reaches (confined : Confined ObtainedFaithfully world)
    (reaches : Reaches (recordedContext ctx) recordedKnown recordedProven chosen compressing world
      after) :
    Confined ObtainedFaithfully after := by
  induction reaches with
  | refl => exact confined
  | tail _ action ih => exact ih.action action

theorem loggedOut_reaches (out : world.session.state = .logout)
    (reaches : Reaches (recordedContext ctx) recordedKnown recordedProven chosen compressing world
      after) :
    after.session.state = .logout ∧ after.store = world.store := by
  induction reaches with
  | refl => exact ⟨out, rfl⟩
  | tail _ action ih =>
      obtain ⟨state, same⟩ := ih
      cases action with
      | store call =>
          obtain ⟨_, _, acts, _⟩ := storeCall_recorded call
          exact absurd state acts.active.2
      | authenticate fresh => cases state.symm.trans fresh
      | login fresh => cases state.symm.trans fresh
      | logout => exact ⟨rfl, same⟩
      | select acts => exact absurd state acts.active.2
      | idle selected => cases state.symm.trans selected
      | close selected => cases state.symm.trans selected
      | watch registry receiver => exact ⟨state, same⟩
      | compress asked => exact ⟨state, same⟩
      | publish registry => exact ⟨state, same⟩
      | draw draws => exact ⟨state, same⟩

end Step

/-! Runs of a session. -/

/-- A step of one session: a command, what the loop does between commands, and whatever
other sessions do to the stores they share. -/
inductive SessionStep (ctx : HandlerContext σ β) (world : World (Recorded σ) (Vouching β)) :
    World (Recorded σ) (Vouching β) → Prop
  | command (tag : Text) (command : ImapCommand) :
      SessionStep ctx world (handleCommand (recordedContext ctx) tag command world).2
  | settle (receiver : Option Receiver) :
      SessionStep ctx world
        { world with
          session := { world.session with mailboxEventRx := receiver, compressPending := false } }
  | poll {id : MailboxId} (idling : world.session.state = .idle id) :
      SessionStep ctx world
        { world with
          store := ((recordedContext ctx).metadataStore.getMailboxCounters id world.store).2 }
  | wake {id : MailboxId} (idling : world.session.state = .idle id) (tag : Option Text)
      (receiver : Option Receiver) :
      SessionStep ctx world
        { world with
          session :=
            { world.session with state := .selected id, tag, mailboxEventRx := receiver } }
  | others (store : σ) (backend : β) (registry : MailboxRegistry) :
      SessionStep ctx world
        { world with
          store := (store, world.store.2), backend := (backend, world.backend.2), registry }

abbrev SessionRun (ctx : HandlerContext σ β) :=
  Relation.ReflTransGen (SessionStep ctx)

section Run

variable {ctx : HandlerContext σ β} {start world later : World (Recorded σ) (Vouching β)}

theorem Confined.step (confined : Confined ObtainedFaithfully world)
    (step : SessionStep ctx world later) : Confined ObtainedFaithfully later := by
  cases step with
  | command tag command =>
      exact confined.reaches (handleCommand_within (recorded_knowledge ctx) confined.toSound command)
  | settle receiver => exact ⟨⟨confined.user, confined.mailbox⟩, confined.calls, confined.fresh⟩
  | @poll id idling =>
      obtain ⟨user, named, obtained⟩ := confined.mailbox (.inr idling)
      have isFor : (StoreEvent.getMailboxCounters id).IsFor user
          (ObtainedFaithfully world.store.2 user) := obtained
      refine ⟨⟨confined.user, ?_⟩, ?_, ?_⟩
      · intro id held
        obtain ⟨holder, named, obtained⟩ := confined.mailbox held
        exact ⟨holder, named, obtained.later _⟩
      · intro event earlier before
        exact confined.called named rfl isFor before
      · exact fun fresh => absurd fresh (idling ▸ ImapState.active_idle _).1
  | wake idling tag receiver =>
      refine ⟨confined.moves (idling ▸ ImapState.active_idle _) rfl ?_, confined.calls, nofun⟩
      rintro id (held | held) <;> cases held
      exact confined.mailbox (.inr idling)
  | others store backend registry =>
      exact ⟨⟨confined.user, confined.mailbox⟩, confined.calls, confined.fresh⟩

theorem Confined.run (confined : Confined ObtainedFaithfully start)
    (run : SessionRun ctx start world) : Confined ObtainedFaithfully world := by
  induction run with
  | refl => exact confined
  | tail _ step ih => exact ih.step step

structure NewSession (world : World (Recorded σ) (Vouching β)) : Prop where
  session : world.session = .new
  calls : world.store.2 = []
  vouched : world.backend.2 = []

theorem NewSession.confined (new : NewSession start) : Confined ObtainedFaithfully start := by
  refine ⟨⟨?_, ?_⟩, ?_, fun _ => new.calls⟩
  · rw [new.session]
    exact fun active => absurd rfl active.1
  · rw [new.session]
    rintro id (held | held) <;> cases held
  · intro event earlier before
    rw [new.calls] at before
    exact absurd before (by simp)

theorem loggedOut_step (confined : Confined ObtainedFaithfully world)
    (out : world.session.state = .logout) (step : SessionStep ctx world later) :
    later.session.state = .logout ∧ later.store.2 = world.store.2 := by
  cases step with
  | command tag command =>
      obtain ⟨state, same⟩ := loggedOut_reaches out
        (@handleCommand_within _ _ _ _ _ _ tag (recorded_knowledge ctx) confined.toSound command)
      exact ⟨state, congrArg Prod.snd same⟩
  | settle receiver => exact ⟨out, rfl⟩
  | poll idling => cases out.symm.trans idling
  | wake idling => cases out.symm.trans idling
  | others store backend registry => exact ⟨out, rfl⟩

theorem loggedOut_run (confined : Confined ObtainedFaithfully world)
    (out : world.session.state = .logout) (run : SessionRun ctx world later) :
    later.session.state = .logout ∧ later.store.2 = world.store.2 := by
  induction run with
  | refl => exact ⟨out, rfl⟩
  | tail earlier step ih =>
      obtain ⟨state, same⟩ := loggedOut_step (confined.run earlier) ih.1 step
      exact ⟨state, same.trans ih.2⟩

/-- A session acts for a user who has logged in, on mailboxes that user was given, and
for nobody once it has logged out. -/
theorem session_isolated (ctx : HandlerContext σ β) (new : NewSession start)
    (run : SessionRun ctx start world) (faithful : Faithful world.store.2) :
    Confined Obtained world ∧
      ∀ tag later, SessionRun ctx (handleCommand (recordedContext ctx) tag .logout world).2 later →
        later.session.state = .logout ∧ later.store.2 = world.store.2 := by
  have confined := new.confined.run run
  refine ⟨confined.faithful faithful, ?_⟩
  intro tag later rest
  have closing : SessionStep ctx world (handleCommand (recordedContext ctx) tag .logout world).2 :=
    .command tag .logout
  have ended := loggedOut_run (confined.step closing) rfl rest
  exact ended

end Run

def newcomer : World (Recorded Filesystem) (Vouching Unit) :=
  ⟨(Filesystem.freshStore, []), ((), []), ∅, .new, 0⟩

theorem session_isolated_select : ∃ world, SessionRun plainContext newcomer world ∧
    world.session.state = .selected Filesystem.inboxId ∧ Confined Obtained world := by
  have login : SessionRun plainContext newcomer _ :=
    .single (.command "a".toList (.login "alice".toList "zebra".toList))
  have select := login.tail (.command "b".toList (.select "INBOX".toList))
  refine ⟨_, select, rfl, ?_⟩
  have isolated := session_isolated plainContext ⟨rfl, rfl, rfl⟩ select ?_
  · exact isolated.1
  · intro id found asked
    change _ ∈ [StoreEvent.getMailboxCounters Filesystem.inboxId,
      .getMailbox Filesystem.inboxId (some Filesystem.inboxId),
      .getUserInbox aliceUser (some Filesystem.inboxId)] at asked
    simp only [List.mem_cons, List.not_mem_nil, or_false, reduceCtorEq, false_or,
      StoreEvent.getMailbox.injEq, Option.some.injEq] at asked
    rw [asked.1, asked.2]

end Rusmes
