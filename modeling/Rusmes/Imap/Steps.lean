import Mathlib.Logic.Relation
import Rusmes.Imap.Messages

/-!
What a command can do to its world. Every handler is a sequence of single actions: a
call of a store, a login, a change of the session's state. Each action is listed here
once with what the handlers have checked before it; claims about whole runs follow
by a case analysis over the list.
-/

namespace Rusmes

open WireText ImapResponse

variable {σ β Value Result : Type}

def ImapSession.ActsFor (session : ImapSession) (user : Username) : Prop :=
  session.state.isAuthenticated = true ∧ session.username = some user

def ImapState.Active (state : ImapState) : Prop := state ≠ .notAuthenticated ∧ state ≠ .logout

theorem ImapState.active_selected (id : MailboxId) : (selected id).Active := ⟨nofun, nofun⟩

theorem ImapState.active_idle (id : MailboxId) : (idle id).Active := ⟨nofun, nofun⟩

theorem ImapSession.ActsFor.active {session : ImapSession} {user : Username}
    (acts : session.ActsFor user) : session.state.Active := by
  constructor
  · intro state
    cases (state ▸ acts.1 : ImapState.notAuthenticated.isAuthenticated = true)
  · intro state
    cases (state ▸ acts.1 : ImapState.logout.isAuthenticated = true)

structure Choice where
  messages : List MessageId
  mailbox : Option MailboxId

/-- The store after a call that the handlers may make. `known` tells which mailboxes
the user has been given, `chosen` what the command picks. -/
inductive StoreCall (ctx : HandlerContext σ β) (known : σ → Username → MailboxId → Prop)
    (chosen : Choice) (session : ImapSession) (store : σ) : σ → Prop
  | listMailboxes {user} (acts : session.ActsFor user) :
      StoreCall ctx known chosen session store (ctx.mailboxStore.listMailboxes user store).2
  | getUserInbox {user} (acts : session.ActsFor user) :
      StoreCall ctx known chosen session store (ctx.mailboxStore.getUserInbox user store).2
  | getMailbox {user id} (acts : session.ActsFor user) (given : known store user id) :
      StoreCall ctx known chosen session store (ctx.mailboxStore.getMailbox id store).2
  | getMailboxCounters {user id} (acts : session.ActsFor user) (given : known store user id) :
      StoreCall ctx known chosen session store (ctx.metadataStore.getMailboxCounters id store).2
  | listSubscriptions {user} (acts : session.ActsFor user) :
      StoreCall ctx known chosen session store (ctx.mailboxStore.listSubscriptions user store).2
  | subscribeMailbox {user} (acts : session.ActsFor user) (name : Text) :
      StoreCall ctx known chosen session store (ctx.mailboxStore.subscribeMailbox user name store).2
  | unsubscribeMailbox {user} (acts : session.ActsFor user) (name : Text) :
      StoreCall ctx known chosen session store (ctx.mailboxStore.unsubscribeMailbox user name store).2
  | createMailbox {user} (acts : session.ActsFor user) (path : List Text) :
      StoreCall ctx known chosen session store (ctx.mailboxStore.createMailbox ⟨user, path⟩ store).2
  | createMailboxWithSpecialUse {user} (acts : session.ActsFor user) (path uses : List Text) :
      StoreCall ctx known chosen session store
        (ctx.mailboxStore.createMailboxWithSpecialUse ⟨user, path⟩ uses store).2
  | deleteMailbox {user id} (acts : session.ActsFor user) (given : known store user id)
      (picked : chosen.mailbox = some id) :
      StoreCall ctx known chosen session store (ctx.mailboxStore.deleteMailbox id store).2
  | renameMailbox {user id} (acts : session.ActsFor user) (given : known store user id)
      (path : List Text) :
      StoreCall ctx known chosen session store (ctx.mailboxStore.renameMailbox id ⟨user, path⟩ store).2
  | getMailboxMessages {user id} (acts : session.ActsFor user) (given : known store user id) :
      StoreCall ctx known chosen session store (ctx.messageStore.getMailboxMessages id store).2
  | search {user id} (acts : session.ActsFor user) (given : known store user id)
      (criteria : List Text) :
      StoreCall ctx known chosen session store
        (ctx.messageStore.search id (parseSearchCriteria ctx criteria) store).2
  | getMessage {user} (acts : session.ActsFor user) (id : MessageId) :
      StoreCall ctx known chosen session store (ctx.messageStore.getMessage id store).2
  | appendMessage {user id} (acts : session.ActsFor user) (given : known store user id)
      (mail : Mail) :
      StoreCall ctx known chosen session store (ctx.messageStore.appendMessage id mail store).2
  | copyMessages {user id} (acts : session.ActsFor user) (given : known store user id)
      (ids : List MessageId) :
      StoreCall ctx known chosen session store (ctx.messageStore.copyMessages ids id store).2
  | setFlags {user} (acts : session.ActsFor user) (flags : MessageFlags) :
      StoreCall ctx known chosen session store (ctx.messageStore.setFlags chosen.messages flags store).2
  | deleteMessages {user} (acts : session.ActsFor user) :
      StoreCall ctx known chosen session store (ctx.messageStore.deleteMessages chosen.messages store).2

/-- One action of a handler. `proven` tells for which users the authentication backend
has vouched, `compressing` whether the command is COMPRESS. -/
inductive Action (ctx : HandlerContext σ β) (known : σ → Username → MailboxId → Prop)
    (proven : β → Username → Prop) (chosen : Choice) (compressing : Prop) (world : World σ β) :
    World σ β → Prop
  | store {next} (call : StoreCall ctx known chosen world.session world.store next) :
      Action ctx known proven chosen compressing world { world with store := next }
  | authenticate (fresh : world.session.state = .notAuthenticated) (user : Username)
      (password : Text) :
      Action ctx known proven chosen compressing world
        { world with backend := (ctx.authBackend.authenticate user password world.backend).2 }
  | login (fresh : world.session.state = .notAuthenticated) (tag : Text) {user : Username}
      (vouched : proven world.backend user) :
      Action ctx known proven chosen compressing world
        { world with
          session :=
            { world.session with
              state := .authenticated, tag := some tag, username := some user } }
  | logout :
      Action ctx known proven chosen compressing world
        { world with session := { world.session with state := .logout } }
  | select {user id} (acts : world.session.ActsFor user) (given : known world.store user id) :
      Action ctx known proven chosen compressing world
        { world with session := { world.session with state := .selected id } }
  | watch (registry : MailboxRegistry) (receiver : Receiver) :
      Action ctx known proven chosen compressing world
        { world with registry, session := { world.session with mailboxEventRx := some receiver } }
  | idle {id} (selected : world.session.state = .selected id) (tag : Text)
      (snapshot : MailboxSnapshot) :
      Action ctx known proven chosen compressing world
        { world with
          session :=
            { world.session with
              mailboxSnapshot := some snapshot, state := .idle id, tag := some tag } }
  | close {id} (selected : world.session.state = .selected id) :
      Action ctx known proven chosen compressing world
        { world with
          session := { world.session with state := .authenticated, mailboxEventRx := none } }
  | compress (asked : compressing) :
      Action ctx known proven chosen compressing world
        { world with session := { world.session with compressPending := true } }
  | publish (registry : MailboxRegistry) :
      Action ctx known proven chosen compressing world { world with registry }
  | draw (draws : Nat) : Action ctx known proven chosen compressing world { world with draws }

/-- What a user has been given stays given, and the answers of the stores and the backend
give it. -/
structure Knowledge (ctx : HandlerContext σ β) (known : σ → Username → MailboxId → Prop)
    (proven : β → Username → Prop) : Prop where
  listed : ∀ {user store mailboxes after},
    ctx.mailboxStore.listMailboxes user store = (.ok mailboxes, after) →
    ∀ mailbox ∈ mailboxes, known after user mailbox.id
  inbox : ∀ {user store id after},
    ctx.mailboxStore.getUserInbox user store = (.ok (some id), after) → known after user id
  fetched : ∀ {user store id mailbox after}, known store user id →
    ctx.mailboxStore.getMailbox id store = (.ok (some mailbox), after) →
    known after user mailbox.id
  granted : ∀ {user password backend after},
    ctx.authBackend.authenticate user password backend = (.ok true, after) → proven after user
  stays : ∀ {chosen session store next user id}, StoreCall ctx known chosen session store next →
    known store user id → known next user id

/-- A session that acts for a user acts for one the backend vouched for, and has only
mailboxes open that this user was given. -/
structure Sound (known : σ → Username → MailboxId → Prop) (proven : β → Username → Prop)
    (world : World σ β) : Prop where
  user : world.session.state.Active →
    ∃ user, world.session.username = some user ∧ proven world.backend user
  mailbox : ∀ {id}, world.session.state = .selected id ∨ world.session.state = .idle id →
    ∃ user, world.session.username = some user ∧ known world.store user id

section Sound

variable {ctx : HandlerContext σ β} {known : σ → Username → MailboxId → Prop}
  {proven : β → Username → Prop} {chosen : Choice} {compressing : Prop} {world after : World σ β}

theorem Sound.moves {session : ImapSession} (sound : Sound known proven world)
    (active : world.session.state.Active) (named : session.username = world.session.username)
    (held : ∀ {id}, session.state = .selected id ∨ session.state = .idle id →
      ∃ user, world.session.username = some user ∧ known world.store user id) :
    Sound known proven { world with session } := by
  constructor
  · intro _
    change ∃ user, session.username = some user ∧ proven world.backend user
    rw [named]
    exact sound.user active
  · intro id state
    change ∃ user, session.username = some user ∧ known world.store user id
    rw [named]
    exact held state

theorem Sound.action (knows : Knowledge ctx known proven) (sound : Sound known proven world)
    (action : Action ctx known proven chosen compressing world after) :
    Sound known proven after := by
  cases action with
  | store call =>
      refine ⟨sound.user, ?_⟩
      intro id held
      obtain ⟨user, named, given⟩ := sound.mailbox held
      exact ⟨user, named, knows.stays call given⟩
  | authenticate fresh user password => exact ⟨fun active => absurd fresh active.1, sound.mailbox⟩
  | login fresh tag vouched =>
      refine ⟨fun _ => ⟨_, rfl, vouched⟩, ?_⟩
      rintro id (held | held) <;> cases held
  | logout =>
      refine ⟨fun active => absurd rfl active.2, ?_⟩
      rintro id (held | held) <;> cases held
  | select acts given =>
      refine sound.moves acts.active rfl ?_
      rintro id (held | held) <;> cases held
      exact ⟨_, acts.2, given⟩
  | idle selected tag snapshot =>
      refine sound.moves (selected ▸ ImapState.active_selected _) rfl ?_
      rintro id (held | held) <;> cases held
      exact sound.mailbox (.inl selected)
  | close selected =>
      refine sound.moves (selected ▸ ImapState.active_selected _) rfl ?_
      rintro id (held | held) <;> cases held
  | watch registry receiver => exact ⟨sound.user, sound.mailbox⟩
  | compress asked => exact ⟨sound.user, sound.mailbox⟩
  | publish registry => exact ⟨sound.user, sound.mailbox⟩
  | draw draws => exact ⟨sound.user, sound.mailbox⟩

abbrev Manned (world : World σ β) : Prop := Sound (fun _ _ _ => True) (fun _ _ => True) world

theorem anything_known (ctx : HandlerContext σ β) :
    Knowledge ctx (fun _ _ _ => True) (fun _ _ => True) where
  listed _ _ _ := trivial
  inbox _ := trivial
  fetched _ _ := trivial
  granted _ := trivial
  stays _ _ := trivial

end Sound

section Within

variable {ctx : HandlerContext σ β} {known : σ → Username → MailboxId → Prop}
  {proven : β → Username → Prop} {chosen : Choice} {compressing : Prop} {world : World σ β}

abbrev Reaches (ctx : HandlerContext σ β) (known : σ → Username → MailboxId → Prop)
    (proven : β → Username → Prop) (chosen : Choice) (compressing : Prop) :
    World σ β → World σ β → Prop :=
  Relation.ReflTransGen (Action ctx known proven chosen compressing)

theorem Sound.reaches {after : World σ β} (knows : Knowledge ctx known proven)
    (sound : Sound known proven world)
    (reaches : Reaches ctx known proven chosen compressing world after) :
    Sound known proven after := by
  induction reaches with
  | refl => exact sound
  | tail _ action ih => exact ih.action knows action

def Within (ctx : HandlerContext σ β) (known : σ → Username → MailboxId → Prop)
    (proven : β → Username → Prop) (chosen : Choice) (compressing : Prop) (world : World σ β)
    (program : Handler σ β Value) : Prop :=
  Reaches ctx known proven chosen compressing world (program world).2

theorem within_pure (value : Value) :
    Within ctx known proven chosen compressing world (pure value) := .refl

theorem within_bind {first : Handler σ β Value} {next : Value → Handler σ β Result}
    (starts : Within ctx known proven chosen compressing world first)
    (goes : ∀ value after, first world = (.ok value, after) →
      Within ctx known proven chosen compressing after (next value)) :
    Within ctx known proven chosen compressing world (first >>= next) := by
  rcases ran : first world with ⟨outcome, after⟩
  rw [Within, ran] at starts
  cases outcome with
  | error error =>
      rw [Within, Effect.bind_error ran]
      exact starts
  | ok value =>
      rw [Within, Effect.bind_ok ran]
      exact starts.trans (goes value after ran)

theorem within_action {change : World σ β → World σ β} {next : Unit → Handler σ β Result}
    (allowed : Action ctx known proven chosen compressing world (change world))
    (goes : Within ctx known proven chosen compressing (change world) (next ())) :
    Within ctx known proven chosen compressing world (Effect.modify change >>= next) :=
  Relation.ReflTransGen.head allowed goes

theorem within_onStore {action : Effect Text σ Value} {next : Value → Handler σ β Result}
    (call : StoreCall ctx known chosen world.session world.store (action world.store).2)
    (goes : ∀ value after, action world.store = (.ok value, after) →
      Within ctx known proven chosen compressing { world with store := after } (next value)) :
    Within ctx known proven chosen compressing world (onStore action >>= next) := by
  apply within_bind
  · exact Relation.ReflTransGen.single (Action.store call)
  · intro value after ran
    rcases parts : action world.store with ⟨outcome, store⟩
    rw [onStore, Effect.focus_apply, parts, Prod.mk.injEq] at ran
    obtain ⟨rfl, rfl⟩ := ran
    exact goes value store parts

theorem within_asUser {tag : Text} {handle : Username → Handler σ β ImapResponse}
    (goes : ∀ user, world.session.ActsFor user →
      Within ctx known proven chosen compressing world (handle user)) :
    Within ctx known proven chosen compressing world (asUser tag handle) := by
  rw [Within, asUser, Effect.read_bind]
  by_cases authenticated : world.session.state.isAuthenticated = true
  · rw [if_pos authenticated]
    cases username : world.session.username with
    | none => exact .refl
    | some user => exact goes user ⟨authenticated, username⟩
  · rw [if_neg authenticated]
    exact .refl

theorem within_inMailbox (sound : Sound known proven world) {tag : Text}
    {handle : MailboxId → Handler σ β ImapResponse}
    (goes : ∀ id user, world.session.state = .selected id → world.session.ActsFor user →
      known world.store user id → Within ctx known proven chosen compressing world (handle id)) :
    Within ctx known proven chosen compressing world (inMailbox tag handle) := by
  rw [Within, inMailbox, Effect.read_bind]
  cases state : world.session.state with
  | selected id =>
      obtain ⟨user, username, given⟩ := sound.mailbox (Or.inl state)
      exact goes id user state ⟨by rw [state]; rfl, username⟩ given
  | notAuthenticated => exact .refl
  | authenticated => exact .refl
  | idle id => exact .refl
  | logout => exact .refl

end Within

def pickSelected (world : World σ β) (program : MailboxId → Handler σ β (List MessageId)) :
    List MessageId :=
  match world.session.state with
  | .selected id => (program id world).1.toOption.getD []
  | _ => []

def uidIds (ctx : HandlerContext σ β) (sequence : Text) (id : MailboxId) :
    Handler σ β (List MessageId) := do
  let messages ← onStore (ctx.messageStore.getMailboxMessages id)
  let chosen ← chosenByUid sequence messages
  return chosen.map MessageMetadata.messageId

def expungeIds (ctx : HandlerContext σ β) (id : MailboxId) : Handler σ β (List MessageId) := do
  let messages ← onStore (ctx.messageStore.getMailboxMessages id)
  let removed := expungeChoice (fun metadata => metadata.flags.deleted) messages
  return removed.map fun entry => entry.2.messageId

def uidExpungeIds (ctx : HandlerContext σ β) (sequence : Text) (id : MailboxId) :
    Handler σ β (List MessageId) := do
  let messages ← onStore (ctx.messageStore.getMailboxMessages id)
  let uids ← Effect.ofExcept (parseUidSequenceSet sequence messages)
  let removed := expungeChoice
    (fun metadata => uids.contains metadata.uid && metadata.flags.deleted) messages
  return removed.map fun entry => entry.2.messageId

def closeIds (ctx : HandlerContext σ β) (id : MailboxId) : Handler σ β (List MessageId) := do
  let messages ← onStore (ctx.messageStore.getMailboxMessages id)
  return (messages.filter (·.flags.deleted)).map MessageMetadata.messageId

/-- UID MOVE looks for its destination first. -/
def moveIds (ctx : HandlerContext σ β) (sequence mailbox : Text) (id : MailboxId) :
    Handler σ β (List MessageId) := do
  let world ← Effect.read
  match world.session.username with
  | none => return []
  | some username =>
      match ← findMailbox ctx username mailbox with
      | none => return []
      | some _ => uidIds ctx sequence id

def appendIds (ctx : HandlerContext σ β) (mailbox : Text) (flags : List Text) (literal : Octets) :
    Handler σ β (List MessageId) := do
  let world ← Effect.read
  match world.session.username with
  | none => return []
  | some username =>
      match ← findMailbox ctx username mailbox with
      | none => return []
      | some found =>
          let mail ← Effect.ofExcept (literalMail ctx literal)
          let mailUuid ← drawUuid ctx
          let messageUuid ← drawUuid ctx
          let metadata ← onStore
            (ctx.messageStore.appendMessage found.id (mail ⟨mailUuid⟩ ⟨messageUuid⟩))
          return if flags ≠ [] then [metadata.messageId] else []

def deletedMailbox (ctx : HandlerContext σ β) (mailbox : Text) :
    Handler σ β (Option MailboxId) := do
  let world ← Effect.read
  match world.session.username with
  | none => return none
  | some username => return (← findMailbox ctx username mailbox).map Mailbox.id

def choice (ctx : HandlerContext σ β) (command : ImapCommand) (world : World σ β) : Choice where
  messages :=
    match command with
    | .uid (.store sequence _ _) => pickSelected world (uidIds ctx sequence)
    | .uid (.expunge sequence) => pickSelected world (uidExpungeIds ctx sequence)
    | .uid (.move sequence mailbox) => pickSelected world (moveIds ctx sequence mailbox)
    | .expunge => pickSelected world (expungeIds ctx)
    | .close => pickSelected world (closeIds ctx)
    | .append mailbox flags _ literal =>
        (appendIds ctx mailbox flags literal world).1.toOption.getD []
    | _ => []
  mailbox :=
    match command with
    | .delete mailbox => (deletedMailbox ctx mailbox world).1.toOption.getD none
    | _ => none

def ImapCommand.isCompress : ImapCommand → Prop
  | .compress _ => True
  | _ => False

/-! The handlers. -/

section Handlers

variable {ctx : HandlerContext σ β} {known : σ → Username → MailboxId → Prop}
  {proven : β → Username → Prop} {chosen : Choice} {compressing : Prop} {world : World σ β}
  {user : Username} {tag : Text}

theorem within_findMailbox (knows : Knowledge ctx known proven) (acts : world.session.ActsFor user)
    {name : Text} {next : Option Mailbox → Handler σ β Value}
    (goes : ∀ found after,
      findMailbox ctx user name world = (.ok found, { world with store := after }) →
      (∀ mailbox, found = some mailbox → known after user mailbox.id) →
      (∀ {id}, known world.store user id → known after user id) →
      Within ctx known proven chosen compressing { world with store := after } (next found)) :
    Within ctx known proven chosen compressing world (findMailbox ctx user name >>= next) := by
  rcases listed : ctx.mailboxStore.listMailboxes user world.store with ⟨outcome, after⟩
  have call : StoreCall ctx known chosen world.session world.store after := by
    have allowed := @StoreCall.listMailboxes _ _ ctx known chosen _ world.store _ acts
    rwa [listed] at allowed
  cases outcome with
  | error error =>
      have ran : findMailbox ctx user name world = (.error error, { world with store := after }) := by
        have failed : onStore (ctx.mailboxStore.listMailboxes user) world =
            (.error error, { world with store := after }) := by
          rw [onStore, Effect.focus_apply, listed]
        exact Effect.bind_error failed
      rw [Within, Effect.bind_error ran]
      exact .single (.store call)
  | ok mailboxes =>
      have ran : findMailbox ctx user name world =
          (.ok (mailboxes.find? fun mailbox => mailbox.path.name = some name),
            { world with store := after }) :=
        Effect.bind_ok (onStore_ok listed)
      rw [Within, Effect.bind_ok ran]
      refine .head (.store call) (goes _ after ran ?_ (knows.stays call))
      intro mailbox found
      exact knows.listed listed mailbox (List.mem_of_find?_eq_some found)

theorem within_requestedMailbox (knows : Knowledge ctx known proven) (acts : world.session.ActsFor user)
    {name : Text} {next : Option Mailbox → Handler σ β Value}
    (goes : ∀ found after, (∀ mailbox, found = some mailbox → known after user mailbox.id) →
      Within ctx known proven chosen compressing { world with store := after } (next found)) :
    Within ctx known proven chosen compressing world (requestedMailbox ctx user name >>= next) := by
  by_cases inbox : eqIgnoreAsciiCase name "INBOX".toList
  · rw [requestedMailbox, if_pos inbox, bind_assoc]
    refine within_onStore ?_ ?_
    · exact .getUserInbox acts
    intro found after ran
    cases found with
    | none =>
        rw [pure_bind]
        exact goes none after (fun _ same => by cases same)
    | some id =>
        have given := knows.inbox ran
        change Within ctx known proven chosen compressing _
          (onStore (ctx.mailboxStore.getMailbox id) >>= next)
        refine within_onStore ?_ ?_
        · exact .getMailbox acts given
        intro mailbox last fetched
        apply goes
        intro held same
        rw [same] at fetched
        exact knows.fetched given fetched
  · rw [requestedMailbox, if_neg inbox]
    exact within_findMailbox knows acts fun found after _ given _ => goes found after given

theorem handleSelect_within (knows : Knowledge ctx known proven) (mailbox : Text)
    (readOnly : Bool) :
    Within ctx known proven chosen compressing world (handleSelect ctx tag mailbox readOnly) := by
  apply within_asUser
  intro user acts
  apply within_requestedMailbox knows acts
  intro found after given
  cases found with
  | none => exact within_pure _
  | some found =>
      have asked := given found rfl
      have call := @StoreCall.getMailboxCounters _ _ ctx known chosen _ _ _ _ acts asked
      refine within_onStore call ?_
      intro counters last ran
      have kept := knows.stays call asked
      rw [ran] at kept
      refine within_action ?_ ?_
      · exact .select acts kept
      apply within_action (.watch _ _)
      exact within_pure _

theorem handleLogin_within (knows : Knowledge ctx known proven) (name password : Text) :
    Within ctx known proven chosen compressing world (handleLogin ctx tag name password) := by
  rw [Within, handleLogin, Effect.read_bind]
  by_cases fresh : world.session.state = .notAuthenticated
  · rw [if_neg (not_not.mpr fresh)]
    cases made : Username.new name with
    | error error => exact .refl
    | ok user =>
        apply within_bind
        · exact .single (.authenticate fresh user password)
        · intro authenticated after ran
          rcases asked : ctx.authBackend.authenticate user password world.backend with
            ⟨outcome, backend⟩
          rw [onBackend, Effect.focus_apply, asked, Prod.mk.injEq] at ran
          obtain ⟨rfl, rfl⟩ := ran
          cases authenticated with
          | false => exact .refl
          | true =>
              have vouched := knows.granted asked
              exact .single (@Action.login _ _ _ _ _ _ _ { world with backend } fresh tag _ vouched)
  · rw [if_pos fresh]
    exact .refl

theorem handleCompress_within (asked : compressing) (mechanism : Text) :
    Within ctx known proven chosen compressing world (handleCompress tag mechanism) := by
  rw [Within, handleCompress, Effect.read_bind]
  split
  · exact .refl
  · split
    · exact .refl
    · exact .single (.compress asked)

theorem handleList_within (pattern : Text) :
    Within ctx known proven chosen compressing world (handleList ctx tag pattern) := by
  apply within_asUser
  intro user acts
  refine within_onStore ?_ ?_
  · exact .listMailboxes acts
  intro mailboxes after _
  exact within_pure _

theorem handleLsub_within (pattern : Text) :
    Within ctx known proven chosen compressing world (handleLsub ctx tag pattern) := by
  apply within_asUser
  intro user acts
  refine within_onStore ?_ ?_
  · exact .listSubscriptions acts
  intro names after _
  exact within_pure _

theorem handleSubscribe_within (mailbox : Text) :
    Within ctx known proven chosen compressing world (handleSubscribe ctx tag mailbox) := by
  apply within_asUser
  intro user acts
  refine within_onStore ?_ ?_
  · exact .subscribeMailbox acts _
  intro done after _
  exact within_pure _

theorem handleUnsubscribe_within (mailbox : Text) :
    Within ctx known proven chosen compressing world (handleUnsubscribe ctx tag mailbox) := by
  apply within_asUser
  intro user acts
  refine within_onStore ?_ ?_
  · exact .unsubscribeMailbox acts _
  intro done after _
  exact within_pure _

theorem handleCreate_within (mailbox : Text) :
    Within ctx known proven chosen compressing world (handleCreate ctx tag mailbox) := by
  apply within_asUser
  intro user acts
  refine within_onStore ?_ ?_
  · exact .createMailbox acts _
  intro id after _
  exact within_pure _

theorem handleCreateSpecialUse_within (mailbox specialUse : Text) :
    Within ctx known proven chosen compressing world
      (handleCreateSpecialUse ctx tag mailbox specialUse) := by
  apply within_asUser
  intro user acts
  refine within_onStore ?_ ?_
  · exact .createMailboxWithSpecialUse acts _ _
  intro id after _
  exact within_pure _

theorem handleDelete_within (knows : Knowledge ctx known proven) (mailbox : Text) :
    Within ctx known proven (choice ctx (.delete mailbox) world) compressing world
      (handleDelete ctx tag mailbox) := by
  apply within_asUser
  intro user acts
  apply within_findMailbox knows acts
  intro found after ran given _
  cases found with
  | none => exact within_pure _
  | some found =>
      have picked : (choice ctx (.delete mailbox) world).mailbox = some found.id := by
        have looked : deletedMailbox ctx mailbox world =
            (.ok (some found.id), { world with store := after }) := by
          rw [deletedMailbox, Effect.read_bind, acts.2]
          exact Effect.bind_ok ran
        rw [choice, looked]
        rfl
      refine within_onStore ?_ ?_
      · exact .deleteMailbox acts (given found rfl) picked
      intro done last _
      exact within_pure _

theorem handleRename_within (knows : Knowledge ctx known proven) (old new : Text) :
    Within ctx known proven chosen compressing world (handleRename ctx tag old new) := by
  apply within_asUser
  intro user acts
  apply within_findMailbox knows acts
  intro found after _ given _
  cases found with
  | none => exact within_pure _
  | some found =>
      refine within_onStore ?_ ?_
      · exact .renameMailbox acts (given found rfl) _
      intro done last _
      exact within_pure _

theorem handleIdle_within (sound : Sound known proven world) :
    Within ctx known proven chosen compressing world (handleIdle ctx tag) := by
  apply within_inMailbox sound
  intro id user selected acts given
  refine within_onStore ?_ ?_
  · exact .getMailboxCounters acts given
  intro counters after _
  refine within_action (.idle ?_ tag _) (within_pure _)
  exact selected

theorem handleNamespace_within :
    Within ctx known proven chosen compressing world (handleNamespace tag) := by
  rw [Within, handleNamespace, Effect.read_bind]
  cases world.session.state with
  | notAuthenticated => exact .refl
  | authenticated => exact .refl
  | selected id => exact .refl
  | idle id => exact .refl
  | logout => exact .refl

theorem handleLogout_within :
    Within ctx known proven chosen compressing world (handleLogout tag) :=
  within_action .logout (within_pure _)

theorem fetchEach_within (items : List Text) (messages : List (Nat × MessageMetadata))
    (acts : world.session.ActsFor user) :
    Within ctx known proven chosen compressing world (fetchEach ctx items messages) := by
  induction messages generalizing world with
  | nil => exact within_pure _
  | cons entry others ih =>
      refine within_onStore (.getMessage acts _) ?_
      intro found after _
      refine within_bind (ih ?_) ?_
      · exact acts
      intro lines last _
      cases found with
      | none => exact within_pure _
      | some mail => exact within_pure _

theorem handleFetch_within (sound : Sound known proven world) (sequence : Text)
    (items : List Text) :
    Within ctx known proven chosen compressing world (handleFetch ctx tag sequence items) := by
  apply within_inMailbox sound
  intro id user selected acts given
  refine within_onStore (.getMailboxMessages acts given) ?_
  intro messages after _
  refine within_bind ?_ ?_
  · exact fetchEach_within items _ acts
  intro lines last _
  exact within_pure _

theorem handleStore_within (sequence : Text) (mode : StoreMode) (flags : List Text) :
    Within ctx known proven chosen compressing world (handleStore ctx tag sequence mode flags) := by
  rw [Within, handleStore, inMailbox, Effect.read_bind]
  cases world.session.state with
  | notAuthenticated => exact .refl
  | authenticated => exact .refl
  | selected id => exact .refl
  | idle id => exact .refl
  | logout => exact .refl

theorem handleSearch_within (sound : Sound known proven world) (criteria : List Text) :
    Within ctx known proven chosen compressing world (handleSearch ctx tag criteria) := by
  apply within_inMailbox sound
  intro id user selected acts given
  refine within_onStore (.search acts given _) ?_
  intro ids after _
  exact within_pure _

theorem within_draw {next : BitVec 128 → Handler σ β Value}
    (goes : Within ctx known proven chosen compressing { world with draws := world.draws + 1 }
      (next (ctx.newUuid world.draws))) :
    Within ctx known proven chosen compressing world (drawUuid ctx >>= next) :=
  Relation.ReflTransGen.head (.draw _) goes

theorem within_ofExcept {result : Except Text Value} {next : Value → Handler σ β Result}
    (goes : ∀ value, result = .ok value →
      Within ctx known proven chosen compressing world (next value)) :
    Within ctx known proven chosen compressing world (Effect.ofExcept result >>= next) := by
  cases result with
  | error error => exact .refl
  | ok value => exact goes value rfl

theorem handleAppend_within (knows : Knowledge ctx known proven) (mailbox : Text)
    (flags : List Text) (dateTime : Option Text) (literal : Octets) :
    Within ctx known proven (choice ctx (.append mailbox flags dateTime literal) world) compressing
      world (handleAppend ctx tag mailbox flags literal) := by
  apply within_asUser
  intro user acts
  apply within_findMailbox knows acts
  intro found after ran given _
  cases found with
  | none => exact within_pure _
  | some found =>
      have asked := given found rfl
      apply within_ofExcept
      intro mail made
      apply within_draw
      apply within_draw
      refine within_onStore (.appendMessage acts asked _) ?_
      intro metadata added appended
      have kept : known added user found.id := by
        have stays := knows.stays (@StoreCall.appendMessage _ _ ctx known ⟨[], none⟩ _ after _ _
          acts asked (mail ⟨ctx.newUuid world.draws⟩ ⟨ctx.newUuid (world.draws + 1)⟩)) asked
        rwa [appended] at stays
      have picked : (choice ctx (.append mailbox flags dateTime literal) world).messages =
          if flags ≠ [] then [metadata.messageId] else [] := by
        have looked : appendIds ctx mailbox flags literal world =
            (.ok (if flags ≠ [] then [metadata.messageId] else []),
              { world with store := added, draws := world.draws + 2 }) := by
          rw [appendIds, Effect.read_bind, acts.2]
          refine (Effect.bind_ok ran).trans ?_
          simp only [made]
          exact Effect.bind_ok (onStore_ok appended)
        rw [choice, looked]
        rfl
      -- the counters are asked for last, and a failure of the call is ignored
      have counted : ∀ store, known store user found.id →
          Within ctx known proven (choice ctx (.append mailbox flags dateTime literal) world)
            compressing { world with store, draws := world.draws + 2 } (do
              let count ← onStore (Effect.unwrapOr 0 (do
                let counters ← ctx.metadataStore.getMailboxCounters found.id
                return counters.messages))
              publish found.id (.exists count)
              return ok tag ("[APPENDUID ".toList ++ decimal found.uidValidity.toNat ++
                ' ' :: decimal metadata.uid.toNat ++ "] APPEND completed".toList)) := by
        intro store held
        refine within_onStore ?_ ?_
        · rw [Effect.unwrapOr_apply, bind_pure_comp, Effect.map_state]
          exact .getMailboxCounters acts held
        intro count last _
        exact within_action (.publish _) (within_pure _)
      by_cases flagged : flags ≠ []
      · rw [if_pos flagged]
        rw [if_pos flagged] at picked
        rw [← picked]
        have flagging := @StoreCall.setFlags _ _ ctx known
          (choice ctx (.append mailbox flags dateTime literal) world) _ added _ acts
          (buildMessageFlags ctx flags)
        refine within_onStore flagging ?_
        intro done last ran
        have held := knows.stays flagging kept
        rw [ran] at held
        exact counted last held
      · rw [if_neg flagged]
        exact counted added kept

theorem within_withDestination (knows : Knowledge ctx known proven)
    (sound : Sound known proven world) {mailbox : Text}
    {handle : MailboxId → Mailbox → Handler σ β ImapResponse}
    (goes : ∀ id user dest after, world.session.state = .selected id →
      world.session.ActsFor user →
      findMailbox ctx user mailbox world = (.ok (some dest), { world with store := after }) →
      known after user id → known after user dest.id →
      Within ctx known proven chosen compressing { world with store := after } (handle id dest)) :
    Within ctx known proven chosen compressing world (withDestination ctx tag mailbox handle) := by
  apply within_inMailbox sound
  intro id user selected acts given
  rw [Within, Effect.read_bind, acts.2]
  refine within_findMailbox knows acts ?_
  intro found after ran listed stays
  cases found with
  | none => exact within_pure _
  | some dest => exact goes id user dest after selected acts ran (stays given) (listed dest rfl)

theorem within_copyChosen (dest : Mailbox) (ids : List MessageId) (sources : List Text)
    (name : Text) (acts : world.session.ActsFor user) (given : known world.store user dest.id) :
    Within ctx known proven chosen compressing world
      (copyChosen ctx tag dest ids sources name) := by
  rw [copyChosen]
  by_cases none : ids = []
  · rw [if_pos none]
    exact within_pure _
  · rw [if_neg none]
    refine within_onStore (.copyMessages acts given _) ?_
    intro copied after _
    exact within_pure _

theorem within_moveChosen (dest : Mailbox) (sources : List Text) (name : Text)
    (acts : world.session.ActsFor user) (given : known world.store user dest.id) :
    Within ctx known proven chosen compressing world
      (moveChosen ctx tag dest chosen.messages sources name) := by
  rw [moveChosen]
  by_cases none : chosen.messages = []
  · rw [if_pos none]
    exact within_pure _
  · rw [if_neg none]
    refine within_onStore (.copyMessages acts given _) ?_
    intro copied after _
    refine within_onStore (.setFlags acts _) ?_
    intro flagged after _
    refine within_onStore (.deleteMessages acts) ?_
    intro deleted after _
    exact within_pure _

/-! EXPUNGE, CLOSE and the handlers that take UIDs. -/

theorem pickSelected_eq {id : MailboxId} (selected : world.session.state = .selected id)
    {program : MailboxId → Handler σ β (List MessageId)} {ids : List MessageId}
    {after : World σ β} (ran : program id world = (.ok ids, after)) :
    pickSelected world program = ids := by
  rw [pickSelected, selected]
  exact congrArg (fun run => run.1.toOption.getD []) ran

theorem chosenByUid_eq_ok {sequence : Text} {messages picked : List MessageMetadata}
    {after : World σ β} (ran : chosenByUid sequence messages world = (.ok picked, after)) :
    after = world := by
  rw [chosenByUid] at ran
  obtain ⟨uids, middle, parsed, rest⟩ := Effect.bind_eq_ok.mp ran
  rw [← (Prod.mk.inj rest).2, ← (Prod.mk.inj parsed).2]

theorem within_chosenByUid {sequence : Text} {messages : List MessageMetadata}
    {next : List MessageMetadata → Handler σ β Result}
    (goes : ∀ picked, chosenByUid sequence messages world = (.ok picked, world) →
      Within ctx known proven chosen compressing world (next picked)) :
    Within ctx known proven chosen compressing world
      (chosenByUid sequence messages >>= next) := by
  apply within_bind
  · exact within_ofExcept fun uids _ => within_pure _
  · intro picked after ran
    cases chosenByUid_eq_ok ran
    exact goes picked ran

theorem expungeChosen_within {id : MailboxId} {removed : List (UInt32 × MessageMetadata)}
    {completion : Text} (acts : world.session.ActsFor user)
    (picked : chosen.messages = removed.map fun entry => entry.2.messageId) :
    Within ctx known proven chosen compressing world
      (expungeChosen ctx tag id removed completion) := by
  rw [expungeChosen]
  by_cases some : removed ≠ []
  · rw [if_pos some, ← picked]
    refine within_onStore (.deleteMessages acts) ?_
    intro done after _
    exact within_action (.publish _) (within_pure _)
  · rw [if_neg some]
    exact within_pure _

theorem handleExpunge_within (sound : Sound known proven world) :
    Within ctx known proven (choice ctx .expunge world) compressing world
      (handleExpunge ctx tag) := by
  apply within_inMailbox sound
  intro id user selected acts given
  refine within_onStore (.getMailboxMessages acts given) ?_
  intro messages after listed
  exact expungeChosen_within acts (pickSelected_eq selected (Effect.bind_ok (onStore_ok listed)))

theorem handleClose_within (sound : Sound known proven world) :
    Within ctx known proven (choice ctx .close world) compressing world (handleClose ctx tag) := by
  apply within_inMailbox sound
  intro id user selected acts given
  refine within_onStore (.getMailboxMessages acts given) ?_
  intro messages after listed
  have picked : (choice ctx .close world).messages =
      (messages.filter (·.flags.deleted)).map MessageMetadata.messageId :=
    pickSelected_eq selected (Effect.bind_ok (onStore_ok listed))
  have closes : ∀ store, Within ctx known proven (choice ctx .close world) compressing
      { world with store } (do
        setSession fun session => { session with state := .authenticated, mailboxEventRx := none }
        return ok tag "CLOSE completed".toList) := by
    intro store
    refine within_action (@Action.close _ _ _ _ _ _ _ _ id ?_) (within_pure _)
    exact selected
  by_cases some : (messages.filter (·.flags.deleted)).map MessageMetadata.messageId ≠ []
  · rw [if_pos some, ← picked]
    refine within_onStore (.deleteMessages acts) ?_
    intro done last _
    exact closes last
  · rw [if_neg some]
    exact closes after

theorem handleUidFetch_within (sound : Sound known proven world) (sequence : Text)
    (items : List Text) :
    Within ctx known proven chosen compressing world (handleUidFetch ctx tag sequence items) := by
  apply within_inMailbox sound
  intro id user selected acts given
  refine within_onStore (.getMailboxMessages acts given) ?_
  intro messages after _
  apply within_chosenByUid
  intro picked _
  refine within_bind ?_ ?_
  · exact fetchEach_within items _ acts
  intro lines last _
  exact within_pure _

theorem handleUidStore_within (sound : Sound known proven world) (sequence : Text)
    (mode : StoreMode) (flags : List Text) :
    Within ctx known proven (choice ctx (.uid (.store sequence mode flags)) world) compressing
      world (handleUidStore ctx tag sequence mode flags) := by
  apply within_inMailbox sound
  intro id user selected acts given
  refine within_onStore (.getMailboxMessages acts given) ?_
  intro messages after listed
  apply within_chosenByUid
  intro chosen chose
  have picked : (choice ctx (.uid (.store sequence mode flags)) world).messages =
      chosen.map MessageMetadata.messageId :=
    pickSelected_eq selected ((Effect.bind_ok (onStore_ok listed)).trans (Effect.bind_ok chose))
  by_cases none : chosen = []
  · rw [if_pos none]
    exact within_pure _
  · rw [if_neg none, ← picked, applyFlags_eq]
    refine within_onStore (.setFlags acts _) ?_
    intro done last _
    exact within_action (.publish _) (within_pure _)

theorem handleUidSearch_within (knows : Knowledge ctx known proven)
    (sound : Sound known proven world) (criteria : List Text) :
    Within ctx known proven chosen compressing world (handleUidSearch ctx tag criteria) := by
  apply within_inMailbox sound
  intro id user selected acts given
  have call := @StoreCall.search _ _ ctx known chosen _ world.store _ _ acts given
    criteria
  refine within_onStore call ?_
  intro ids after ran
  have kept := knows.stays call given
  rw [ran] at kept
  refine within_onStore (.getMailboxMessages acts kept) ?_
  intro messages last _
  exact within_pure _

theorem handleUidCopy_within (knows : Knowledge ctx known proven)
    (sound : Sound known proven world) (sequence mailbox : Text) :
    Within ctx known proven chosen compressing world
      (handleUidCopy ctx tag sequence mailbox) := by
  apply within_withDestination knows sound
  intro id user dest after selected acts found given granted
  have call := @StoreCall.getMailboxMessages _ _ ctx known chosen _ after _ _ acts given
  refine within_onStore call ?_
  intro messages last listed
  have kept := knows.stays call granted
  rw [listed] at kept
  apply within_chosenByUid
  intro picked _
  exact within_copyChosen _ _ _ _ acts kept

theorem handleUidMove_within (knows : Knowledge ctx known proven)
    (sound : Sound known proven world) (sequence mailbox : Text) :
    Within ctx known proven (choice ctx (.uid (.move sequence mailbox)) world) compressing world
      (handleUidMove ctx tag sequence mailbox) := by
  apply within_withDestination knows sound
  intro id user dest after selected acts found given granted
  have call := @StoreCall.getMailboxMessages _ _ ctx known
    (choice ctx (.uid (.move sequence mailbox)) world) _ after _ _ acts given
  refine within_onStore call ?_
  intro messages last listed
  have kept := knows.stays call granted
  rw [listed] at kept
  apply within_chosenByUid
  intro chosen chose
  have looked : moveIds ctx sequence mailbox id world =
      (.ok (chosen.map MessageMetadata.messageId), { world with store := last }) := by
    rw [moveIds, Effect.read_bind, acts.2]
    refine (Effect.bind_ok found).trans ?_
    exact (Effect.bind_ok (onStore_ok listed)).trans (Effect.bind_ok chose)
  have picked : (choice ctx (.uid (.move sequence mailbox)) world).messages =
      chosen.map MessageMetadata.messageId :=
    pickSelected_eq selected looked
  rw [← picked]
  exact within_moveChosen _ _ _ acts kept

theorem handleUidExpunge_within (sound : Sound known proven world) (sequence : Text) :
    Within ctx known proven (choice ctx (.uid (.expunge sequence)) world) compressing world
      (handleUidExpunge ctx tag sequence) := by
  apply within_inMailbox sound
  intro id user selected acts given
  refine within_onStore (.getMailboxMessages acts given) ?_
  intro messages after listed
  apply within_ofExcept
  intro uids parsed
  have looked : uidExpungeIds ctx sequence id world =
      (.ok ((expungeChoice (fun metadata => uids.contains metadata.uid && metadata.flags.deleted)
        messages).map fun entry => entry.2.messageId), { world with store := after }) := by
    refine (Effect.bind_ok (onStore_ok listed)).trans ?_
    rw [parsed]
    rfl
  exact expungeChosen_within acts (pickSelected_eq selected looked)

theorem handleCopy_within (knows : Knowledge ctx known proven) (sound : Sound known proven world)
    (sequence mailbox : Text) :
    Within ctx known proven chosen compressing world (handleCopy ctx tag sequence mailbox) := by
  apply within_withDestination knows sound
  intro id user dest after _ _ _ _ _
  exact within_pure _

theorem handleMove_within (knows : Knowledge ctx known proven) (sound : Sound known proven world)
    (sequence mailbox : Text) :
    Within ctx known proven chosen compressing world (handleMove ctx tag sequence mailbox) := by
  apply within_withDestination knows sound
  intro id user dest after _ _ _ _ _
  exact within_pure _

theorem handleCommand_within (knows : Knowledge ctx known proven)
    (sound : Sound known proven world) (command : ImapCommand) :
    Within ctx known proven (choice ctx command world) command.isCompress world
      (handleCommand ctx tag command) := by
  cases command with
  | login name password => exact handleLogin_within knows name password
  | select mailbox => exact handleSelect_within knows mailbox false
  | examine mailbox => exact handleSelect_within knows mailbox true
  | fetch sequence items => exact handleFetch_within sound sequence items
  | store sequence mode flags => exact handleStore_within sequence mode flags
  | search criteria => exact handleSearch_within sound criteria
  | list reference mailbox => exact handleList_within mailbox
  | lsub reference mailbox => exact handleLsub_within mailbox
  | subscribe mailbox => exact handleSubscribe_within mailbox
  | unsubscribe mailbox => exact handleUnsubscribe_within mailbox
  | create mailbox => exact handleCreate_within mailbox
  | createSpecialUse mailbox specialUse => exact handleCreateSpecialUse_within mailbox specialUse
  | delete mailbox => exact handleDelete_within knows mailbox
  | rename old new => exact handleRename_within knows old new
  | append mailbox flags dateTime literal =>
      exact handleAppend_within knows mailbox flags dateTime literal
  | copy sequence mailbox => exact handleCopy_within knows sound sequence mailbox
  | move sequence mailbox => exact handleMove_within knows sound sequence mailbox
  | expunge => exact handleExpunge_within sound
  | close => exact handleClose_within sound
  | capability => exact within_pure _
  | logout => exact handleLogout_within
  | noop => exact within_pure _
  | idle => exact handleIdle_within sound
  | «namespace» => exact handleNamespace_within
  | authenticate mechanism initialResponse => exact within_pure _
  | compress mechanism => exact handleCompress_within trivial mechanism
  | uid subcommand =>
      cases subcommand with
      | fetch sequence items => exact handleUidFetch_within sound sequence items
      | store sequence mode flags => exact handleUidStore_within sound sequence mode flags
      | search criteria => exact handleUidSearch_within knows sound criteria
      | copy sequence mailbox => exact handleUidCopy_within knows sound sequence mailbox
      | move sequence mailbox => exact handleUidMove_within knows sound sequence mailbox
      | expunge sequence => exact handleUidExpunge_within sound sequence

end Handlers

end Rusmes
