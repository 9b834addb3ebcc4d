import Rusmes.Imap.Backend
import Rusmes.Imap.Loop

/-!
Which inputs end a session. With stores and a backend that never fail, every line is
answered and the next one read, save for the lines listed in `Fatal`: an argument that a
handler cannot read shares the channel of the failures that end the session.
-/

namespace Rusmes

open WireText ImapResponse ImapParser

variable {σ β Value : Type}

structure HandlerContext.Reliable (ctx : HandlerContext σ β) : Prop where
  createMailbox : ∀ path, Effect.Total (ctx.mailboxStore.createMailbox path)
  createMailboxWithSpecialUse : ∀ path uses,
    Effect.Total (ctx.mailboxStore.createMailboxWithSpecialUse path uses)
  deleteMailbox : ∀ id, Effect.Total (ctx.mailboxStore.deleteMailbox id)
  renameMailbox : ∀ id path, Effect.Total (ctx.mailboxStore.renameMailbox id path)
  getMailbox : ∀ id, Effect.Total (ctx.mailboxStore.getMailbox id)
  listMailboxes : ∀ user, Effect.Total (ctx.mailboxStore.listMailboxes user)
  getUserInbox : ∀ user, Effect.Total (ctx.mailboxStore.getUserInbox user)
  subscribeMailbox : ∀ user name, Effect.Total (ctx.mailboxStore.subscribeMailbox user name)
  unsubscribeMailbox : ∀ user name, Effect.Total (ctx.mailboxStore.unsubscribeMailbox user name)
  listSubscriptions : ∀ user, Effect.Total (ctx.mailboxStore.listSubscriptions user)
  appendMessage : ∀ id mail, Effect.Total (ctx.messageStore.appendMessage id mail)
  getMessage : ∀ id, Effect.Total (ctx.messageStore.getMessage id)
  deleteMessages : ∀ ids, Effect.Total (ctx.messageStore.deleteMessages ids)
  setFlags : ∀ ids flags, Effect.Total (ctx.messageStore.setFlags ids flags)
  search : ∀ id criteria, Effect.Total (ctx.messageStore.search id criteria)
  copyMessages : ∀ ids id, Effect.Total (ctx.messageStore.copyMessages ids id)
  getMailboxMessages : ∀ id, Effect.Total (ctx.messageStore.getMailboxMessages id)
  getMailboxCounters : ∀ id, Effect.Total (ctx.metadataStore.getMailboxCounters id)
  authenticate : ∀ user password, Effect.Total (ctx.authBackend.authenticate user password)

def uidReads (text : Text) : Bool := text = ['*'] || (parseU32 text).isOk

def uidPartReads (text : Text) : Bool :=
  let part := trim text
  if ':' ∈ part then
    match splitOn ':' part with
    | [first, last] => uidReads first && uidReads last
    | _ => false
  else uidReads part

/-- Every part between commas is a UID, a star, or two of these with a colon between. -/
def uidSetReads (sequence : Text) : Bool := (splitOn ',' sequence).all uidPartReads

def Reversed (value : Text) : Prop :=
  ∃ before after, value = before ++ '>' :: after ∧ '<' ∉ before ∧ '>' ∉ before ∧ '<' ∈ after

def addressFields (ctx : HandlerContext σ β) (literal : Octets) : List Text :=
  let headers := (parseMessageData ctx literal).1
  (headers.getFirst ctx.toCaseMapping "from".toList).toList ++ recipientFields ctx headers

def HasMailbox (ctx : HandlerContext σ β) (world : World σ β) (user : Username) (name : Text) :
    Prop :=
  ∃ mailboxes after, ctx.mailboxStore.listMailboxes user world.store = (.ok mailboxes, after) ∧
    ∃ mailbox ∈ mailboxes, mailbox.path.name = some name

/-- The commands that `handleCommand` fails on. -/
def Escapes (ctx : HandlerContext σ β) (world : World σ β) : ImapCommand → Prop
  | .uid (.fetch sequence _) | .uid (.store sequence _ _) | .uid (.expunge sequence) =>
      (∃ id, world.session.state = .selected id) ∧ uidSetReads sequence = false
  | .uid (.copy sequence mailbox) | .uid (.move sequence mailbox) =>
      (∃ id, world.session.state = .selected id) ∧
        (∃ user, world.session.username = some user ∧ HasMailbox ctx world user mailbox) ∧
        uidSetReads sequence = false
  | .append mailbox _ _ literal =>
      (∃ user, world.session.state.isAuthenticated = true ∧
        world.session.username = some user ∧ HasMailbox ctx world user mailbox) ∧
        ∃ value ∈ addressFields ctx literal, Reversed value
  | _ => False

def Completed (word text : Text) : Prop :=
  ∃ before status message after,
    status ∈ ["OK".toList, "NO".toList, "BAD".toList] ∧
      text = before ++ (word ++ ' ' :: status ++ ' ' :: message ++ lineEnd) ++ after

structure SessionLoop.Reading (loop : SessionLoop σ β) : Prop where
  going : loop.ended = false
  on : loop.world.session.state ≠ .logout
  plain : loop.world.session.compressPending = false

/-! Which arguments are read. -/

theorem mapM_succeeds_iff {α γ : Type} (read : α → Except Text γ) (parts : List α) :
    (∃ values, parts.mapM read = .ok values) ↔ ∀ part ∈ parts, ∃ value, read part = .ok value := by
  induction parts with
  | nil => simp [pure, Except.pure]
  | cons part parts ih =>
      rw [List.forall_mem_cons, ← ih, List.mapM_cons]
      cases read part with
      | error error => simp [bind, Except.bind]
      | ok value =>
          cases parts.mapM read with
          | error error => simp [bind, Except.bind]
          | ok values => simp [bind, Except.bind, pure, Except.pure]

theorem parseUid_ok_iff (largest : UInt32) (text : Text) :
    (∃ uid, parseUid largest text = .ok uid) ↔ uidReads text = true := by
  rw [parseUid, uidReads]
  by_cases star : text = ['*']
  · simp [star]
  · rw [if_neg star]
    cases parseU32 text with
    | ok uid => simp [Except.isOk, Except.toBool]
    | error error => simp [star, Except.isOk, Except.toBool]

theorem uidPart_ok_iff (largest : UInt32) (text : Text) :
    (∃ range, uidPart largest text = .ok range) ↔ uidPartReads text = true := by
  rw [uidPart, uidPartReads]
  by_cases colon : ':' ∈ trim text
  · simp only [colon, if_true]
    rcases splitOn ':' (trim text) with _ | ⟨first, _ | ⟨last, _ | ⟨_, _⟩⟩⟩
    · simp
    · simp
    · dsimp only
      rw [Bool.and_eq_true, ← parseUid_ok_iff largest first, ← parseUid_ok_iff largest last]
      cases parseUid largest first with
      | error error => simp [bind, Except.bind]
      | ok start =>
          cases parseUid largest last with
          | error error => simp [bind, Except.bind]
          | ok stop => simp [bind, Except.bind, pure, Except.pure]
    · simp
  · simp only [colon, if_false]
    rw [← parseUid_ok_iff largest]
    cases parseUid largest (trim text) with
    | error error => simp [bind, Except.bind]
    | ok uid => simp [bind, Except.bind, pure, Except.pure]

theorem parseUidSequenceSet_ok_iff (sequence : Text) (messages : List MessageMetadata) :
    (∃ uids, parseUidSequenceSet sequence messages = .ok uids) ↔ uidSetReads sequence = true := by
  rw [parseUidSequenceSet, mapM_succeeds_iff, uidSetReads, List.all_eq_true]
  exact forall₂_congr fun part _ => uidPart_ok_iff _ part

theorem reversed_cons {first : Char} (neither : first ≠ '<' ∧ first ≠ '>') (rest : Text) :
    Reversed (first :: rest) ↔ Reversed rest := by
  constructor
  · rintro ⟨before, after, same, noOpening, noClosing, opening⟩
    cases before with
    | nil => exact absurd (List.cons.inj same).1 neither.2
    | cons head before =>
        exact ⟨before, after, (List.cons.inj same).2, fun inside => noOpening (.tail _ inside),
          fun inside => noClosing (.tail _ inside), opening⟩
  · rintro ⟨before, after, rfl, noOpening, noClosing, opening⟩
    refine ⟨first :: before, after, rfl, ?_, ?_, opening⟩
    · simp [noOpening, neither.1.symm]
    · simp [noClosing, neither.2.symm]

theorem reversed_iff (value : Text) :
    Reversed value ↔ ('<' ∈ value ∧ '>' ∈ value) ∧
      (value.takeWhile (· ≠ '>')).length ≤ (value.takeWhile (· ≠ '<')).length := by
  induction value with
  | nil => simp [Reversed]
  | cons first rest ih =>
      by_cases opening : first = '<'
      · subst opening
        have right : ¬Reversed ('<' :: rest) := by
          rintro ⟨before, after, same, noOpening, _⟩
          cases before with
          | nil => cases same
          | cons head before => simp [← (List.cons.inj same).1] at noOpening
        simp [right]
      · by_cases closing : first = '>'
        · subst closing
          have reversed : Reversed ('>' :: rest) ↔ '<' ∈ rest := by
            constructor
            · rintro ⟨before, after, same, _, noClosing, member⟩
              cases before with
              | nil => exact (List.cons.inj same).2 ▸ member
              | cons head before => simp [← (List.cons.inj same).1] at noClosing
            · exact fun member => ⟨[], rest, rfl, by simp, by simp, member⟩
          simp [reversed]
        · rw [reversed_cons ⟨opening, closing⟩, ih]
          simp [opening, closing, Ne.symm opening, Ne.symm closing]

theorem readAddress_ok_iff (value : Text) :
    (∃ address, readAddress value = .ok address) ↔ ¬Reversed value := by
  rw [reversed_iff, readAddress, extractEmailAddress]
  by_cases brackets : '<' ∈ value ∧ '>' ∈ value
  · rw [if_pos brackets]
    by_cases order : (value.takeWhile (· ≠ '<')).length + 1 ≤ (value.takeWhile (· ≠ '>')).length
    · rw [if_pos order]
      constructor
      · rintro _ ⟨_, wrong⟩
        omega
      · exact fun _ => ⟨_, rfl⟩
    · rw [if_neg order]
      constructor
      · rintro ⟨address, same⟩
        cases same
      · intro right
        exact absurd ⟨brackets, by omega⟩ right
  · rw [if_neg brackets]
    constructor
    · rintro _ ⟨both, _⟩
      exact brackets both
    · intro _
      split
      · exact ⟨_, rfl⟩
      · exact ⟨_, rfl⟩

theorem literalMail_ok_iff (ctx : HandlerContext σ β) (literal : Octets) :
    (∃ mail, literalMail ctx literal = .ok mail) ↔
      ∀ value ∈ addressFields ctx literal, ¬Reversed value := by
  simp only [← readAddress_ok_iff, addressFields, List.forall_mem_append,
    ← mapM_succeeds_iff readAddress (recipientFields _ _)]
  simp only [literalMail, extractSenderFromHeaders, extractRecipientsFromHeaders]
  generalize (parseMessageData ctx literal).1 = headers
  cases headers.getFirst ctx.toCaseMapping "from".toList with
  | none =>
      cases (recipientFields ctx headers).mapM readAddress with
      | error error => simp [bind, Except.bind]
      | ok addresses => simp [bind, Except.bind, pure, Except.pure]
  | some value =>
      dsimp only [Option.toList]
      rw [List.forall_mem_singleton]
      cases readAddress value with
      | error error => simp [bind, Except.bind]
      | ok sender =>
          cases (recipientFields ctx headers).mapM readAddress with
          | error error => simp [bind, Except.bind]
          | ok addresses => simp [bind, Except.bind, pure, Except.pure]

theorem Completed.within {word text : Text} (completed : Completed word text) (lead rest : Text) :
    Completed word (lead ++ text ++ rest) := by
  obtain ⟨before, status, message, after, known, rfl⟩ := completed
  exact ⟨lead ++ before, status, message, after ++ rest, known, by simp⟩

theorem completed_ok (tag message : Text) : Completed tag (ok tag message).format :=
  ⟨[], "OK".toList, message, [], by simp, by simp [ok, format]⟩

theorem completed_no (tag message : Text) : Completed tag (no tag message).format :=
  ⟨[], "NO".toList, message, [], by simp, by simp [no, format]⟩

theorem completed_bad (tag message : Text) : Completed tag (bad tag message).format :=
  ⟨[], "BAD".toList, message, [], by simp, by simp [bad, format]⟩

theorem completed_listing (lines : List Text) (tag completion : Text) :
    Completed tag (listing lines tag completion).format := by
  refine ⟨['*', ' ', ' '] ++ if joinWith lineEnd lines = [] then []
    else joinWith lineEnd lines ++ lineEnd, "OK".toList, completion, [], by simp, ?_⟩
  simp [listing, format]

structure Concluded (tag : Text) (response : ImapResponse) (world : World σ β) : Prop where
  on : world.session.state ≠ .logout
  answered : Completed tag response.format ∨
    (∃ id, world.session.state = .idle id) ∧ world.session.tag = some tag ∧
      world.session.compressPending = false

section Handlers

variable {ctx : HandlerContext σ β} {world : World σ β} {tag : Text}
  {post : ImapResponse → World σ β → Prop}

theorem gives_onStore_bind {action : Effect Text σ Value} {next : Value → Handler σ β ImapResponse}
    (total : action.Total) :
    (onStore action >>= next).Gives world post ↔
      ∀ value store, action world.store = (.ok value, store) →
        (next value).Gives { world with store } post := by
  obtain ⟨value, store, ran⟩ := total world.store
  rw [Effect.gives_bind (onStore_ok ran)]
  constructor
  · intro gives other last same
    rw [ran, Prod.mk.injEq, Except.ok.injEq] at same
    obtain ⟨rfl, rfl⟩ := same
    exact gives
  · intro gives
    exact gives value store ran

theorem gives_inMailbox {handle : MailboxId → Handler σ β ImapResponse}
    (refused : ∀ message, post (no tag message) world) :
    (inMailbox tag handle).Gives world post ↔
      ∀ id, world.session.state = .selected id → (handle id).Gives world post := by
  rw [inMailbox, Effect.gives_read_bind]
  cases state : world.session.state with
  | selected id => simp
  | notAuthenticated => simpa using Effect.gives_pure.mpr (refused _)
  | authenticated => simpa using Effect.gives_pure.mpr (refused _)
  | idle id => simpa using Effect.gives_pure.mpr (refused _)
  | logout => simpa using Effect.gives_pure.mpr (refused _)

theorem gives_asUser {handle : Username → Handler σ β ImapResponse}
    (refused : ∀ message, post (no tag message) world) :
    (asUser tag handle).Gives world post ↔
      ∀ user, world.session.state.isAuthenticated = true ∧ world.session.username = some user →
        (handle user).Gives world post := by
  rw [asUser, Effect.gives_read_bind]
  by_cases authenticated : world.session.state.isAuthenticated = true
  · rw [if_pos authenticated]
    cases username : world.session.username with
    | none => simpa using Effect.gives_pure.mpr (refused _)
    | some user => simp [authenticated]
  · rw [if_neg authenticated]
    simpa [authenticated] using Effect.gives_pure.mpr (refused _)

theorem gives_findMailbox_bind (reliable : ctx.Reliable) {user : Username} {name : Text}
    {next : Option Mailbox → Handler σ β ImapResponse} :
    (findMailbox ctx user name >>= next).Gives world post ↔
      ∀ mailboxes store, ctx.mailboxStore.listMailboxes user world.store = (.ok mailboxes, store) →
        (next (mailboxes.find? fun mailbox => mailbox.path.name = some name)).Gives
          { world with store } post := by
  rw [findMailbox, bind_assoc, gives_onStore_bind (reliable.listMailboxes user)]
  exact Iff.rfl

theorem gives_findMailbox_iff (reliable : ctx.Reliable) {user : Username} {name : Text}
    {next : Option Mailbox → Handler σ β ImapResponse} {P : Prop}
    (absent : ∀ store, (next none).Gives { world with store } post)
    (each : ∀ found store, (next (some found)).Gives { world with store } post ↔ P) :
    (findMailbox ctx user name >>= next).Gives world post ↔ (HasMailbox ctx world user name → P) := by
  obtain ⟨mailboxes, store, listed⟩ := reliable.listMailboxes user world.store
  have held : HasMailbox ctx world user name ↔
      (mailboxes.find? fun mailbox => mailbox.path.name = some name).isSome := by
    rw [List.find?_isSome]
    constructor
    · rintro ⟨others, last, same, mailbox, member, named⟩
      rw [listed, Prod.mk.injEq, Except.ok.injEq] at same
      exact ⟨mailbox, same.1 ▸ member, decide_eq_true named⟩
    · rintro ⟨mailbox, member, named⟩
      exact ⟨mailboxes, store, listed, mailbox, member, of_decide_eq_true named⟩
  have located : findMailbox ctx user name world =
      (.ok (mailboxes.find? fun mailbox => mailbox.path.name = some name), { world with store }) :=
    Effect.bind_ok (onStore_ok listed)
  rw [Effect.gives_bind located, held]
  cases mailboxes.find? fun mailbox => mailbox.path.name = some name with
  | none => simpa using absent store
  | some found => simpa using each found store

theorem requestedMailbox_ok (reliable : ctx.Reliable) (user : Username) (name : Text) :
    ∃ found store, requestedMailbox ctx user name world = (.ok found, { world with store }) := by
  by_cases inbox : eqIgnoreAsciiCase name "INBOX".toList
  · obtain ⟨given, store, ran⟩ := reliable.getUserInbox user world.store
    cases given with
    | none =>
        refine ⟨none, store, ?_⟩
        rw [requestedMailbox, if_pos inbox, Effect.bind_ok (onStore_ok ran)]
        rfl
    | some id =>
        obtain ⟨found, last, fetched⟩ := reliable.getMailbox id store
        refine ⟨found, last, ?_⟩
        rw [requestedMailbox, if_pos inbox, Effect.bind_ok (onStore_ok ran)]
        exact @onStore_ok _ _ _ _ { world with store } _ _ fetched
  · obtain ⟨mailboxes, store, ran⟩ := reliable.listMailboxes user world.store
    refine ⟨mailboxes.find? fun mailbox => mailbox.path.name = some name, store, ?_⟩
    rw [requestedMailbox, if_neg inbox, findMailbox, Effect.bind_ok (onStore_ok ran)]
    exact Effect.pure_apply _ _

theorem fetchEach_ok (reliable : ctx.Reliable) (items : List Text)
    (entries : List (Nat × MessageMetadata)) (world : World σ β) :
    ∃ lines store, fetchEach ctx items entries world = (.ok lines, { world with store }) := by
  induction entries generalizing world with
  | nil => exact ⟨[], world.store, rfl⟩
  | cons entry entries ih =>
      obtain ⟨found, store, ran⟩ := reliable.getMessage entry.2.messageId world.store
      obtain ⟨lines, last, others⟩ := ih { world with store }
      rw [fetchEach, Effect.bind_ok (onStore_ok ran), Effect.bind_ok others]
      cases found with
      | none => exact ⟨lines, last, rfl⟩
      | some mail => exact ⟨_, last, rfl⟩

theorem concluded_no (on : world.session.state ≠ .logout) (message : Text) :
    Concluded tag (no tag message) world := ⟨on, .inl (completed_no tag message)⟩

theorem chosenByUid_bind (sequence : Text) (messages : List MessageMetadata)
    (next : List MessageMetadata → Handler σ β ImapResponse) :
    chosenByUid sequence messages >>= next =
      Effect.ofExcept (parseUidSequenceSet sequence messages) >>= fun uids =>
        next (messages.filter fun metadata => uids.contains metadata.uid) := by
  rw [chosenByUid, bind_assoc]
  rfl

theorem gives_readUids_bind {sequence : Text} {messages : List MessageMetadata}
    {next : UidSet → Handler σ β ImapResponse}
    (answers : ∀ uids, (next uids).Gives world post) :
    (Effect.ofExcept (parseUidSequenceSet sequence messages) >>= next).Gives world post ↔
      uidSetReads sequence = true := by
  rw [Effect.gives_ofExcept_bind, ← parseUidSequenceSet_ok_iff sequence messages]
  exact ⟨fun ⟨uids, read, _⟩ => ⟨uids, read⟩, fun ⟨uids, read⟩ => ⟨uids, read, answers uids⟩⟩

section Session

variable (on : world.session.state ≠ .logout)
  (implied : ∀ {response world}, Concluded tag response world → post response world)
include on implied

theorem gives_asUser_onStore {action : Username → Effect Text σ Value}
    {finish : Username → Value → ImapResponse} (total : ∀ user, (action user).Total)
    (finishes : ∀ user value, Completed tag (finish user value).format) :
    (asUser tag fun user => do
      let value ← onStore (action user)
      return finish user value : Handler σ β ImapResponse).Gives world post := by
  rw [gives_asUser fun message => implied (concluded_no on message)]
  intro user _
  rw [gives_onStore_bind (total user)]
  intro value store _
  exact Effect.gives_pure.mpr (implied ⟨on, .inl (finishes user value)⟩)

theorem handleLogin_gives (reliable : ctx.Reliable) (user password : Text) :
    (handleLogin ctx tag user password).Gives world post := by
  rw [handleLogin, Effect.gives_read_bind]
  split
  · exact Effect.gives_pure.mpr (implied ⟨on, .inl (completed_bad tag _)⟩)
  · cases Username.new user with
    | error error => exact Effect.gives_pure.mpr (implied ⟨on, .inl (completed_no tag _)⟩)
    | ok username =>
        obtain ⟨authenticated, backend, ran⟩ := reliable.authenticate username password world.backend
        have asked : onBackend (ctx.authBackend.authenticate username password) world =
            (.ok authenticated, { world with backend }) := by
          rw [onBackend, Effect.focus_apply, ran]
        dsimp only
        rw [Effect.gives_bind asked]
        cases authenticated with
        | true =>
            rw [if_pos rfl, setSession, Effect.gives_modify_bind]
            exact Effect.gives_pure.mpr (implied ⟨nofun, .inl (completed_ok tag _)⟩)
        | false => exact Effect.gives_pure.mpr (implied ⟨on, .inl (completed_no tag _)⟩)

theorem handleSelect_gives (reliable : ctx.Reliable) (mailbox : Text) (readOnly : Bool) :
    (handleSelect ctx tag mailbox readOnly).Gives world post := by
  rw [handleSelect, gives_asUser fun message => implied (concluded_no on message)]
  intro user _
  obtain ⟨found, store, ran⟩ := @requestedMailbox_ok _ _ _ world reliable user mailbox
  rw [Effect.gives_bind ran]
  cases found with
  | none => exact Effect.gives_pure.mpr (implied ⟨on, .inl (completed_no tag _)⟩)
  | some found =>
      dsimp only
      rw [gives_onStore_bind (reliable.getMailboxCounters found.id)]
      intro counters last _
      rw [setSession, Effect.gives_modify_bind, subscribe, Effect.gives_modify_bind]
      exact Effect.gives_pure.mpr (implied ⟨nofun, .inl (completed_listing _ tag _)⟩)

theorem handleDelete_gives (reliable : ctx.Reliable) (mailbox : Text) :
    (handleDelete ctx tag mailbox).Gives world post := by
  rw [handleDelete, gives_asUser fun message => implied (concluded_no on message)]
  intro user _
  rw [gives_findMailbox_bind reliable]
  intro mailboxes store _
  split
  · exact Effect.gives_pure.mpr (implied ⟨on, .inl (completed_no tag _)⟩)
  · rename_i found _
    rw [gives_onStore_bind (reliable.deleteMailbox found.id)]
    intro _ _ _
    exact Effect.gives_pure.mpr (implied ⟨on, .inl (completed_ok tag _)⟩)

theorem handleRename_gives (reliable : ctx.Reliable) (old new : Text) :
    (handleRename ctx tag old new).Gives world post := by
  rw [handleRename, gives_asUser fun message => implied (concluded_no on message)]
  intro user _
  rw [gives_findMailbox_bind reliable]
  intro mailboxes store _
  split
  · exact Effect.gives_pure.mpr (implied ⟨on, .inl (completed_no tag _)⟩)
  · rename_i found _
    rw [gives_onStore_bind (reliable.renameMailbox found.id _)]
    intro _ _ _
    exact Effect.gives_pure.mpr (implied ⟨on, .inl (completed_ok tag _)⟩)

theorem handleIdle_gives (reliable : ctx.Reliable)
    (plain : world.session.compressPending = false) :
    (handleIdle ctx tag).Gives world post := by
  rw [handleIdle, gives_inMailbox fun message => implied (concluded_no on message)]
  intro id _
  rw [gives_onStore_bind (reliable.getMailboxCounters id)]
  intro counters store _
  rw [setSession, Effect.gives_modify_bind]
  exact Effect.gives_pure.mpr (implied ⟨nofun, .inr ⟨⟨id, rfl⟩, rfl, plain⟩⟩)

theorem handleNamespace_gives : (handleNamespace tag : Handler σ β _).Gives world post := by
  rw [handleNamespace, Effect.gives_read_bind]
  split
  · exact Effect.gives_pure.mpr (implied ⟨on, .inl (completed_no tag _)⟩)
  · exact Effect.gives_pure.mpr (implied ⟨on, .inl (completed_no tag _)⟩)
  · exact Effect.gives_pure.mpr (implied ⟨on, .inl (completed_listing _ tag _)⟩)

theorem handleCompress_gives (mechanism : Text) :
    (handleCompress tag mechanism : Handler σ β _).Gives world post := by
  rw [handleCompress, Effect.gives_read_bind]
  split
  · exact Effect.gives_pure.mpr (implied ⟨on, .inl (completed_no tag _)⟩)
  · split
    · exact Effect.gives_pure.mpr (implied ⟨on, .inl (completed_no tag _)⟩)
    · rw [setSession, Effect.gives_modify_bind]
      exact Effect.gives_pure.mpr (implied ⟨on, .inl (completed_ok tag _)⟩)

/-! The commands about messages. -/

theorem handleFetch_gives (reliable : ctx.Reliable) (sequence : Text) (items : List Text) :
    (handleFetch ctx tag sequence items).Gives world post := by
  rw [handleFetch, gives_inMailbox fun message => implied (concluded_no on message)]
  intro id _
  rw [gives_onStore_bind (reliable.getMailboxMessages id)]
  intro messages store _
  obtain ⟨lines, last, ran⟩ := fetchEach_ok reliable items
    (numberedAs messages (parseSequenceNumbers sequence messages.length)) { world with store }
  dsimp only
  rw [Effect.gives_bind ran]
  exact Effect.gives_pure.mpr (implied ⟨on, .inl (completed_listing _ tag _)⟩)

theorem handleStore_gives (sequence : Text) (mode : StoreMode) (flags : List Text) :
    (handleStore ctx tag sequence mode flags).Gives world post := by
  rw [handleStore, gives_inMailbox fun message => implied (concluded_no on message)]
  intro id _
  exact Effect.gives_pure.mpr (implied ⟨on, .inl (completed_ok tag _)⟩)

theorem handleSearch_gives (reliable : ctx.Reliable) (criteria : List Text) :
    (handleSearch ctx tag criteria).Gives world post := by
  rw [handleSearch, gives_inMailbox fun message => implied (concluded_no on message)]
  intro id _
  rw [gives_onStore_bind (reliable.search id _)]
  intro ids store _
  exact Effect.gives_pure.mpr (implied ⟨on, .inl (completed_listing _ tag _)⟩)

theorem handleUidSearch_gives (reliable : ctx.Reliable) (criteria : List Text) :
    (handleUidSearch ctx tag criteria).Gives world post := by
  rw [handleUidSearch, gives_inMailbox fun message => implied (concluded_no on message)]
  intro id _
  rw [gives_onStore_bind (reliable.search id _)]
  intro ids store _
  rw [gives_onStore_bind (reliable.getMailboxMessages id)]
  intro messages last _
  exact Effect.gives_pure.mpr (implied ⟨on, .inl (completed_listing _ tag _)⟩)

theorem expungeChosen_gives (reliable : ctx.Reliable) (id : MailboxId)
    (removed : List (UInt32 × MessageMetadata)) (completion : Text) :
    (expungeChosen ctx tag id removed completion).Gives world post := by
  rw [expungeChosen]
  by_cases some : removed ≠ []
  · rw [if_pos some, gives_onStore_bind (reliable.deleteMessages _)]
    intro _ store _
    rw [publishAll, Effect.gives_modify_bind]
    exact Effect.gives_pure.mpr (implied ⟨on, .inl (completed_listing _ tag _)⟩)
  · rw [if_neg some]
    exact Effect.gives_pure.mpr (implied ⟨on, .inl (completed_listing _ tag _)⟩)

theorem handleExpunge_gives (reliable : ctx.Reliable) :
    (handleExpunge ctx tag).Gives world post := by
  rw [handleExpunge, gives_inMailbox fun message => implied (concluded_no on message)]
  intro id _
  rw [gives_onStore_bind (reliable.getMailboxMessages id)]
  intro messages store _
  exact @expungeChosen_gives _ _ _ { world with store } _ _ on implied reliable id _ _

theorem handleClose_gives (reliable : ctx.Reliable) :
    (handleClose ctx tag).Gives world post := by
  rw [handleClose, gives_inMailbox fun message => implied (concluded_no on message)]
  intro id _
  rw [gives_onStore_bind (reliable.getMailboxMessages id)]
  intro messages store _
  have closes : ∀ store : σ, Effect.Gives (do
      setSession fun session => { session with state := .authenticated, mailboxEventRx := none }
      return ok tag "CLOSE completed".toList) { world with store } post := by
    intro store
    rw [setSession, Effect.gives_modify_bind]
    exact Effect.gives_pure.mpr (implied ⟨nofun, .inl (completed_ok tag _)⟩)
  dsimp only
  split
  · rw [gives_onStore_bind (reliable.deleteMessages _)]
    intro _ last _
    exact closes last
  · exact closes store

theorem copyChosen_gives (reliable : ctx.Reliable) (dest : Mailbox) (ids : List MessageId)
    (sources : List Text) (name : Text) :
    (copyChosen ctx tag dest ids sources name).Gives world post := by
  rw [copyChosen]
  split
  · exact Effect.gives_pure.mpr (implied ⟨on, .inl (completed_ok tag _)⟩)
  · rw [gives_onStore_bind (reliable.copyMessages ids dest.id)]
    intro copied store _
    exact Effect.gives_pure.mpr (implied ⟨on, .inl (completed_ok tag _)⟩)

theorem moveChosen_gives (reliable : ctx.Reliable) (dest : Mailbox) (ids : List MessageId)
    (sources : List Text) (name : Text) :
    (moveChosen ctx tag dest ids sources name).Gives world post := by
  rw [moveChosen]
  split
  · exact Effect.gives_pure.mpr (implied ⟨on, .inl (completed_ok tag _)⟩)
  · rw [gives_onStore_bind (reliable.copyMessages ids dest.id)]
    intro copied store _
    rw [gives_onStore_bind (reliable.setFlags ids _)]
    intro _ flagged _
    rw [gives_onStore_bind (reliable.deleteMessages ids)]
    intro _ last _
    exact Effect.gives_pure.mpr (implied ⟨on, .inl (completed_ok tag _)⟩)

theorem gives_withDestination (reliable : ctx.Reliable) {mailbox : Text}
    {handle : MailboxId → Mailbox → Handler σ β ImapResponse} {P : Prop}
    (each : ∀ id dest store, (handle id dest).Gives { world with store } post ↔ P) :
    (withDestination ctx tag mailbox handle).Gives world post ↔
      ((∃ id, world.session.state = .selected id) →
        (∃ user, world.session.username = some user ∧ HasMailbox ctx world user mailbox) → P) := by
  rw [withDestination, inMailboxAsUser, forall_exists_index,
    gives_inMailbox fun message => implied (concluded_no on message)]
  refine forall₂_congr fun id _ => ?_
  rw [Effect.gives_read_bind]
  cases world.session.username with
  | none => simpa using Effect.gives_pure.mpr (implied (concluded_no on _))
  | some user =>
      have absent : ∀ (message : Text) (store : σ), (pure (no tag message) :
          Handler σ β ImapResponse).Gives { world with store } post :=
        fun message store => Effect.gives_pure.mpr (implied ⟨on, .inl (completed_no tag _)⟩)
      dsimp only
      rw [gives_findMailbox_iff reliable (absent _) (each id)]
      simp

theorem handleCopy_gives (reliable : ctx.Reliable) (sequence mailbox : Text) :
    (handleCopy ctx tag sequence mailbox).Gives world post := by
  refine (@gives_withDestination _ _ _ _ _ _ on implied reliable _ _ True ?_).mpr fun _ _ => trivial
  intro id dest store
  exact iff_true_intro (@copyChosen_gives _ _ _ { world with store } _ _ on implied reliable dest _ _ _)

theorem handleMove_gives (reliable : ctx.Reliable) (sequence mailbox : Text) :
    (handleMove ctx tag sequence mailbox).Gives world post := by
  refine (@gives_withDestination _ _ _ _ _ _ on implied reliable _ _ True ?_).mpr fun _ _ => trivial
  intro id dest store
  exact iff_true_intro (@moveChosen_gives _ _ _ { world with store } _ _ on implied reliable dest _ _ _)

theorem gives_inMailbox_readUids (reliable : ctx.Reliable) {sequence : Text}
    {next : MailboxId → List MessageMetadata → UidSet → Handler σ β ImapResponse}
    (answers : ∀ id messages uids store, (next id messages uids).Gives { world with store } post) :
    (inMailbox tag fun id => do
      let messages ← onStore (ctx.messageStore.getMailboxMessages id)
      let uids ← Effect.ofExcept (parseUidSequenceSet sequence messages)
      next id messages uids).Gives world post ↔
      ¬((∃ id, world.session.state = .selected id) ∧ uidSetReads sequence = false) := by
  rw [gives_inMailbox fun message => implied (concluded_no on message)]
  have each : ∀ id, (onStore (ctx.messageStore.getMailboxMessages id) >>= fun messages =>
      Effect.ofExcept (parseUidSequenceSet sequence messages) >>= next id messages).Gives world
        post ↔ uidSetReads sequence = true := by
    intro id
    obtain ⟨messages, store, ran⟩ := reliable.getMailboxMessages id world.store
    rw [Effect.gives_bind (onStore_ok ran)]
    exact @gives_readUids_bind _ _ { world with store } post _ _ _
      fun uids => answers id messages uids store
  constructor
  · rintro gives ⟨⟨id, selected⟩, unread⟩
    have reads := (each id).mp (gives id selected)
    rw [unread] at reads
    cases reads
  · intro reads id selected
    rw [not_and, Bool.not_eq_false] at reads
    exact (each id).mpr (reads ⟨id, selected⟩)

theorem handleUidFetch_gives_iff (reliable : ctx.Reliable) (sequence : Text) (items : List Text) :
    (handleUidFetch ctx tag sequence items).Gives world post ↔
      ¬Escapes ctx world (.uid (.fetch sequence items)) := by
  simp only [handleUidFetch, chosenByUid_bind]
  apply gives_inMailbox_readUids on implied reliable
  intro id messages uids store
  obtain ⟨lines, last, ran⟩ := fetchEach_ok reliable items
    ((messages.filter fun metadata => uids.contains metadata.uid).zipIdx.map
      fun entry => (entry.2 + 1, entry.1)) { world with store }
  refine (Effect.gives_bind ran).mpr ?_
  exact Effect.gives_pure.mpr (implied ⟨on, .inl (completed_listing _ tag _)⟩)

theorem handleUidStore_gives_iff (reliable : ctx.Reliable) (sequence : Text) (mode : StoreMode)
    (flags : List Text) :
    (handleUidStore ctx tag sequence mode flags).Gives world post ↔
      ¬Escapes ctx world (.uid (.store sequence mode flags)) := by
  simp only [handleUidStore, chosenByUid_bind]
  apply gives_inMailbox_readUids on implied reliable
  intro id messages uids store
  split
  · exact Effect.gives_pure.mpr (implied ⟨on, .inl (completed_ok tag _)⟩)
  · rw [applyFlags_eq, gives_onStore_bind (reliable.setFlags _ _)]
    intro _ last _
    rw [publishAll, Effect.gives_modify_bind]
    exact Effect.gives_pure.mpr (implied ⟨on, .inl (completed_ok tag _)⟩)

theorem handleUidExpunge_gives_iff (reliable : ctx.Reliable) (sequence : Text) :
    (handleUidExpunge ctx tag sequence).Gives world post ↔
      ¬Escapes ctx world (.uid (.expunge sequence)) := by
  apply gives_inMailbox_readUids on implied reliable
  intro id messages uids store
  exact @expungeChosen_gives _ _ _ { world with store } _ _ on implied reliable id _ _

theorem gives_withDestination_readUids (reliable : ctx.Reliable) {sequence mailbox : Text}
    {next : Mailbox → List MessageMetadata → UidSet → Handler σ β ImapResponse}
    (answers : ∀ dest messages uids store,
      (next dest messages uids).Gives { world with store } post) :
    (withDestination ctx tag mailbox fun id dest => do
      let messages ← onStore (ctx.messageStore.getMailboxMessages id)
      let uids ← Effect.ofExcept (parseUidSequenceSet sequence messages)
      next dest messages uids).Gives world post ↔
      ¬((∃ id, world.session.state = .selected id) ∧
        (∃ user, world.session.username = some user ∧ HasMailbox ctx world user mailbox) ∧
        uidSetReads sequence = false) := by
  rw [not_and, not_and, Bool.not_eq_false]
  apply gives_withDestination on implied reliable
  intro id dest store
  obtain ⟨messages, last, ran⟩ := reliable.getMailboxMessages id store
  refine (Effect.gives_bind (@onStore_ok _ _ _ _ { world with store } _ _ ran)).trans ?_
  exact @gives_readUids_bind _ _ { world with store := last } post _ _ _
    fun uids => answers dest messages uids last

theorem handleUidCopy_gives_iff (reliable : ctx.Reliable) (sequence mailbox : Text) :
    (handleUidCopy ctx tag sequence mailbox).Gives world post ↔
      ¬Escapes ctx world (.uid (.copy sequence mailbox)) := by
  simp only [handleUidCopy, chosenByUid_bind]
  apply gives_withDestination_readUids on implied reliable
  intro dest messages uids store
  exact @copyChosen_gives _ _ _ { world with store } _ _ on implied reliable dest _ _ _

theorem handleUidMove_gives_iff (reliable : ctx.Reliable) (sequence mailbox : Text) :
    (handleUidMove ctx tag sequence mailbox).Gives world post ↔
      ¬Escapes ctx world (.uid (.move sequence mailbox)) := by
  simp only [handleUidMove, chosenByUid_bind]
  apply gives_withDestination_readUids on implied reliable
  intro dest messages uids store
  exact @moveChosen_gives _ _ _ { world with store } _ _ on implied reliable dest _ _ _

theorem handleAppend_gives_iff (reliable : ctx.Reliable) (mailbox : Text) (flags : List Text)
    (dateTime : Option Text) (literal : Octets) :
    (handleAppend ctx tag mailbox flags literal).Gives world post ↔
      ¬Escapes ctx world (.append mailbox flags dateTime literal) := by
  have reads : (∀ user, world.session.state.isAuthenticated = true ∧
      world.session.username = some user → HasMailbox ctx world user mailbox →
      ∃ mail, literalMail ctx literal = .ok mail) ↔
      ¬Escapes ctx world (.append mailbox flags dateTime literal) := by
    rw [literalMail_ok_iff]
    constructor
    · rintro reads ⟨⟨user, authenticated, username, held⟩, value, member, reversed⟩
      exact reads user ⟨authenticated, username⟩ held value member reversed
    · intro plain user acts held value member reversed
      exact plain ⟨⟨user, acts.1, acts.2, held⟩, value, member, reversed⟩
  have drawn : ∀ world : World σ β, drawUuid ctx world =
      (.ok (ctx.newUuid world.draws), { world with draws := world.draws + 1 }) := fun _ => rfl
  have counts : ∀ found : Mailbox, Effect.Total (Effect.unwrapOr 0 (do
      let counters ← ctx.metadataStore.getMailboxCounters found.id
      return counters.messages)) := fun found store => ⟨_, _, rfl⟩
  rw [handleAppend, gives_asUser fun message => implied (concluded_no on message), ← reads]
  refine forall₂_congr fun user _ => ?_
  apply gives_findMailbox_iff reliable
  · intro store
    exact Effect.gives_pure.mpr (implied ⟨on, .inl (completed_no tag _)⟩)
  · intro found store
    refine Effect.gives_ofExcept_bind.trans (exists_congr fun mail => and_iff_left ?_)
    rw [Effect.gives_bind (drawn _), Effect.gives_bind (drawn _),
      gives_onStore_bind (reliable.appendMessage _ _)]
    intro metadata appended _
    dsimp only
    split
    · rw [gives_onStore_bind (reliable.setFlags _ _)]
      intro _ flagged _
      rw [gives_onStore_bind (counts found)]
      intro count last _
      rw [publish, Effect.gives_modify_bind]
      exact Effect.gives_pure.mpr (implied ⟨on, .inl (completed_ok tag _)⟩)
    · rw [gives_onStore_bind (counts found)]
      intro count last _
      rw [publish, Effect.gives_modify_bind]
      exact Effect.gives_pure.mpr (implied ⟨on, .inl (completed_ok tag _)⟩)

theorem handleCommand_gives_iff (reliable : ctx.Reliable)
    (plain : world.session.compressPending = false) {command : ImapCommand}
    (other : command ≠ .logout) :
    (handleCommand ctx tag command).Gives world post ↔ ¬Escapes ctx world command := by
  cases command with
  | logout => exact absurd rfl other
  | append mailbox flags dateTime literal =>
      exact handleAppend_gives_iff on implied reliable mailbox flags dateTime literal
  | uid subcommand =>
      cases subcommand with
      | fetch sequence items => exact handleUidFetch_gives_iff on implied reliable sequence items
      | store sequence mode flags => exact handleUidStore_gives_iff on implied reliable sequence mode flags
      | search criteria =>
          exact iff_of_true (handleUidSearch_gives on implied reliable criteria) not_false
      | copy sequence mailbox => exact handleUidCopy_gives_iff on implied reliable sequence mailbox
      | move sequence mailbox => exact handleUidMove_gives_iff on implied reliable sequence mailbox
      | expunge sequence => exact handleUidExpunge_gives_iff on implied reliable sequence
  | login user password => exact iff_of_true (handleLogin_gives on implied reliable user password) not_false
  | select mailbox => exact iff_of_true (handleSelect_gives on implied reliable mailbox false) not_false
  | examine mailbox => exact iff_of_true (handleSelect_gives on implied reliable mailbox true) not_false
  | fetch sequence items =>
      exact iff_of_true (handleFetch_gives on implied reliable sequence items) not_false
  | store sequence mode flags =>
      exact iff_of_true (handleStore_gives on implied sequence mode flags) not_false
  | search criteria => exact iff_of_true (handleSearch_gives on implied reliable criteria) not_false
  | list reference mailbox =>
      exact iff_of_true (gives_asUser_onStore on implied reliable.listMailboxes
        fun _ _ => completed_listing _ tag _) not_false
  | lsub reference mailbox =>
      exact iff_of_true (gives_asUser_onStore on implied reliable.listSubscriptions
        fun _ _ => completed_listing _ tag _) not_false
  | subscribe mailbox =>
      exact iff_of_true (gives_asUser_onStore on implied (fun user => reliable.subscribeMailbox user _)
        fun _ _ => completed_ok tag _) not_false
  | unsubscribe mailbox =>
      exact iff_of_true (gives_asUser_onStore on implied
        (fun user => reliable.unsubscribeMailbox user _)
        fun _ _ => completed_ok tag _) not_false
  | create mailbox =>
      exact iff_of_true (gives_asUser_onStore on implied
        (fun user => reliable.createMailbox ⟨user, [mailbox]⟩)
        fun _ _ => completed_ok tag _) not_false
  | createSpecialUse mailbox specialUse =>
      exact iff_of_true (gives_asUser_onStore on implied
        (fun user => reliable.createMailboxWithSpecialUse ⟨user, [mailbox]⟩ [specialUse])
        fun _ _ => completed_ok tag _) not_false
  | delete mailbox => exact iff_of_true (handleDelete_gives on implied reliable mailbox) not_false
  | rename old new => exact iff_of_true (handleRename_gives on implied reliable old new) not_false
  | copy sequence mailbox =>
      exact iff_of_true (handleCopy_gives on implied reliable sequence mailbox) not_false
  | move sequence mailbox =>
      exact iff_of_true (handleMove_gives on implied reliable sequence mailbox) not_false
  | expunge => exact iff_of_true (handleExpunge_gives on implied reliable) not_false
  | close => exact iff_of_true (handleClose_gives on implied reliable) not_false
  | idle => exact iff_of_true (handleIdle_gives on implied reliable plain) not_false
  | «namespace» => exact iff_of_true (handleNamespace_gives on implied) not_false
  | compress mechanism => exact iff_of_true (handleCompress_gives on implied mechanism) not_false
  | capability =>
      exact iff_of_true (Effect.gives_pure.mpr (implied ⟨on, .inl (completed_ok tag _)⟩)) not_false
  | noop => exact iff_of_true (Effect.gives_pure.mpr (implied ⟨on, .inl (completed_ok tag _)⟩)) not_false
  | authenticate mechanism initialResponse =>
      exact iff_of_true (Effect.gives_pure.mpr (implied ⟨on, .inl (completed_bad tag _)⟩)) not_false

end Session

end Handlers

/-! The loop. -/

section Loop

variable {ctx : HandlerContext σ β} {loop : SessionLoop σ β} {tag : Text} {command : ImapCommand}

theorem settle_reads (going : loop.ended = false) {response : ImapResponse} {lead shown : Text}
    (concluded : Concluded tag response loop.world)
    (written : loop.written = shown ++ (lead ++ response.format)) :
    loop.settle.Reading ∧
      ∃ output, loop.settle.written = shown ++ output ∧ Completed tag output := by
  have answered : ∀ completed : Completed tag response.format,
      Completed tag (lead ++ response.format) := by
    intro completed
    simpa using completed.within lead []
  rw [SessionLoop.settle]
  by_cases pending : loop.world.session.compressPending = true
  · rw [if_pos pending]
    refine ⟨⟨going, concluded.on, rfl⟩, _, written, ?_⟩
    rcases concluded.answered with completed | ⟨_, _, plain⟩
    · exact answered completed
    · rw [plain] at pending
      cases pending
  · rw [if_neg pending]
    rw [Bool.not_eq_true] at pending
    split
    · rename_i id idling
      refine ⟨⟨going, nofun, pending⟩, lead ++ response.format ++
        (ok (loop.world.session.tag.getD "A001".toList) "IDLE terminated".toList).format, ?_, ?_⟩
      · change loop.written ++ _ = _
        rw [written]
        simp
      · rcases concluded.answered with completed | ⟨_, tagged, _⟩
        · simpa using (answered completed).within [] _
        · rw [tagged]
          simpa using (completed_ok tag _).within (lead ++ response.format) []
    · rename_i out
      exact absurd out concluded.on
    · rename_i notIdle _
      refine ⟨⟨going, concluded.on, pending⟩, _, written, ?_⟩
      rcases concluded.answered with completed | ⟨⟨id, idling⟩, _⟩
      · exact answered completed
      · exact absurd idling (notIdle id)

theorem runCommand_reads (going : loop.ended = false)
    (gives : (handleCommand ctx tag command).Gives loop.world (Concluded tag)) :
    (loop.runCommand ctx tag command).Reading ∧
      ∃ output, (loop.runCommand ctx tag command).written = loop.written ++ output ∧
        Completed tag output := by
  obtain ⟨response, world, handled, concluded⟩ := gives
  obtain ⟨events, receiver, run⟩ := SessionLoop.runCommand_eq_settle handled
  rw [run]
  apply settle_reads
  · exact going
  · exact ⟨concluded.on, concluded.answered⟩
  · rfl

theorem runCommand_ends
    (fails : ¬(handleCommand ctx tag command).Gives loop.world fun _ _ => True) :
    (loop.runCommand ctx tag command).ended = true := by
  rcases handled : handleCommand ctx tag command loop.world with ⟨outcome, world⟩
  cases outcome with
  | ok response => exact absurd ⟨response, world, handled, trivial⟩ fails
  | error error => rw [SessionLoop.runCommand, handled]

theorem runCommand_logout (plain : loop.world.session.compressPending = false) :
    (loop.runCommand ctx tag .logout).ended = true := by
  have handled : handleCommand ctx tag .logout loop.world = _ := rfl
  obtain ⟨events, receiver, run⟩ := SessionLoop.runCommand_eq_settle handled
  have unpending : ¬loop.world.session.compressPending = true := by
    rw [plain]
    decide
  rw [run, SessionLoop.settle, if_neg unpending]

theorem start_reads {world : World σ β} (new : world.session = .new) :
    (SessionLoop.start world).Reading := by
  refine ⟨rfl, ?_, ?_⟩
  · change world.session.state ≠ .logout
    rw [new]
    nofun
  · change world.session.compressPending = false
    rw [new]
    rfl

theorem turn_of_text (going : loop.ended = false) {line following : Octets} {text : Text}
    (decoded : decodeUtf8 line = some text) (nonempty : line ≠ []) :
    loop.turn ctx line following =
      match readCommandLine ctx.toUppercase (trim text) following with
      | .command tag command => (loop.write (continuation (trim text))).runCommand ctx tag command
      | .refused response => (loop.write (continuation (trim text))).write response.format
      | .panicked => { loop.write (continuation (trim text)) with ended := true } := by
  rw [SessionLoop.turn, if_neg (by rw [going]; decide), decoded]
  cases text with
  | nil =>
      have empty := encodeUtf8_of_decodeUtf8 decoded
      exact absurd empty.symm nonempty
  | cons first rest => rfl

theorem turn_reads (reliable : ctx.Reliable) (reading : loop.Reading) (line following : Octets) :
    (loop.turn ctx line following).ended = true ∨ (loop.turn ctx line following).Reading := by
  by_cases nonempty : line = []
  · subst nonempty
    left
    rw [SessionLoop.turn, if_neg (by rw [reading.going]; decide)]
    rfl
  cases decoded : decodeUtf8 line with
  | none =>
      left
      rw [SessionLoop.turn, if_neg (by rw [reading.going]; decide), decoded]
  | some text =>
      rw [turn_of_text reading.going decoded nonempty]
      cases readCommandLine ctx.toUppercase (trim text) following with
      | panicked => exact .inl rfl
      | refused response => exact .inr ⟨reading.going, reading.on, reading.plain⟩
      | command tag command =>
          dsimp only
          by_cases leaving : command = .logout
          · left
            rw [leaving]
            exact runCommand_logout reading.plain
          · have answers := fun post => @handleCommand_gives_iff _ _ ctx loop.world tag post reading.on
            by_cases escapes : Escapes ctx loop.world command
            · left
              apply runCommand_ends
              intro gives
              exact (answers _ (fun _ => trivial) reliable reading.plain leaving).mp gives escapes
            · have gives := (answers _ id reliable reading.plain leaving).mpr escapes
              exact .inr (@runCommand_reads _ _ ctx (loop.write (continuation (trim text))) _ _
                reading.going gives).1

/-- A session goes on or has ended, whatever lines it is sent: the loop is never about to read a
line after LOGOUT or before the stream has been changed to a compressed one. -/
theorem session_reads (reliable : ctx.Reliable) {world : World σ β} (new : world.session = .new)
    (lines : List (Octets × Octets)) :
    let loop := lines.foldl (fun loop line => loop.turn ctx line.1 line.2) (SessionLoop.start world)
    loop.ended = true ∨ loop.Reading := by
  have run : ∀ loop : SessionLoop σ β, loop.ended = true ∨ loop.Reading →
      (lines.foldl (fun loop line => loop.turn ctx line.1 line.2) loop).ended = true ∨
        (lines.foldl (fun loop line => loop.turn ctx line.1 line.2) loop).Reading := by
    induction lines with
    | nil => exact fun _ held => held
    | cons line lines ih =>
        intro loop held
        refine ih _ (?_ : (loop.turn ctx line.1 line.2).ended = true ∨
          (loop.turn ctx line.1 line.2).Reading)
        rcases held with ended | reading
        · rw [SessionLoop.turn, if_pos ended]
          exact .inl ended
        · exact turn_reads reliable reading line.1 line.2
  exact run _ (.inr (start_reads new))

end Loop

def forgiving (ctx : HandlerContext σ β) : HandlerContext σ β :=
  { ctx with
    mailboxStore :=
      { createMailbox := fun path => (ctx.mailboxStore.createMailbox path).unwrapOr ⟨0⟩
        createMailboxWithSpecialUse := fun path uses =>
          (ctx.mailboxStore.createMailboxWithSpecialUse path uses).unwrapOr ⟨0⟩
        deleteMailbox := fun id => (ctx.mailboxStore.deleteMailbox id).unwrapOr ()
        renameMailbox := fun id path => (ctx.mailboxStore.renameMailbox id path).unwrapOr ()
        getMailbox := fun id => (ctx.mailboxStore.getMailbox id).unwrapOr none
        listMailboxes := fun user => (ctx.mailboxStore.listMailboxes user).unwrapOr []
        getUserInbox := fun user => (ctx.mailboxStore.getUserInbox user).unwrapOr none
        subscribeMailbox := fun user name => (ctx.mailboxStore.subscribeMailbox user name).unwrapOr ()
        unsubscribeMailbox := fun user name =>
          (ctx.mailboxStore.unsubscribeMailbox user name).unwrapOr ()
        listSubscriptions := fun user => (ctx.mailboxStore.listSubscriptions user).unwrapOr [] }
    messageStore :=
      { appendMessage := fun id mail =>
          (ctx.messageStore.appendMessage id mail).unwrapOr ⟨⟨0⟩, id, 0, .new, 0⟩
        getMessage := fun id => (ctx.messageStore.getMessage id).unwrapOr none
        deleteMessages := fun ids => (ctx.messageStore.deleteMessages ids).unwrapOr ()
        setFlags := fun ids flags => (ctx.messageStore.setFlags ids flags).unwrapOr ()
        getMessageFlags := fun id => (ctx.messageStore.getMessageFlags id).unwrapOr none
        search := fun id criteria => (ctx.messageStore.search id criteria).unwrapOr []
        copyMessages := fun ids id => (ctx.messageStore.copyMessages ids id).unwrapOr []
        getMailboxMessages := fun id => (ctx.messageStore.getMailboxMessages id).unwrapOr [] }
    metadataStore :=
      { getMailboxCounters := fun id => (ctx.metadataStore.getMailboxCounters id).unwrapOr ⟨0, 0, 0⟩ }
    authBackend :=
      { ctx.authBackend with
        authenticate := fun user password =>
          (ctx.authBackend.authenticate user password).unwrapOr false } }

theorem forgiving_reliable (ctx : HandlerContext σ β) : (forgiving ctx).Reliable where
  createMailbox _ := Effect.total_unwrapOr _ _
  createMailboxWithSpecialUse _ _ := Effect.total_unwrapOr _ _
  deleteMailbox _ := Effect.total_unwrapOr _ _
  renameMailbox _ _ := Effect.total_unwrapOr _ _
  getMailbox _ := Effect.total_unwrapOr _ _
  listMailboxes _ := Effect.total_unwrapOr _ _
  getUserInbox _ := Effect.total_unwrapOr _ _
  subscribeMailbox _ _ := Effect.total_unwrapOr _ _
  unsubscribeMailbox _ _ := Effect.total_unwrapOr _ _
  listSubscriptions _ := Effect.total_unwrapOr _ _
  appendMessage _ _ := Effect.total_unwrapOr _ _
  getMessage _ := Effect.total_unwrapOr _ _
  deleteMessages _ := Effect.total_unwrapOr _ _
  setFlags _ _ := Effect.total_unwrapOr _ _
  search _ _ := Effect.total_unwrapOr _ _
  copyMessages _ _ := Effect.total_unwrapOr _ _
  getMailboxMessages _ := Effect.total_unwrapOr _ _
  getMailboxCounters _ := Effect.total_unwrapOr _ _
  authenticate _ _ := Effect.total_unwrapOr _ _

def uidFetchLine (sequence : String) : Octets :=
  encodeUtf8 ("a UID FETCH ".toList ++ sequence.toList ++ " FLAGS\r\n".toList)

def newWorld : World Filesystem Unit := { inboxWorld (inboxWith []) with session := .new }

theorem uidFetchLine_session :
    let loop := [(uidFetchLine "1:*", [])].foldl
      (fun loop line => loop.turn (forgiving plainContext) line.1 line.2) (SessionLoop.start newWorld)
    loop.ended = true ∨ loop.Reading :=
  @session_reads _ _ (forgiving plainContext) (forgiving_reliable plainContext) newWorld rfl _

end Rusmes
