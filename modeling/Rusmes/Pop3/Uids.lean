import Rusmes.Auth.Evidence
import Rusmes.Pop3.Exclusive

/-!
Unique-ids over a history: POP3 sessions of a user, among others, with mail delivered
to the INBOX and deleted from it on the way. A unique-id is the place of a message in
the listing the session found when it came in, so the ids last as long as the
listings only grow at their end.
-/

namespace Rusmes

open WireText

variable {β σ : Type} {services : Pop3Services β σ}

/-- A session goes on, or the store is as deliveries and deletions have left it. -/
inductive MaildropEvent (σ : Type)
  | session (happening : Pop3Happening)
  | stored (store : σ)

/-- The INBOX of the user is there, a search lists the messages present in it, each of
them is found, and reading leaves them as they are. -/
structure Lists (services : Pop3Services β σ) (user : Username) (present : σ → List MessageId) :
    Prop where
  once : ∀ store, (present store).Nodup
  inbox : ∀ store, ∃ inbox later last,
    services.mailboxStore.getUserInbox user store = (.ok (some inbox), later) ∧
      services.messageStore.search inbox .all later = (.ok (present later), last) ∧
      present later = present store ∧ present last = present store
  found : ∀ store, ∀ id ∈ present store, ∃ mail later,
    services.messageStore.getMessage id store = (.ok (some mail), later) ∧
      present later = present store

def Pop3Response.Carries (response : Pop3Response) (line : Text) : Prop :=
  match response.status, response.multilineData with
  | .ok, none => response.message = line
  | .ok, some lines => line ∈ lines
  | _, _ => False

/-- An answer to UIDL, with a number or without, names this message by this unique-id. -/
def Uidl (world : Pop3World β σ) (uid : Text) (id : MessageId) : Prop :=
  ∃ (argument : Option UInt32) (response : Pop3Response) (index : Nat) (message : MessageInfo),
    (Pop3Session.handleUidl argument world).1 = .answer response ∧
      response.Carries (decimal (index + 1) ++ ' ' :: uid) ∧
      world.session.messages[index]? = some message ∧ message.messageId = id

def Pop3Connection.Of (user : Username) (connection : Pop3Connection) : Prop :=
  connection.session.state = .transaction ∧ connection.session.username = some user

theorem not_carries_err (message line : Text) : ¬(Pop3Response.err message).Carries line := id

theorem carries_ok (message line : Text) : (Pop3Response.ok message).Carries line ↔ message = line :=
  Iff.rfl

theorem carries_okMultiline (message line : Text) (lines : List Text) :
    (Pop3Response.okMultiline message lines).Carries line ↔ line ∈ lines := Iff.rfl

namespace Pop3Session

theorem mem_listing {session : Pop3Session} {value : MessageInfo → Nat} {index : Nat}
    {text : Text} :
    decimal (index + 1) ++ ' ' :: text ∈ session.listing value ↔
      ∃ message, session.messages[index]? = some message ∧ message.deleted = false ∧
        decimal (value message) = text := by
  rw [listing, List.mem_map]
  constructor
  · rintro ⟨⟨message, place⟩, member, same⟩
    obtain ⟨member, kept⟩ := List.mem_filter.mp member
    obtain ⟨places, texts⟩ := decimal_append_cons rfl rfl same
    have here : place = index := by omega
    subst here
    refine ⟨message, List.mem_zipIdx_iff_getElem?.mp member, ?_, texts⟩
    simpa using kept
  · rintro ⟨message, found, kept, rfl⟩
    refine ⟨(message, index), List.mem_filter.mpr ⟨?_, ?_⟩, rfl⟩
    · exact List.mem_zipIdx_iff_getElem?.mpr found
    · simpa using kept

theorem numbered_eq_some {session : Pop3Session} {number : UInt32} {message : MessageInfo}
    (named : session.numbered number = some message) :
    0 < number.toNat ∧ session.messages[number.toNat - 1]? = some message := by
  rw [numbered] at named
  split at named
  · cases named
  · next nonzero =>
      exact ⟨Nat.pos_of_ne_zero fun zero => nonzero (UInt32.toNat_inj.mp zero), named⟩

end Pop3Session

theorem uidl_iff {world : Pop3World β σ} (inside : world.session.state = .transaction)
    {uid : Text} {id : MessageId} :
    Uidl world uid id ↔ ∃ (index : Nat) (message : MessageInfo),
      world.session.messages[index]? = some message ∧ message.deleted = false ∧
        message.messageId = id ∧ decimal message.uid.toNat = uid := by
  constructor
  · rintro ⟨argument, response, index, message, answer, carries, found, same⟩
    unfold Pop3Session.handleUidl at answer
    rw [if_neg (not_not.mpr inside)] at answer
    cases argument with
    | none =>
        cases answer
        rw [carries_okMultiline, Pop3Session.mem_listing] at carries
        obtain ⟨listed, there, kept, text⟩ := carries
        rw [found] at there
        cases there
        exact ⟨index, message, found, kept, same, text⟩
    | some number =>
        dsimp only at answer
        rw [Pop3Session.describe] at answer
        cases named : world.session.numbered number with
        | none =>
            rw [named] at answer
            cases answer
            exact absurd carries (not_carries_err _ _)
        | some listed =>
            rw [named] at answer
            dsimp only at answer
            obtain ⟨positive, there⟩ := Pop3Session.numbered_eq_some named
            split at answer
            · cases answer
              exact absurd carries (not_carries_err _ _)
            · next kept =>
                cases answer
                rw [carries_ok] at carries
                obtain ⟨numbers, text⟩ := decimal_append_cons rfl rfl carries
                have here : number.toNat - 1 = index := by omega
                rw [here, found] at there
                cases there
                exact ⟨index, message, found, by simpa using kept, same, text⟩
  · rintro ⟨index, message, found, kept, same, text⟩
    refine ⟨none, .okMultiline "UIDL".toList
      (world.session.listing fun message => message.uid.toNat), index, message, ?_, ?_, found, same⟩
    · unfold Pop3Session.handleUidl
      rw [if_neg (not_not.mpr inside)]
      rfl
    · rw [carries_okMultiline, Pop3Session.mem_listing]
      exact ⟨message, found, kept, text⟩

namespace Pop3Server

def happen (services : Pop3Services β σ) (server : Pop3Server β σ) :
    MaildropEvent σ → Pop3Server β σ
  | .session happening => step services server happening
  | .stored store => { server with store }

def moments (services : Pop3Services β σ) (server : Pop3Server β σ) :
    List (MaildropEvent σ) → List (Pop3Server β σ)
  | [] => [server]
  | event :: events => server :: moments services (happen services server event) events

def entry (present : σ → List MessageId) (user : Username) (server : Pop3Server β σ) :
    MaildropEvent σ → Option (Nat × List MessageId)
  | .session (.input index .proceed) =>
      match server.connections[index]? with
      | some ⟨_, .loading username _, _⟩ =>
          if username = user then some (index, present server.store) else none
      | _ => none
  | _ => none

def entries (services : Pop3Services β σ) (present : σ → List MessageId) (user : Username)
    (server : Pop3Server β σ) : List (MaildropEvent σ) → List (Nat × List MessageId)
  | [] => []
  | event :: events =>
      (entry present user server event).toList ++
        entries services present user (happen services server event) events

/-- Over the history one unique-id is one message and one message has one unique-id, and
a session lists what was present when it came in, but for what it has marked. -/
structure Permanent (services : Pop3Services β σ) (present : σ → List MessageId)
    (user : Username) (server : Pop3Server β σ) (events : List (MaildropEvent σ)) : Prop where
  exact : ∀ first ∈ moments services server events, ∀ second ∈ moments services server events,
    ∀ one ∈ first.connections, ∀ other ∈ second.connections, one.Of user → other.Of user →
    ∀ uid uid' id id', Uidl ⟨one.session, first.auth, first.store⟩ uid id →
      Uidl ⟨other.session, second.auth, second.store⟩ uid' id' → (uid = uid' ↔ id = id')
  listed : ∀ moment ∈ moments services server events, ∀ (index : Nat) connection,
    moment.connections[index]? = some connection → connection.Of user →
    ∃ ids, (index, ids) ∈ entries services present user server events ∧ ∀ id ∈ ids,
      (∃ message ∈ connection.session.messages, message.messageId = id ∧ message.deleted = true) ∨
        ∃ uid, Uidl ⟨connection.session, moment.auth, moment.store⟩ uid id

def Growing (listings : List (List MessageId)) : Prop :=
  ∀ listing ∈ listings, listing.length ≤ UInt32.size ∧
    ∀ other ∈ listings, listing <+: other ∨ other <+: listing

end Pop3Server

def MessageInfo.key (message : MessageInfo) : MessageId × UInt32 := (message.messageId, message.uid)

def numberedFrom (place : Nat) (ids : List MessageId) : List (MessageId × UInt32) :=
  (ids.zipIdx place).map fun entry => (entry.1, UInt32.ofNat (entry.2 + 1))

theorem getElem?_numberedFrom (place : Nat) (ids : List MessageId) (index : Nat) :
    (numberedFrom place ids)[index]? =
      ids[index]?.map fun id => (id, UInt32.ofNat (place + index + 1)) := by
  rw [numberedFrom, List.getElem?_map, List.getElem?_zipIdx, Option.map_map]
  rfl

namespace Pop3Session

variable {user : Username} {present : σ → List MessageId}

theorem loadMessages_numbers (lists : Lists services user present) (place : Nat)
    (ids : List MessageId) (loaded : List MessageInfo) (store : σ)
    (there : ∀ id ∈ ids, id ∈ present store) :
    (loadMessages services place ids loaded store).1 = .ok () ∧
      (loadMessages services place ids loaded store).2.1.map MessageInfo.key =
        loaded.map MessageInfo.key ++ numberedFrom place ids := by
  induction ids generalizing place loaded store with
  | nil => exact ⟨rfl, (List.append_nil _).symm⟩
  | cons id ids ih =>
      obtain ⟨mail, later, answer, kept⟩ := lists.found store id (there id List.mem_cons_self)
      rw [loadMessages, answer]
      obtain ⟨done, numbers⟩ := ih (place + 1)
        (loaded ++ [⟨id, UInt32.ofNat (place + 1), octetLength (mailToWire mail), false⟩]) later
        (fun other member => kept ▸ there other (List.mem_cons_of_mem id member))
      refine ⟨done, numbers.trans ?_⟩
      rw [List.map_append, List.append_assoc]
      rfl

theorem loadMailbox_numbers (lists : Lists services user present) (session : Pop3Session)
    (store : σ) :
    (loadMailbox services user session store).1 = .ok () ∧
      (loadMailbox services user session store).2.1.messages.map MessageInfo.key =
        numberedFrom 0 (present store) ∧
      ∀ message ∈ (loadMailbox services user session store).2.1.messages,
        message.deleted = false := by
  obtain ⟨inbox, later, last, there, answer, kept, still⟩ := lists.inbox store
  obtain ⟨done, numbers⟩ := loadMessages_numbers lists 0 (present later) [] last
    (fun id member => still.trans kept.symm ▸ member)
  have unmarked := @loadMessages_unmarked _ _ services 0 (present later) []
    (fun _ member => by cases member) last
  rw [loadMailbox, there]
  simp only [answer]
  rw [kept] at done numbers unmarked ⊢
  exact ⟨done, numbers, unmarked⟩

theorem LineEffect.keys {reading : Reading} {before after : Pop3Session} {handled : Pop3Handled}
    (effect : LineEffect services reading before handled after)
    (inside : after.state = .transaction) :
    before.state = .transaction ∧ after.username = before.username ∧
      after.messages.map MessageInfo.key = before.messages.map MessageInfo.key := by
  have still : Quiet before after → before.state = .transaction ∧
      after.username = before.username ∧
      after.messages.map MessageInfo.key = before.messages.map MessageInfo.key := by
    intro quiet
    have there : before.state = .transaction := quiet.state.symm.trans inside
    refine ⟨there, quiet.username fun outside => ?_, congrArg _ quiet.messages⟩
    rw [there] at outside
    cases outside
  cases effect with
  | quiet response after quiet silent => exact still quiet
  | enter username report after quiet outside supports settled => exact still quiet
  | dele number message response told there named =>
      obtain ⟨positive, found⟩ := numbered_eq_some named
      have same : (before.messages.map MessageInfo.key)[number.toNat - 1]? =
          some (MessageInfo.key { message with deleted := true }) := by
        rw [List.getElem?_map, found]
        rfl
      refine ⟨there, rfl, ?_⟩
      obtain ⟨bound, key⟩ := List.getElem?_eq_some_iff.mp same
      rw [List.map_set, ← key]
      exact List.set_getElem_self bound
  | rset response told there =>
      refine ⟨there, rfl, ?_⟩
      rw [List.map_map]
      rfl
  | quit response told free => cases inside

end Pop3Session

namespace Pop3Server

section Numbers

variable {user : Username} {present : σ → List MessageId} {server : Pop3Server β σ}
  (sound : server.Sound services) {index : Nat} {before after : Pop3Connection}
  (found : server.connections[index]? = some before) (of : after.Of user)

def Stayed (user : Username) (before after : Pop3Connection) : Prop :=
  before.Of user ∧
    after.session.messages.map MessageInfo.key = before.session.messages.map MessageInfo.key

include found of

theorem stayed_put {other : Nat} {next : Pop3Connection}
    (same : next.session.state = .transaction → next.session.username = some user →
      Stayed user before next)
    (later : (server.put other next).connections[index]? = some after) :
    Stayed user before after := by
  rcases get_put later with ⟨_, rfl⟩ | ⟨_, there⟩
  · exact same of.1 of.2
  · rw [found] at there
    cases there
    exact ⟨of, rfl⟩

include sound

theorem stayed_receive {line : Text} {entropy : Entropy}
    (later : (receive services server index before line entropy).connections[index]? = some after) :
    Stayed user before after := by
  have effect := @Pop3Session.effect_handleLine _ _ services
    ⟨before.session, server.auth, server.store⟩ (sound.connections index before found).parked
    entropy line
  rw [Pop3Server.receive] at later
  generalize Pop3Session.handleLine services entropy line
    ⟨before.session, server.auth, server.store⟩ = outcome at effect later
  rcases outcome with ⟨handled, session, auth, store⟩
  have same : session.state = .transaction → session.username = some user →
      before.Of user ∧
        session.messages.map MessageInfo.key = before.session.messages.map MessageInfo.key := by
    intro inside named
    obtain ⟨there, owner, keys⟩ := effect.keys inside
    exact ⟨⟨there, owner.symm.trans named⟩, keys⟩
  cases handled with
  | answer response => exact stayed_put found of same later
  | enter username report => exact stayed_put found of same later

theorem entered_load (lists : Lists services user present) {username : Username}
    {report : LoginReport} (going : before.activity = .loading username report)
    (later : (load services server index before username).connections[index]? = some after) :
    username = user ∧ after.session.messages.map MessageInfo.key =
      numberedFrom 0 (present server.store) := by
  have outside := ((sound.connections index before found).arriving username report
    (Or.inr going)).1
  have loaded := @Pop3Session.loadMailbox_loaded _ _ services username before.session server.store
  have numbers := Pop3Session.loadMailbox_numbers lists before.session server.store
  rw [Pop3Server.load] at later
  cases outcome : Pop3Session.loadMailbox services username before.session server.store with
  | mk result rest =>
      rcases rest with ⟨session, store⟩
      rw [outcome] at later loaded
      cases result with
      | error error =>
          have away : session.state ≠ .transaction := by
            rw [loaded.state, outside]
            exact fun same => by cases same
          rcases get_put later with ⟨_, rfl⟩ | ⟨apart, _⟩
          · exact absurd of.1 away
          · exact absurd rfl apart
      | ok done =>
          rcases get_put later with ⟨_, rfl⟩ | ⟨apart, _⟩
          · obtain rfl : username = user := Option.some.inj of.2
            rw [outcome] at numbers
            exact ⟨rfl, numbers.2.1⟩
          · exact absurd rfl apart

theorem entered_advance (lists : Lists services user present) {input : Pop3Input}
    (later : (advance services server index before input).connections[index]? = some after) :
    Stayed user before after ∨ (index, present server.store) ∈
        entry present user server (.session (.input index input)) ∧
      after.session.messages.map MessageInfo.key = numberedFrom 0 (present server.store) := by
  have put : ∀ next : Pop3Connection,
      (server.put index next).connections[index]? = some after →
      next.session.state = before.session.state →
      next.session.username = before.session.username →
      next.session.messages = before.session.messages → Stayed user before after := by
    intro next there state username messages
    refine stayed_put found of (fun inside named => ?_) there
    exact ⟨⟨state.symm.trans inside, username.symm.trans named⟩, congrArg _ messages⟩
  have unmoved : server.connections[index]? = some after → Stayed user before after := by
    intro there
    rw [found] at there
    cases there
    exact ⟨of, rfl⟩
  have leaves : (server.leave index before).connections[index]? = some after →
      Stayed user before after := by
    intro there
    rw [leave] at there
    split at there
    · exact put _ there rfl rfl rfl
    · exact put _ there rfl rfl rfl
  cases input with
  | vanish =>
      rw [advance] at later
      split at later
      · exact Or.inl (unmoved later)
      · exact Or.inl (put _ later rfl rfl rfl)
  | line text entropy =>
      rw [advance] at later
      split at later
      · exact Or.inl (stayed_receive sound found of later)
      · exact Or.inl (unmoved later)
  | hangUp =>
      rw [advance] at later
      split at later
      · exact Or.inl (leaves later)
      · exact Or.inl (unmoved later)
  | unwritten =>
      rw [advance] at later
      split at later
      · exact Or.inl (put _ later rfl rfl rfl)
      · exact Or.inl (unmoved later)
  | proceed =>
      rw [advance] at later
      split at later
      · next username report _ =>
          rw [acquire] at later
          cases taken : MaildropLockManager.tryAcquire server.locks username.text with
          | none =>
              rw [taken] at later
              exact Or.inl (put _ later rfl rfl rfl)
          | some locks =>
              rw [taken] at later
              exact Or.inl (put _ later rfl rfl rfl)
      · next username report going =>
          obtain ⟨rfl, numbers⟩ := entered_load sound found of lists going later
          refine Or.inr ⟨?_, numbers⟩
          rcases before with ⟨session, activity, transcript⟩
          obtain rfl : activity = .loading username report := going
          rw [entry, found]
          simp
      · split at later
        · exact Or.inl (leaves later)
        · exact Or.inl (put _ later rfl rfl rfl)
      · rw [applyDeletions] at later
        split at later
        · exact Or.inl (put _ later rfl rfl rfl)
        · exact Or.inl (put _ later rfl rfl rfl)
      · exact Or.inl (unmoved later)

end Numbers

/-- Each session in the maildrop has the numbers of the listing it found there. -/
def Filed (user : Username) (entries : List (Nat × List MessageId)) (server : Pop3Server β σ) :
    Prop :=
  ∀ (index : Nat) (connection : Pop3Connection), server.connections[index]? = some connection →
    connection.Of user → ∃ ids, (index, ids) ∈ entries ∧
      connection.session.messages.map MessageInfo.key = numberedFrom 0 ids

section History

variable {user : Username} {present : σ → List MessageId} {server : Pop3Server β σ}
  {earlier : List (Nat × List MessageId)}

theorem Filed.weaken (filed : Filed user earlier server) (more : List (Nat × List MessageId)) :
    Filed user (earlier ++ more) server := by
  intro index connection found of
  obtain ⟨ids, member, numbers⟩ := filed index connection found of
  exact ⟨ids, List.mem_append_left more member, numbers⟩

theorem Filed.step (lists : Lists services user present) (sound : server.Sound services)
    (filed : Filed user earlier server) (happening : Pop3Happening) :
    Filed user (earlier ++ (entry present user server (.session happening)).toList)
      (step services server happening) := by
  intro index after later of
  cases happening with
  | connect timestamp =>
      rw [Pop3Server.step] at later
      rcases Nat.lt_or_ge index server.connections.length with old | new
      · rw [List.getElem?_append_left old] at later
        exact filed.weaken _ index after later of
      · rw [List.getElem?_append_right new] at later
        obtain rfl := List.mem_singleton.mp (List.mem_of_getElem? later)
        cases of.1
  | input other input =>
      rw [Pop3Server.step] at later
      cases located : server.connections[other]? with
      | none =>
          rw [located] at later
          exact filed.weaken _ index after later of
      | some before =>
          rw [located] at later
          dsimp only at later
          by_cases apart : index ≠ other
          · rw [advance_elsewhere apart] at later
            exact filed.weaken _ index after later of
          · rw [ne_eq, not_not] at apart
            subst apart
            rcases entered_advance sound located of lists later with ⟨there, same⟩ | ⟨new, numbers⟩
            · obtain ⟨ids, member, numbers⟩ := filed index before located there
              exact ⟨ids, List.mem_append_left _ member, same.trans numbers⟩
            · refine ⟨present server.store, List.mem_append_right _ ?_, numbers⟩
              exact Option.mem_toList.mpr new

theorem Filed.happen (lists : Lists services user present) (sound : server.Sound services)
    (filed : Filed user earlier server) (event : MaildropEvent σ) :
    (happen services server event).Sound services ∧
      Filed user (earlier ++ (entry present user server event).toList)
        (happen services server event) := by
  cases event with
  | session happening => exact ⟨sound.step happening, filed.step lists sound happening⟩
  | stored store =>
      refine ⟨⟨sound.connections, sound.exclusion, sound.dismissed, sound.once⟩, ?_⟩
      exact filed.weaken _

theorem Filed.moments (lists : Lists services user present) (sound : server.Sound services)
    (filed : Filed user earlier server) (events : List (MaildropEvent σ)) :
    ∀ moment ∈ moments services server events,
      Filed user (earlier ++ entries services present user server events) moment := by
  induction events generalizing server earlier with
  | nil =>
      intro moment member
      obtain rfl := List.mem_singleton.mp member
      exact filed.weaken _
  | cons event events ih =>
      intro moment member
      rcases List.mem_cons.mp member with rfl | rest
      · exact filed.weaken _
      · obtain ⟨sound, filed⟩ := filed.happen lists sound event
        rw [entries, ← List.append_assoc]
        exact ih sound filed moment rest

theorem entries_nodup (lists : Lists services user present) (events : List (MaildropEvent σ)) :
    ∀ listed ∈ entries services present user server events, listed.2.Nodup := by
  induction events generalizing server with
  | nil =>
      intro listed member
      cases member
  | cons event events ih =>
      intro listed member
      rcases List.mem_append.mp member with here | later
      · have entered := Option.mem_toList.mp here
        unfold entry at entered
        split at entered
        · split at entered
          · split at entered
            · cases entered
              exact lists.once _
            · cases entered
          · cases entered
        · cases entered
      · exact ih listed later

theorem entry_enters (lists : Lists services user present) {event : MaildropEvent σ} {index : Nat}
    {ids : List MessageId} (entered : entry present user server event = some (index, ids)) :
    ∃ connection, (Pop3Server.happen services server event).connections[index]? = some connection ∧
      connection.Of user ∧
      connection.session.messages.map MessageInfo.key = numberedFrom 0 ids ∧
      ∀ message ∈ connection.session.messages, message.deleted = false := by
  unfold entry at entered
  split at entered
  · next place =>
      split at entered
      · next session username report transcript located =>
          split at entered
          · next owner =>
              cases entered
              subst owner
              have bound := (List.getElem?_eq_some_iff.mp located).1
              have loaded := Pop3Session.loadMailbox_numbers lists session server.store
              rw [Pop3Server.happen, Pop3Server.step, located]
              dsimp only
              rw [advance]
              dsimp only
              rw [load]
              generalize Pop3Session.loadMailbox services username session server.store = result
                at loaded
              rcases result with ⟨outcome, after, store⟩
              obtain ⟨rfl, numbers, unmarked⟩ := loaded
              exact ⟨_, List.getElem?_set_self bound, ⟨rfl, rfl⟩, numbers, unmarked⟩
          · cases entered
      · cases entered
  · cases entered

theorem entries_enter (lists : Lists services user present) (events : List (MaildropEvent σ)) :
    ∀ listed ∈ entries services present user server events,
      ∃ moment ∈ Pop3Server.moments services server events, ∃ connection ∈ moment.connections,
        connection.Of user ∧
        connection.session.messages.map MessageInfo.key = numberedFrom 0 listed.2 ∧
        ∀ message ∈ connection.session.messages, message.deleted = false := by
  induction events generalizing server with
  | nil =>
      intro listed member
      cases member
  | cons event events ih =>
      intro listed member
      rcases List.mem_append.mp member with here | later
      · obtain ⟨connection, found, rest⟩ := entry_enters lists (Option.mem_toList.mp here)
        refine ⟨Pop3Server.happen services server event, List.mem_cons_of_mem _ ?_, connection,
          List.mem_of_getElem? found, rest⟩
        cases events with
        | nil => exact List.mem_singleton_self _
        | cons next events => exact List.mem_cons_self
      · obtain ⟨moment, there, rest⟩ := ih listed later
        exact ⟨moment, List.mem_cons_of_mem _ there, rest⟩

end History

theorem place_iff {ids : List MessageId} (once : ids.Nodup) {place there : Nat} {id id' : MessageId}
    (found : ids[place]? = some id) (located : ids[there]? = some id') : place = there ↔ id = id' := by
  constructor
  · rintro rfl
    exact Option.some.inj (found.symm.trans located)
  · rintro rfl
    have bound := (List.getElem?_eq_some_iff.mp found).1
    exact (List.getElem?_inj bound once).mp (found.trans located.symm)

theorem prefix_getElem? {ids other : List MessageId} (begins : ids <+: other) {place : Nat}
    {id : MessageId} (found : ids[place]? = some id) : other[place]? = some id := by
  obtain ⟨bound, rfl⟩ := List.getElem?_eq_some_iff.mp found
  exact List.prefix_iff_getElem?.mp begins place bound

theorem ofNat_succ_iff {place there : Nat} :
    UInt32.ofNat (place + 1) = UInt32.ofNat (there + 1) ↔
      (place + 1) % UInt32.size = (there + 1) % UInt32.size := by
  rw [← UInt32.toNat_inj]
  exact Iff.rfl

theorem growing_iff {listings : List (List MessageId)}
    (once : ∀ listing ∈ listings, listing.Nodup) :
    Growing listings ↔ ∀ listing ∈ listings, ∀ other ∈ listings, ∀ (place there : Nat)
      (id id' : MessageId), listing[place]? = some id → other[there]? = some id' →
      (UInt32.ofNat (place + 1) = UInt32.ofNat (there + 1) ↔ id = id') := by
  constructor
  · intro growing listing member other also place there id id' found located
    have placed := (List.getElem?_eq_some_iff.mp found).1
    have placed' := (List.getElem?_eq_some_iff.mp located).1
    have fits := (growing listing member).1
    have fits' := (growing other also).1
    have injective : UInt32.ofNat (place + 1) = UInt32.ofNat (there + 1) ↔ place = there := by
      rw [ofNat_succ_iff]
      rw [UInt32.size] at *
      omega
    rw [injective]
    rcases (growing listing member).2 other also with begins | begins
    · exact place_iff (once other also) (prefix_getElem? begins found) located
    · exact place_iff (once listing member) found (prefix_getElem? begins located)
  · intro agree listing member
    have begins : ∀ other ∈ listings, ∀ another ∈ listings, other.length ≤ another.length →
        other <+: another := by
      intro other also another too shorter
      rw [List.prefix_iff_getElem?]
      intro place bound
      have longer : place < another.length := by omega
      have same := (agree other also another too place place other[place] another[place]
        (List.getElem?_eq_getElem bound) (List.getElem?_eq_getElem longer)).mp rfl
      rw [same]
      exact List.getElem?_eq_getElem longer
    constructor
    · -- the numbers come round again after the last one
      by_contra more
      have first : 0 < listing.length := by omega
      have round : UInt32.size < listing.length := by omega
      have wrapped : UInt32.ofNat (0 + 1) = UInt32.ofNat (UInt32.size + 1) := by
        rw [ofNat_succ_iff]
        rfl
      have same := (agree listing member listing member 0 UInt32.size _ _
        (List.getElem?_eq_getElem first) (List.getElem?_eq_getElem round)).mp wrapped
      have places := (place_iff (once listing member) (List.getElem?_eq_getElem first)
        (List.getElem?_eq_getElem round)).mpr same
      cases places
    · intro other also
      rcases Nat.le_total listing.length other.length with shorter | longer
      · exact Or.inl (begins listing member other also shorter)
      · exact Or.inr (begins other also listing member longer)

section Uids

variable {user : Username} {present : σ → List MessageId} {server : Pop3Server β σ}
  {events : List (MaildropEvent σ)}

theorem uid_eq_iff {one other : UInt32} : decimal one.toNat = decimal other.toNat ↔ one = other := by
  constructor
  · intro same
    exact UInt32.toNat_inj.mp (decimal_injective same)
  · rintro rfl
    rfl

theorem uidl_place {world : Pop3World β σ} (inside : world.session.state = .transaction)
    {ids : List MessageId}
    (numbers : world.session.messages.map MessageInfo.key = numberedFrom 0 ids) {uid : Text}
    {id : MessageId} (given : Uidl world uid id) :
    ∃ place : Nat, ids[place]? = some id ∧ decimal (UInt32.ofNat (place + 1)).toNat = uid := by
  obtain ⟨place, message, found, _, rfl, rfl⟩ := (uidl_iff inside).mp given
  have key : (numberedFrom 0 ids)[place]? = some message.key := by
    rw [← numbers, List.getElem?_map, found]
    rfl
  rw [getElem?_numberedFrom] at key
  obtain ⟨id, there, same⟩ := Option.map_eq_some_iff.mp key
  obtain ⟨rfl, number⟩ := Prod.mk.inj same
  rw [Nat.zero_add] at number
  exact ⟨place, there, uid_eq_iff.mpr number⟩

theorem uidl_or_marked {world : Pop3World β σ} (inside : world.session.state = .transaction)
    {ids : List MessageId}
    (numbers : world.session.messages.map MessageInfo.key = numberedFrom 0 ids) {place : Nat}
    {id : MessageId} (there : ids[place]? = some id) :
    (∃ message ∈ world.session.messages, message.messageId = id ∧ message.deleted = true) ∨
      Uidl world (decimal (UInt32.ofNat (place + 1)).toNat) id := by
  have key : (world.session.messages.map MessageInfo.key)[place]? =
      some (id, UInt32.ofNat (place + 1)) := by
    rw [numbers, getElem?_numberedFrom, there, Nat.zero_add]
    rfl
  rw [List.getElem?_map] at key
  obtain ⟨message, found, same⟩ := Option.map_eq_some_iff.mp key
  obtain ⟨owner, number⟩ := Prod.mk.inj same
  cases marked : message.deleted with
  | true => exact Or.inl ⟨message, List.mem_of_getElem? found, owner, marked⟩
  | false =>
      refine Or.inr ((uidl_iff inside).mpr ⟨place, message, found, marked, owner, ?_⟩)
      rw [number]

theorem permanent_of_growing (lists : Lists services user present) (sound : server.Sound services)
    (fresh : Filed user [] server)
    (growing : Growing ((entries services present user server events).map Prod.snd)) :
    Permanent services present user server events := by
  have filed := fresh.moments lists sound events
  rw [List.nil_append] at filed
  have once : ∀ listing ∈ (entries services present user server events).map Prod.snd,
      listing.Nodup := by
    intro listing member
    obtain ⟨listed, there, rfl⟩ := List.mem_map.mp member
    exact entries_nodup lists events listed there
  have agree := (growing_iff once).mp growing
  constructor
  · intro first firstAt second secondAt one oneAt other otherAt oneOf otherOf uid uid' id id' given
      given'
    obtain ⟨index, located⟩ := List.getElem?_of_mem oneAt
    obtain ⟨index', located'⟩ := List.getElem?_of_mem otherAt
    obtain ⟨ids, member, numbers⟩ := filed first firstAt index one located oneOf
    obtain ⟨ids', member', numbers'⟩ := filed second secondAt index' other located' otherOf
    obtain ⟨place, found, rfl⟩ := uidl_place oneOf.1 numbers given
    obtain ⟨place', found', rfl⟩ := uidl_place otherOf.1 numbers' given'
    rw [uid_eq_iff]
    exact agree ids (List.mem_map_of_mem member) ids' (List.mem_map_of_mem member') place place' id
      id' found found'
  · intro moment member index connection located of
    obtain ⟨ids, entered, numbers⟩ := filed moment member index connection located of
    refine ⟨ids, entered, fun id there => ?_⟩
    obtain ⟨place, found⟩ := List.getElem?_of_mem there
    rcases @uidl_or_marked _ _ ⟨connection.session, moment.auth, moment.store⟩ of.1 ids numbers place id
      found with marked | given
    · exact Or.inl marked
    · exact Or.inr ⟨_, given⟩

theorem Permanent.growing (lists : Lists services user present)
    (permanent : Permanent services present user server events) :
    Growing ((entries services present user server events).map Prod.snd) := by
  have given : ∀ listing ∈ (entries services present user server events).map Prod.snd,
      ∃ moment ∈ moments services server events, ∃ connection ∈ moment.connections,
        connection.Of user ∧ ∀ (place : Nat) (id : MessageId), listing[place]? = some id →
          Uidl ⟨connection.session, moment.auth, moment.store⟩
            (decimal (UInt32.ofNat (place + 1)).toNat) id := by
    intro listing member
    obtain ⟨listed, there, rfl⟩ := List.mem_map.mp member
    obtain ⟨moment, momentAt, connection, connectionAt, of, numbers, unmarked⟩ :=
      entries_enter lists events listed there
    refine ⟨moment, momentAt, connection, connectionAt, of, fun place id found => ?_⟩
    apply (uidl_or_marked of.1 numbers found).resolve_left
    rintro ⟨message, there, _, marked⟩
    rw [unmarked message there] at marked
    cases marked
  apply (growing_iff ?_).mpr
  · intro listing member other also place there id id' found located
    obtain ⟨moment, momentAt, one, oneAt, oneOf, gives⟩ := given listing member
    obtain ⟨moment', momentAt', another, anotherAt, anotherOf, gives'⟩ := given other also
    rw [← uid_eq_iff]
    exact permanent.exact moment momentAt moment' momentAt' one oneAt another anotherAt oneOf
      anotherOf _ _ id id' (gives place id found) (gives' there id' located)
  · intro listing member
    obtain ⟨listed, there, rfl⟩ := List.mem_map.mp member
    exact entries_nodup lists events listed there

theorem filed_start (auth : β) (store : σ) :
    Filed user [] (start auth store : Pop3Server β σ) := by
  intro index connection found
  cases found

end Uids

abbrev Shelf := { ids : List MessageId // ids.Nodup }

def shelfMessages : MessageStore Shelf where
  appendMessage _ _ := Effect.fail "read only".toList
  getMessage id shelf :=
    (.ok (if id ∈ shelf.val then some (noteFromAlice []) else none), shelf)
  deleteMessages ids shelf :=
    (.ok (), ⟨shelf.val.filter (· ∉ ids), shelf.property.filter _⟩)
  setFlags _ _ := Effect.fail "read only".toList
  getMessageFlags _ := Effect.fail "read only".toList
  search _ _ shelf := (.ok shelf.val, shelf)
  copyMessages _ _ := Effect.fail "read only".toList
  getMailboxMessages _ := Effect.fail "read only".toList

def shelfMailboxes : MailboxStore Shelf where
  createMailbox _ := Effect.fail "read only".toList
  createMailboxWithSpecialUse _ _ := Effect.fail "read only".toList
  deleteMailbox _ := Effect.fail "read only".toList
  renameMailbox _ _ := Effect.fail "read only".toList
  getMailbox _ := Effect.fail "read only".toList
  listMailboxes _ := Effect.fail "read only".toList
  getUserInbox _ shelf := (.ok (some ⟨0⟩), shelf)
  subscribeMailbox _ _ := Effect.fail "read only".toList
  unsubscribeMailbox _ _ := Effect.fail "read only".toList
  listSubscriptions _ := Effect.fail "read only".toList

def shelfServices : Pop3Services Unit Shelf where
  toCaseMapping := asciiCase
  config := ⟨"localhost".toList, "ready".toList, false, []⟩
  crypto := ⟨⟨fun _ => [], fun _ => .ok [], fun _ => [], fun _ _ => .ok []⟩, fun _ _ => .ok []⟩
  md5 _ := []
  alphanumeric := Pop3Parser.isAsciiAlphanumeric
  authBackend := singleUser
  messageStore := shelfMessages
  mailboxStore := shelfMailboxes

theorem shelf_lists (user : Username) : Lists shelfServices user (Subtype.val : Shelf → _) where
  once shelf := shelf.property
  inbox shelf := ⟨⟨0⟩, shelf, shelf, rfl, rfl, rfl, rfl⟩
  found shelf id member := by
    refine ⟨noteFromAlice [], shelf, ?_, rfl⟩
    change (Except.ok (if id ∈ shelf.val then some (noteFromAlice []) else none), shelf) = _
    rw [if_pos member]

def visit (index : Nat) : List (MaildropEvent Shelf) :=
  .session (.connect []) ::
    [.line "USER alice".toList ⟨.ok 0, .ok 0, 0⟩, .proceed,
      .line "PASS zebra".toList ⟨.ok 0, .ok 0, 0⟩, .proceed, .proceed, .vanish].map fun input =>
      .session (.input index input)

def pairShelf : Shelf := ⟨[⟨1⟩, ⟨2⟩], by decide⟩

def revisit (gone : MessageId) : List (MaildropEvent Shelf) :=
  visit 0 ++ .stored (shelfMessages.deleteMessages [gone] pairShelf).2 :: visit 1

theorem entries_revisit_last : entries shelfServices Subtype.val aliceUser (start () pairShelf)
    (revisit ⟨2⟩) = [(0, [⟨1⟩, ⟨2⟩]), (1, [⟨1⟩])] := by
  decide +kernel

theorem entries_revisit_first : entries shelfServices Subtype.val aliceUser (start () pairShelf)
    (revisit ⟨1⟩) = [(0, [⟨1⟩, ⟨2⟩]), (1, [⟨2⟩])] := by
  decide +kernel

/-- Unique-ids are permanent over a history exactly when the listings the sessions of the
user find are the beginnings of one another, and none is too long for the numbers. -/
theorem uids_permanent_iff {user : Username} {present : σ → List MessageId}
    (lists : Lists services user present) (auth : β) (store : σ)
    (events : List (MaildropEvent σ)) :
    Permanent services present user (start auth store) events ↔
      Growing ((entries services present user (start auth store) events).map Prod.snd) := by
  constructor
  · intro permanent
    exact permanent.growing lists
  · exact permanent_of_growing lists (sound_start auth store) (filed_start auth store)

theorem last_deleted_permanent :
    Permanent shelfServices Subtype.val aliceUser (start () pairShelf) (revisit ⟨2⟩) := by
  apply (uids_permanent_iff (shelf_lists aliceUser) () pairShelf (revisit ⟨2⟩)).mpr
  rw [entries_revisit_last, Growing]
  decide

/-- The second message takes the number of the first. -/
theorem first_deleted_renumbers : Lists shelfServices aliceUser (Subtype.val : Shelf → _) ∧
    ¬Permanent shelfServices Subtype.val aliceUser (start () pairShelf) (revisit ⟨1⟩) := by
  refine ⟨shelf_lists aliceUser, fun permanent => ?_⟩
  have growing := permanent.growing (shelf_lists aliceUser)
  rw [entries_revisit_first, Growing] at growing
  exact absurd growing (by decide)

end Pop3Server

end Rusmes
