import Rusmes.Auth.Sasl
import Rusmes.Imap.Command
import Rusmes.Imap.Sequence
import Rusmes.Imap.Session

/-!
The command handlers of `handler.rs`, `handler_auth.rs`, `handler_mailbox.rs` and
`handler_message.rs`. A handler runs in a world made of the stores, the
authentication backend, the registry shared with other sessions and the session
itself; an error it returns ends the session.
-/

namespace Rusmes

open WireText ImapResponse

structure HandlerContext (σ β : Type) extends CaseMapping where
  mailboxStore : MailboxStore σ
  messageStore : MessageStore σ
  metadataStore : MetadataStore σ
  authBackend : AuthBackend β
  toUppercase : Text → Text
  newUuid : Nat → BitVec 128

structure World (σ β : Type) where
  store : σ
  backend : β
  registry : MailboxRegistry
  session : ImapSession
  draws : Nat

variable {σ β Value : Type}

abbrev Handler (σ β : Type) := Effect Text (World σ β)

def onStore (action : Effect Text σ Value) : Handler σ β Value :=
  Effect.focus World.store (fun world store => { world with store }) action

theorem onStore_ok {action : Effect Text σ Value} {world : World σ β} {value : Value} {after : σ}
    (ran : action world.store = (.ok value, after)) :
    onStore action world = (.ok value, { world with store := after }) := by
  rw [onStore, Effect.focus_apply, ran]

def onBackend (action : Effect Text β Value) : Handler σ β Value :=
  Effect.focus World.backend (fun world backend => { world with backend }) action

def setSession (change : ImapSession → ImapSession) : Handler σ β Unit :=
  Effect.modify fun world => { world with session := change world.session }

def publish (id : MailboxId) (event : MailboxEvent) : Handler σ β Unit :=
  Effect.modify fun world => { world with registry := MailboxRegistry.publish id event world.registry }

def publishAll (id : MailboxId) (events : List MailboxEvent) : Handler σ β Unit :=
  Effect.modify fun world =>
    { world with registry := events.foldl (fun registry event =>
        MailboxRegistry.publish id event registry) world.registry }

def subscribe (id : MailboxId) : Handler σ β Unit :=
  Effect.modify fun world =>
    let (registry, receiver) := MailboxRegistry.subscribe world.registry id
    { world with registry, session.mailboxEventRx := some receiver }

def drawUuid (ctx : HandlerContext σ β) : Handler σ β (BitVec 128) := fun world =>
  (.ok (ctx.newUuid world.draws), { world with draws := world.draws + 1 })

def ImapState.isAuthenticated : ImapState → Bool
  | .authenticated | .selected _ => true
  | _ => false

def asUser (tag : Text) (handle : Username → Handler σ β ImapResponse) :
    Handler σ β ImapResponse := do
  let world ← Effect.read
  if world.session.state.isAuthenticated then
    match world.session.username with
    | some username => handle username
    | none => return no tag "No username in session".toList
  else return no tag "Not authenticated".toList

def inMailbox (tag : Text) (handle : MailboxId → Handler σ β ImapResponse) :
    Handler σ β ImapResponse := do
  let world ← Effect.read
  match world.session.state with
  | .selected mailboxId => handle mailboxId
  | _ => return no tag "No mailbox selected".toList

theorem inMailbox_selected {world : World σ β} {id : MailboxId}
    (selected : world.session.state = .selected id) (tag : Text)
    (handle : MailboxId → Handler σ β ImapResponse) :
    inMailbox tag handle world = handle id world := by
  rw [inMailbox, Effect.read_bind, selected]

/-- COPY and MOVE look at the user after the selected mailbox. -/
def inMailboxAsUser (tag : Text) (handle : MailboxId → Username → Handler σ β ImapResponse) :
    Handler σ β ImapResponse :=
  inMailbox tag fun mailboxId => do
    let world ← Effect.read
    match world.session.username with
    | some username => handle mailboxId username
    | none => return no tag "No username in session".toList

def findMailbox (ctx : HandlerContext σ β) (username : Username) (name : Text) :
    Handler σ β (Option Mailbox) := do
  let mailboxes ← onStore (ctx.mailboxStore.listMailboxes username)
  return mailboxes.find? fun mailbox => mailbox.path.name = some name

def capabilities : List Text :=
  ["IMAP4rev1", "LITERAL+", "SASL-IR", "LOGIN-REFERRALS", "ID", "ENABLE", "IDLE", "NAMESPACE",
    "UIDPLUS", "LIST-EXTENDED", "UNSELECT", "CHILDREN", "SPECIAL-USE", "MOVE", "COMPRESS=DEFLATE",
    "AUTH=PLAIN", "AUTH=LOGIN", "AUTH=CRAM-MD5", "AUTH=SCRAM-SHA-256",
    "AUTH=XOAUTH2"].map String.toList

def handleCapability (tag : Text) : Handler σ β ImapResponse :=
  return ok tag ("[CAPABILITY ".toList ++ joinWith [' '] capabilities ++
    "] Capability completed".toList)

def handleNoop (tag : Text) : Handler σ β ImapResponse :=
  return ok tag "NOOP completed".toList

def handleCompress (tag mechanism : Text) : Handler σ β ImapResponse := do
  let world ← Effect.read
  if ¬eqIgnoreAsciiCase mechanism "DEFLATE".toList then
    return no tag ("COMPRESS: unsupported mechanism ".toList ++ mechanism)
  else if world.session.compressPending then return no tag "COMPRESS: already active".toList
  else
    setSession fun session => { session with compressPending := true }
    return ok tag "[COMPRESSIONACTIVE] Begin DEFLATE compression".toList

def handleLogin (ctx : HandlerContext σ β) (tag user password : Text) :
    Handler σ β ImapResponse := do
  let world ← Effect.read
  if world.session.state ≠ .notAuthenticated then
    return bad tag "Already authenticated".toList
  else
    match Username.new user with
    | .error _ => return no tag "[AUTHENTICATIONFAILED] Invalid username".toList
    | .ok username =>
        let authenticated ← onBackend (ctx.authBackend.authenticate username password)
        if authenticated then
          setSession fun session =>
            { session with state := .authenticated, tag := some tag, username := some username }
          return ok tag (user ++ " logged in".toList)
        else return no tag "[AUTHENTICATIONFAILED] Invalid credentials".toList

def handleLogout (tag : Text) : Handler σ β ImapResponse := do
  setSession fun session => { session with state := .logout }
  return ok tag "Logout completed".toList

def requestedMailbox (ctx : HandlerContext σ β) (username : Username) (mailbox : Text) :
    Handler σ β (Option Mailbox) := do
  if eqIgnoreAsciiCase mailbox "INBOX".toList then
    match ← onStore (ctx.mailboxStore.getUserInbox username) with
    | some inboxId => onStore (ctx.mailboxStore.getMailbox inboxId)
    | none => return none
  else findMailbox ctx username mailbox

def selectLines (mailbox : Mailbox) (counters : MailboxCounters) : List Text :=
  ["* ".toList ++ decimal counters.messages.toNat ++ " EXISTS".toList,
    "* ".toList ++ decimal counters.recent.toNat ++ " RECENT".toList,
    "* OK [UIDVALIDITY ".toList ++ decimal mailbox.uidValidity.toNat ++ "]".toList,
    "* OK [UIDNEXT ".toList ++ decimal mailbox.uidNext.toNat ++ "]".toList,
    "* FLAGS (\\Seen \\Answered \\Flagged \\Deleted \\Draft)".toList]

/-- SELECT and EXAMINE: `readOnly` only chooses the words of the answer. -/
def handleSelect (ctx : HandlerContext σ β) (tag mailbox : Text) (readOnly : Bool) :
    Handler σ β ImapResponse :=
  asUser tag fun username => do
    match ← requestedMailbox ctx username mailbox with
    | none => return no tag "Mailbox does not exist".toList
    | some found =>
        let counters ← onStore (ctx.metadataStore.getMailboxCounters found.id)
        setSession fun session => { session with state := .selected found.id }
        subscribe found.id
        let completion := if readOnly then "[READ-ONLY] EXAMINE completed"
          else "[READ-WRITE] SELECT completed"
        return listing (selectLines found counters) tag completion.toList

def quotedLine (keyword : String) (name : Text) : Text :=
  "* ".toList ++ keyword.toList ++ " () \"/\" \"".toList ++ name ++ "\"".toList

def handleList (ctx : HandlerContext σ β) (tag pattern : Text) : Handler σ β ImapResponse :=
  asUser tag fun username => do
    let mailboxes ← onStore (ctx.mailboxStore.listMailboxes username)
    let chosen := mailboxes.filter fun mailbox =>
      pattern = ['*'] || mailbox.path.name = some pattern
    let lines := chosen.map fun mailbox =>
      quotedLine "LIST" (mailbox.path.name.getD "INBOX".toList)
    return listing lines tag "LIST completed".toList

def matchMailboxPattern : Text → Text → Bool
  | name, [] => name = []
  | name, '*' :: rest =>
      rest = [] || (List.range (name.length + 1)).any fun skipped =>
        matchMailboxPattern (name.drop skipped) rest
  | name, '%' :: rest =>
      if rest = [] then '/' ∉ name
      else (List.range (name.length + 1)).any fun skipped =>
        '/' ∉ name.take skipped && matchMailboxPattern (name.drop skipped) rest
  | [], _ :: _ => false
  | character :: name, first :: rest => character = first && matchMailboxPattern name rest

def handleLsub (ctx : HandlerContext σ β) (tag pattern : Text) : Handler σ β ImapResponse :=
  asUser tag fun username => do
    let subscriptions ← onStore (ctx.mailboxStore.listSubscriptions username)
    let chosen := subscriptions.filter fun name =>
      if pattern = ['*'] then true
      else if '*' ∈ pattern ∨ '%' ∈ pattern then matchMailboxPattern name pattern
      else name = pattern
    return listing (chosen.map (quotedLine "LSUB")) tag "LSUB completed".toList

def handleSubscribe (ctx : HandlerContext σ β) (tag mailbox : Text) : Handler σ β ImapResponse :=
  asUser tag fun username => do
    onStore (ctx.mailboxStore.subscribeMailbox username (trimQuotes mailbox))
    return ok tag "SUBSCRIBE completed".toList

def handleUnsubscribe (ctx : HandlerContext σ β) (tag mailbox : Text) :
    Handler σ β ImapResponse :=
  asUser tag fun username => do
    onStore (ctx.mailboxStore.unsubscribeMailbox username (trimQuotes mailbox))
    return ok tag "UNSUBSCRIBE completed".toList

def handleCreate (ctx : HandlerContext σ β) (tag mailbox : Text) : Handler σ β ImapResponse :=
  asUser tag fun username => do
    let _ ← onStore (ctx.mailboxStore.createMailbox ⟨username, [mailbox]⟩)
    return ok tag "CREATE completed".toList

def handleCreateSpecialUse (ctx : HandlerContext σ β) (tag mailbox specialUse : Text) :
    Handler σ β ImapResponse :=
  asUser tag fun username => do
    let _ ← onStore (ctx.mailboxStore.createMailboxWithSpecialUse ⟨username, [mailbox]⟩ [specialUse])
    return ok tag "CREATE completed".toList

def handleDelete (ctx : HandlerContext σ β) (tag mailbox : Text) : Handler σ β ImapResponse :=
  asUser tag fun username => do
    match ← findMailbox ctx username mailbox with
    | none => return no tag "Mailbox does not exist".toList
    | some found =>
        onStore (ctx.mailboxStore.deleteMailbox found.id)
        return ok tag "DELETE completed".toList

def handleRename (ctx : HandlerContext σ β) (tag old new : Text) : Handler σ β ImapResponse :=
  asUser tag fun username => do
    match ← findMailbox ctx username old with
    | none => return no tag "Mailbox does not exist".toList
    | some found =>
        onStore (ctx.mailboxStore.renameMailbox found.id ⟨username, [new]⟩)
        return ok tag "RENAME completed".toList

def handleIdle (ctx : HandlerContext σ β) (tag : Text) : Handler σ β ImapResponse :=
  inMailbox tag fun mailboxId => do
    let counters ← onStore (ctx.metadataStore.getMailboxCounters mailboxId)
    setSession fun session =>
      { session.updateSnapshot counters.messages counters.recent with
        state := .idle mailboxId, tag := some tag }
    return ⟨none, ['+'], "idling".toList⟩

def handleNamespace (tag : Text) : Handler σ β ImapResponse := do
  let world ← Effect.read
  match world.session.state with
  | .notAuthenticated => return no tag "NAMESPACE requires authentication".toList
  | .logout => return no tag "Already logged out".toList
  | _ =>
      let line := "* NAMESPACE ((\"\" \".\")) NIL NIL".toList
      return listing [line] tag "NAMESPACE completed".toList

end Rusmes
