import Rusmes.Imap.Handlers

/-!
The message commands of `handler_message.rs` and the dispatcher of `handler.rs`.
-/

namespace Rusmes

open WireText ImapResponse

variable {σ β : Type}

def flagNames (flags : MessageFlags) : List Text :=
  let names := [(flags.seen, "\\Seen"), (flags.answered, "\\Answered"), (flags.flagged, "\\Flagged"),
    (flags.deleted, "\\Deleted"), (flags.draft, "\\Draft")]
  (names.filter Prod.fst).map fun name => name.2.toList

def fetchItem (ctx : HandlerContext σ β) (mail : Mail) (metadata : MessageMetadata) (item : Text) :
    Option Text :=
  let name := ctx.toUppercase item
  if name = "FLAGS".toList then
    some ("FLAGS (".toList ++ joinWith [' '] (flagNames metadata.flags) ++ ")".toList)
  else if name = "UID".toList then some ("UID ".toList ++ decimal metadata.uid.toNat)
  else if name = "BODY[]".toList ∨ name = "BODY.PEEK[]".toList then
    let text := mail.message.extractText.getD []
    some ("BODY[] \x7b".toList ++ decimal (octetLength text) ++ "\x7d\r\n".toList ++ text)
  else if name = "RFC822.SIZE".toList then
    some ("RFC822.SIZE ".toList ++ decimal metadata.size)
  else none

def buildFetchItems (ctx : HandlerContext σ β) (mail : Mail) (metadata : MessageMetadata)
    (items : List Text) : Text :=
  joinWith [' '] (items.filterMap (fetchItem ctx mail metadata))

def parseSearchCriteria (ctx : HandlerContext σ β) (criteria : List Text) : SearchCriteria :=
  match criteria with
  | [] => .all
  | first :: _ =>
      let name := ctx.toUppercase first
      if name = "ALL".toList then .all
      else if name = "UNSEEN".toList then .unseen
      else if name = "SEEN".toList then .seen
      else if name = "FLAGGED".toList then .flagged
      else if name = "UNFLAGGED".toList then .unflagged
      else if name = "DELETED".toList then .deleted
      else if name = "UNDELETED".toList then .undeleted
      else .all

def setNamedFlag (flags : MessageFlags) (name : Text) : MessageFlags :=
  if name = "\\SEEN".toList then { flags with seen := true }
  else if name = "\\ANSWERED".toList then { flags with answered := true }
  else if name = "\\FLAGGED".toList then { flags with flagged := true }
  else if name = "\\DELETED".toList then { flags with deleted := true }
  else if name = "\\DRAFT".toList then { flags with draft := true }
  else flags.addCustom name

def buildMessageFlags (ctx : HandlerContext σ β) (flags : List Text) : MessageFlags :=
  (flags.map ctx.toUppercase).foldl setNamedFlag .new

def splitAtCrlf : Text → List Text
  | [] => [[]]
  | '\r' :: '\n' :: rest => [] :: splitAtCrlf rest
  | character :: rest =>
      match splitAtCrlf rest with
      | [] => [[character]]
      | part :: parts => (character :: part) :: parts

def literalHeaders (ctx : HandlerContext σ β) (lines : List Text) : HeaderMap :=
  (lines.takeWhile (· ≠ [])).foldl (fun headers line =>
    match splitOnce ':' line with
    | some (name, value) => headers.insert ctx.toLowercase (trim name) (trim value)
    | none => headers) ∅

/-- Where the body starts: the offset of the first blank line in the lossily decoded
text, used as an offset into the data. Without an empty line it stays at zero. -/
def literalBodyStart (data : Octets) (text : Text) : Nat :=
  if (splitAtCrlf text).any List.isEmpty then
    match splitOnceAt (lineEnd ++ lineEnd) text with
    | some (before, _) => octetLength before + 4
    | none => data.length
  else 0

def parseMessageData (ctx : HandlerContext σ β) (data : Octets) : HeaderMap × Octets :=
  let text := decodeLossy data
  (literalHeaders ctx (splitAtCrlf text), data.drop (literalBodyStart data text))

/-- The part between the first angle brackets, or the trimmed text. Slicing panics when
the closing bracket comes before the opening one. -/
def extractEmailAddress (text : Text) : Except Text (Option Text) :=
  if '<' ∈ text ∧ '>' ∈ text then
    let start := (text.takeWhile (· ≠ '<')).length + 1
    let stop := (text.takeWhile (· ≠ '>')).length
    if start ≤ stop then .ok (some (trim ((text.take stop).drop start)))
    else .error "panic: slice of an address".toList
  else if '@' ∈ trim text then .ok (some (trim text))
  else .ok none

def parseEmailAddress (email : Text) : Option MailAddress :=
  match splitOnce '@' email with
  | none => none
  | some (localPart, domain) =>
      match Domain.new domain with
      | .error _ => none
      | .ok domain => (MailAddress.new localPart domain).toOption

def readAddress (value : Text) : Except Text (Option MailAddress) := do
  let email ← extractEmailAddress value
  return email.bind parseEmailAddress

def extractSenderFromHeaders (ctx : HandlerContext σ β) (headers : HeaderMap) :
    Except Text (Option MailAddress) :=
  match headers.getFirst ctx.toCaseMapping "from".toList with
  | none => .ok none
  | some value => readAddress value

def recipientFields (ctx : HandlerContext σ β) (headers : HeaderMap) : List Text :=
  let values (name : String) := (headers.lookup (ctx.toLowercase name.toList)).getD []
  values "to" ++ values "cc"

def extractRecipientsFromHeaders (ctx : HandlerContext σ β) (headers : HeaderMap) :
    Except Text (List MailAddress) := do
  let addresses ← (recipientFields ctx headers).mapM readAddress
  return addresses.filterMap id

def literalMail (ctx : HandlerContext σ β) (data : Octets) :
    Except Text (MailId → MessageId → Mail) := do
  let (headers, body) := parseMessageData ctx data
  let sender ← extractSenderFromHeaders ctx headers
  let recipients ← extractRecipientsFromHeaders ctx headers
  return fun id messageId =>
    { Mail.new id messageId sender recipients ⟨headers, .small body⟩ none none with
      state := .localDelivery }

def fetchEach (ctx : HandlerContext σ β) (items : List Text) :
    List (Nat × MessageMetadata) → Handler σ β (List Text)
  | [] => return []
  | (number, metadata) :: others => do
      let found ← onStore (ctx.messageStore.getMessage metadata.messageId)
      let lines ← fetchEach ctx items others
      match found with
      | none => return lines
      | some mail =>
          return ("* ".toList ++ decimal number ++ " FETCH (".toList ++
            buildFetchItems ctx mail metadata items ++ ")".toList) :: lines

def numberedAs (messages : List MessageMetadata) (numbers : List Nat) :
    List (Nat × MessageMetadata) :=
  numbers.filterMap fun number =>
    if 0 < number then messages[number - 1]?.map (number, ·) else none

def handleFetch (ctx : HandlerContext σ β) (tag sequence : Text) (items : List Text) :
    Handler σ β ImapResponse :=
  inMailbox tag fun mailboxId => do
    let messages ← onStore (ctx.messageStore.getMailboxMessages mailboxId)
    let numbers := parseSequenceNumbers sequence messages.length
    let lines ← fetchEach ctx items (numberedAs messages numbers)
    return listing lines tag "FETCH completed".toList

def flagEvents (messages : List MessageMetadata) (flags : List Text) : List MailboxEvent :=
  messages.map fun metadata => .flagsChanged metadata.uid flags

def applyFlags (ctx : HandlerContext σ β) (ids : List MessageId) (mode : StoreMode)
    (flags : MessageFlags) : Handler σ β Unit :=
  match mode with
  | .replace => onStore (ctx.messageStore.setFlags ids flags)
  | .add => onStore (ctx.messageStore.setFlags ids flags)
  | .remove => onStore (ctx.messageStore.setFlags ids flags)

theorem applyFlags_eq (ctx : HandlerContext σ β) (ids : List MessageId) (mode : StoreMode)
    (flags : MessageFlags) :
    applyFlags ctx ids mode flags = onStore (ctx.messageStore.setFlags ids flags) := by
  cases mode with
  | replace => rfl
  | add => rfl
  | remove => rfl

def handleStore (ctx : HandlerContext σ β) (tag sequence : Text) (mode : StoreMode)
    (flags : List Text) : Handler σ β ImapResponse :=
  inMailbox tag fun mailboxId => do
    let ids := parseSequenceSet sequence
    if ids ≠ [] then
      applyFlags ctx ids mode (buildMessageFlags ctx flags)
      let messages ← onStore (ctx.messageStore.getMailboxMessages mailboxId)
      publishAll mailboxId (flagEvents (messages.filter (·.messageId ∈ ids)) flags)
    return ok tag "STORE completed".toList

def searchLine (results : List Text) : Text := "* SEARCH ".toList ++ joinWith [' '] results

def handleSearch (ctx : HandlerContext σ β) (tag : Text) (criteria : List Text) :
    Handler σ β ImapResponse :=
  inMailbox tag fun mailboxId => do
    let ids ← onStore (ctx.messageStore.search mailboxId (parseSearchCriteria ctx criteria))
    return listing [searchLine (ids.map MessageId.display)] tag "SEARCH completed".toList

def handleAppend (ctx : HandlerContext σ β) (tag mailbox : Text) (flags : List Text)
    (literal : Octets) : Handler σ β ImapResponse :=
  asUser tag fun username => do
    match ← findMailbox ctx username mailbox with
    | none => return no tag "[TRYCREATE] Mailbox does not exist".toList
    | some found =>
        let mail ← Effect.ofExcept (literalMail ctx literal)
        let mailUuid ← drawUuid ctx
        let messageUuid ← drawUuid ctx
        let metadata ← onStore
          (ctx.messageStore.appendMessage found.id (mail ⟨mailUuid⟩ ⟨messageUuid⟩))
        if flags ≠ [] then
          onStore (ctx.messageStore.setFlags [metadata.messageId] (buildMessageFlags ctx flags))
        let count ← onStore (Effect.unwrapOr 0 (do
          let counters ← ctx.metadataStore.getMailboxCounters found.id
          return counters.messages))
        publish found.id (.exists count)
        return ok tag ("[APPENDUID ".toList ++ decimal found.uidValidity.toNat ++
          ' ' :: decimal metadata.uid.toNat ++ "] APPEND completed".toList)

def copyCompletion (dest : Mailbox) (sources : List Text) (copied : List MessageMetadata)
    (name : Text) : Text :=
  if copied ≠ [] then
    "[COPYUID ".toList ++ decimal dest.uidValidity.toNat ++ ' ' :: joinWith [','] sources ++
      ' ' :: joinWith [','] (copied.map fun metadata => decimal metadata.uid.toNat) ++
      "] ".toList ++ name ++ " completed".toList
  else name ++ " completed".toList

def copyChosen (ctx : HandlerContext σ β) (tag : Text) (dest : Mailbox) (ids : List MessageId)
    (sources : List Text) (name : Text) : Handler σ β ImapResponse := do
  if ids = [] then return ok tag (name ++ " completed (no messages)".toList)
  else
    let copied ← onStore (ctx.messageStore.copyMessages ids dest.id)
    return ok tag (copyCompletion dest sources copied name)

def moveChosen (ctx : HandlerContext σ β) (tag : Text) (dest : Mailbox) (ids : List MessageId)
    (sources : List Text) (name : Text) : Handler σ β ImapResponse := do
  if ids = [] then return ok tag (name ++ " completed (no messages)".toList)
  else
    let copied ← onStore (ctx.messageStore.copyMessages ids dest.id)
    onStore (ctx.messageStore.setFlags ids { MessageFlags.new with deleted := true })
    onStore (ctx.messageStore.deleteMessages ids)
    return ok tag (copyCompletion dest sources copied name)

def withDestination (ctx : HandlerContext σ β) (tag mailbox : Text)
    (handle : MailboxId → Mailbox → Handler σ β ImapResponse) : Handler σ β ImapResponse :=
  inMailboxAsUser tag fun mailboxId username => do
    match ← findMailbox ctx username mailbox with
    | none => return no tag "[TRYCREATE] Destination mailbox does not exist".toList
    | some dest => handle mailboxId dest

def handleCopy (ctx : HandlerContext σ β) (tag sequence mailbox : Text) :
    Handler σ β ImapResponse :=
  withDestination ctx tag mailbox fun _ dest =>
    let ids := parseSequenceSet sequence
    copyChosen ctx tag dest ids (ids.map MessageId.display) "COPY".toList

def handleMove (ctx : HandlerContext σ β) (tag sequence mailbox : Text) :
    Handler σ β ImapResponse :=
  withDestination ctx tag mailbox fun _ dest =>
    let ids := parseSequenceSet sequence
    moveChosen ctx tag dest ids (ids.map MessageId.display) "MOVE".toList

def expungeChoice (chosen : MessageMetadata → Bool) (messages : List MessageMetadata) :
    List (UInt32 × MessageMetadata) :=
  (messages.zipIdx.filter fun entry => chosen entry.1).map fun entry =>
    (UInt32.ofNat (entry.2 + 1), entry.1)

def expungeLine (seq : UInt32) : Text := "* ".toList ++ decimal seq.toNat ++ " EXPUNGE".toList

def expungeChosen (ctx : HandlerContext σ β) (tag : Text) (mailboxId : MailboxId)
    (removed : List (UInt32 × MessageMetadata)) (completion : Text) : Handler σ β ImapResponse := do
  if removed ≠ [] then
    onStore (ctx.messageStore.deleteMessages (removed.map fun entry => entry.2.messageId))
    publishAll mailboxId (removed.map fun entry => .expunge entry.1)
  return listing (removed.map fun entry => expungeLine entry.1) tag completion

def handleExpunge (ctx : HandlerContext σ β) (tag : Text) : Handler σ β ImapResponse :=
  inMailbox tag fun mailboxId => do
    let messages ← onStore (ctx.messageStore.getMailboxMessages mailboxId)
    let removed := expungeChoice (fun metadata => metadata.flags.deleted) messages
    expungeChosen ctx tag mailboxId removed "EXPUNGE completed".toList

def handleClose (ctx : HandlerContext σ β) (tag : Text) : Handler σ β ImapResponse :=
  inMailbox tag fun mailboxId => do
    let messages ← onStore (ctx.messageStore.getMailboxMessages mailboxId)
    let ids := (messages.filter (·.flags.deleted)).map MessageMetadata.messageId
    if ids ≠ [] then onStore (ctx.messageStore.deleteMessages ids)
    setSession fun session => { session with state := .authenticated, mailboxEventRx := none }
    return ok tag "CLOSE completed".toList

def chosenByUid (sequence : Text) (messages : List MessageMetadata) :
    Handler σ β (List MessageMetadata) := do
  let uids ← Effect.ofExcept (parseUidSequenceSet sequence messages)
  return messages.filter fun metadata => uids.contains metadata.uid

def handleUidFetch (ctx : HandlerContext σ β) (tag sequence : Text) (items : List Text) :
    Handler σ β ImapResponse :=
  inMailbox tag fun mailboxId => do
    let messages ← onStore (ctx.messageStore.getMailboxMessages mailboxId)
    let chosen ← chosenByUid sequence messages
    -- numbered within the chosen messages, not within the mailbox
    let lines ← fetchEach ctx items (chosen.zipIdx.map fun entry => (entry.2 + 1, entry.1))
    return listing lines tag "UID FETCH completed".toList

def handleUidStore (ctx : HandlerContext σ β) (tag sequence : Text) (mode : StoreMode)
    (flags : List Text) : Handler σ β ImapResponse :=
  inMailbox tag fun mailboxId => do
    let messages ← onStore (ctx.messageStore.getMailboxMessages mailboxId)
    let chosen ← chosenByUid sequence messages
    if chosen = [] then return ok tag "UID STORE completed (no messages)".toList
    else
      applyFlags ctx (chosen.map MessageMetadata.messageId) mode (buildMessageFlags ctx flags)
      publishAll mailboxId (flagEvents chosen flags)
      return ok tag "UID STORE completed".toList

def uidTexts (messages : List MessageMetadata) : List Text :=
  messages.map fun metadata => decimal metadata.uid.toNat

def handleUidSearch (ctx : HandlerContext σ β) (tag : Text) (criteria : List Text) :
    Handler σ β ImapResponse :=
  inMailbox tag fun mailboxId => do
    let ids ← onStore (ctx.messageStore.search mailboxId (parseSearchCriteria ctx criteria))
    let messages ← onStore (ctx.messageStore.getMailboxMessages mailboxId)
    let results := uidTexts (messages.filter (·.messageId ∈ ids))
    return listing [searchLine results] tag "UID SEARCH completed".toList

def handleUidCopy (ctx : HandlerContext σ β) (tag sequence mailbox : Text) :
    Handler σ β ImapResponse :=
  withDestination ctx tag mailbox fun mailboxId dest => do
    let messages ← onStore (ctx.messageStore.getMailboxMessages mailboxId)
    let chosen ← chosenByUid sequence messages
    let ids := chosen.map MessageMetadata.messageId
    copyChosen ctx tag dest ids (uidTexts (messages.filter (·.messageId ∈ ids))) "UID COPY".toList

def handleUidMove (ctx : HandlerContext σ β) (tag sequence mailbox : Text) :
    Handler σ β ImapResponse :=
  withDestination ctx tag mailbox fun mailboxId dest => do
    let messages ← onStore (ctx.messageStore.getMailboxMessages mailboxId)
    let chosen ← chosenByUid sequence messages
    let ids := chosen.map MessageMetadata.messageId
    moveChosen ctx tag dest ids (uidTexts (messages.filter (·.messageId ∈ ids))) "UID MOVE".toList

def handleUidExpunge (ctx : HandlerContext σ β) (tag sequence : Text) : Handler σ β ImapResponse :=
  inMailbox tag fun mailboxId => do
    let messages ← onStore (ctx.messageStore.getMailboxMessages mailboxId)
    let uids ← Effect.ofExcept (parseUidSequenceSet sequence messages)
    let removed := expungeChoice
      (fun metadata => uids.contains metadata.uid && metadata.flags.deleted) messages
    expungeChosen ctx tag mailboxId removed "UID EXPUNGE completed".toList

def handleUid (ctx : HandlerContext σ β) (tag : Text) : UidSubcommand → Handler σ β ImapResponse
  | .fetch sequence items => handleUidFetch ctx tag sequence items
  | .store sequence mode flags => handleUidStore ctx tag sequence mode flags
  | .search criteria => handleUidSearch ctx tag criteria
  | .copy sequence mailbox => handleUidCopy ctx tag sequence mailbox
  | .move sequence mailbox => handleUidMove ctx tag sequence mailbox
  | .expunge sequence => handleUidExpunge ctx tag sequence

def handleCommand (ctx : HandlerContext σ β) (tag : Text) : ImapCommand → Handler σ β ImapResponse
  | .capability => handleCapability tag
  | .noop => handleNoop tag
  | .login user password => handleLogin ctx tag user password
  | .authenticate _ _ => return bad tag "AUTHENTICATE must be handled by server loop".toList
  | .logout => handleLogout tag
  | .select mailbox => handleSelect ctx tag mailbox false
  | .examine mailbox => handleSelect ctx tag mailbox true
  | .fetch sequence items => handleFetch ctx tag sequence items
  | .store sequence mode flags => handleStore ctx tag sequence mode flags
  | .search criteria => handleSearch ctx tag criteria
  | .list _ mailbox => handleList ctx tag mailbox
  | .lsub _ mailbox => handleLsub ctx tag mailbox
  | .subscribe mailbox => handleSubscribe ctx tag mailbox
  | .unsubscribe mailbox => handleUnsubscribe ctx tag mailbox
  | .create mailbox => handleCreate ctx tag mailbox
  | .createSpecialUse mailbox specialUse => handleCreateSpecialUse ctx tag mailbox specialUse
  | .delete mailbox => handleDelete ctx tag mailbox
  | .rename old new => handleRename ctx tag old new
  | .append mailbox flags _ literal => handleAppend ctx tag mailbox flags literal
  | .copy sequence mailbox => handleCopy ctx tag sequence mailbox
  | .move sequence mailbox => handleMove ctx tag sequence mailbox
  | .expunge => handleExpunge ctx tag
  | .close => handleClose ctx tag
  | .idle => handleIdle ctx tag
  | .namespace => handleNamespace tag
  | .uid subcommand => handleUid ctx tag subcommand
  | .compress mechanism => handleCompress tag mechanism

end Rusmes
