import Rusmes.Jmap.Types

/-!
The Email methods of `methods/email.rs`: Email/get, Email/set and Email/query over any
message store.
-/

namespace Rusmes

open WireText

section Email

variable {σ : Type} (ctx : JmapContext σ)

def flagsToKeywords (flags : MessageFlags) : List (Text × Bool) :=
  let marks := [(flags.seen, "$seen".toList), (flags.answered, "$answered".toList),
    (flags.flagged, "$flagged".toList), (flags.deleted, "$deleted".toList),
    (flags.draft, "$draft".toList)]
  (marks.filter Prod.fst).map fun mark => (mark.2, true)

def parseMessageId (id : Text) : Except JmapFault MessageId :=
  match parseUuid id with
  | some uuid => .ok ⟨uuid⟩
  | none => .error (.message ("Invalid message ID: ".toList ++ ctx.uuidError id))

def parseMailboxId (id : Text) : Except JmapFault MailboxId :=
  match parseUuid id with
  | some uuid => .ok ⟨uuid⟩
  | none => .error (.message ("Invalid mailbox ID: ".toList ++ ctx.uuidError id))

def HeaderMap.get (headers : HeaderMap) (name : Text) : Option (List Text) :=
  headers.lookup (ctx.toLowercase name)

def cutAtMark (mark : Char) (text : Text) : Option (Text × Text) :=
  if mark ∈ text then some (text.takeWhile (· ≠ mark), (text.dropWhile (· ≠ mark)).tail) else none

/-- Both marks are looked for from the start; one that closes before it has opened makes a
slice that ends before it begins. -/
def parseEmailAddress? (address : Text) : Except JmapFault (Option EmailAddress) :=
  let trimmed := trim address
  if trimmed = [] then .ok none
  else
    match cutAtMark '<' trimmed, cutAtMark '>' trimmed with
    | some (before, after), some (untilEnd, _) =>
        if untilEnd.length ≤ before.length then .error .panicked
        else
          let name := trimQuotes (trim before)
          let email := trim (after.take (untilEnd.length - before.length - 1))
          .ok (some ⟨if name = [] then none else some name, email⟩)
    | _, _ => .ok (some ⟨none, trimmed⟩)

def parseEmailAddresses (headers : HeaderMap) (name : Text) :
    Except JmapFault (Option (List EmailAddress)) :=
  match headers.getFirst ctx.toCaseMapping name with
  | none => .ok none
  | some value => do
      let addresses ← (splitOn ',' value).mapM parseEmailAddress?
      return some (addresses.filterMap id)

def parseDateHeader (date : Option Text) : Option Int := date.bind ctx.parseRfcDate

def parseReceivedHeader (headers : HeaderMap) : Option Int :=
  (HeaderMap.get ctx headers "received".toList).bind fun values =>
    values.findSome? fun value =>
      (rsplitOnce ';' value).bind fun parts => ctx.parseRfcDate (trim parts.2)

def containsText (text : Text) (pattern : String) : Bool := pattern.toList <:+: text

def detectAttachment (mail : Mail) : Bool :=
  let headers := mail.message.headers
  let contentType :=
    (headers.getFirst ctx.toCaseMapping "Content-Type".toList).map ctx.toLowercase
  let disposition :=
    (headers.getFirst ctx.toCaseMapping "Content-Disposition".toList).map ctx.toLowercase
  let attached := disposition.any (containsText · "attachment")
  let mixed := contentType.any fun kind =>
    containsText kind "multipart/mixed" || containsText kind "multipart/related"
  let starts := ["image/", "application/", "audio/", "video/"].map String.toList
  let media := contentType.any fun kind =>
    starts.any (· <+: kind) && !containsText kind "multipart/alternative" &&
      (containsText kind "name=" || attached)
  mixed || attached || media

/-- The given number of octets from the start; a cut inside a character is a panic. -/
def cutOctets : Nat → Text → Except JmapFault Text
  | 0, _ => .ok []
  | _, [] => .ok []
  | left, character :: rest =>
      if character.utf8Size ≤ left then do
        let others ← cutOctets (left - character.utf8Size) rest
        return character :: others
      else .error .panicked

def extractPreview (message : MimeMessage) : Except JmapFault (Option Text) :=
  match message.extractText with
  | none => .ok none
  | some text => do
      let preview ← cutOctets (min 256 (octetLength text)) text
      return some preview

structure EmailConversionContext where
  blobId : Text
  receivedAt : Int
  mailboxIds : List (Text × Bool)
  keywords : List (Text × Bool)
  threadId : Option Text

def convertMailToEmail (id : Text) (mail : Mail) (conversion : EmailConversionContext) :
    Except JmapFault Email := do
  let headers := mail.message.headers
  let first (name : String) := headers.getFirst ctx.toCaseMapping name.toList
  let addresses (name : String) := parseEmailAddresses ctx headers name.toList
  let from_ ← addresses "from"
  let to_ ← addresses "to"
  let cc ← addresses "cc"
  let bcc ← addresses "bcc"
  let replyTo ← addresses "reply-to"
  let sender ← addresses "sender"
  let preview ← extractPreview mail.message
  return {
    id, blobId := conversion.blobId, threadId := conversion.threadId,
    mailboxIds := conversion.mailboxIds, keywords := conversion.keywords, size := mail.size,
    receivedAt := conversion.receivedAt,
    messageId := (first "message-id").map ([·]), inReplyTo := (first "in-reply-to").map ([·]),
    references := HeaderMap.get ctx headers "references".toList,
    sender, from_, to_, cc, bcc, replyTo, subject := first "subject",
    sentAt := parseDateHeader ctx (first "date"),
    hasAttachment := detectAttachment ctx mail, preview }

def receivedAt (mail : Mail) : JmapProgram σ Int :=
  let headers := mail.message.headers
  let date := headers.getFirst ctx.toCaseMapping "date".toList
  match (parseReceivedHeader ctx headers).or (parseDateHeader ctx date) with
  | some moment => return moment
  | none => utcNow ctx

def getEmail (id : Text) : JmapProgram σ (Option Email) :=
  match parseMessageId ctx id with
  | .error _ => return none
  | .ok messageId => do
      match ← stored (ctx.messageStore.getMessage messageId) with
      | none => return none
      | some mail =>
          let flags ← stored (Effect.unwrapOr none (ctx.messageStore.getMessageFlags messageId))
          let threadId ← stored (Effect.unwrapOr none (ctx.getMessageThreadId messageId))
          let received ← receivedAt ctx mail
          let email ← Effect.ofExcept (convertMailToEmail ctx id mail
            { blobId := ctx.computeBlobId (encodeUtf8 id), receivedAt := received,
              mailboxIds := [("inbox".toList, true)],
              keywords := (flags.map flagsToKeywords).getD [], threadId })
          return some email

def getEmails : List Text → JmapProgram σ (List Email × List Text)
  | [] => return ([], [])
  | id :: ids => do
      let found ← getEmail ctx id
      let (list, notFound) ← getEmails ids
      match found with
      | some email => return (email :: list, notFound)
      | none => return (list, id :: notFound)

def emailGet (request : EmailGetRequest) (principal : Principal) :
    JmapProgram σ EmailGetResponse := do
  ensureAccountOwnership request.accountId principal
  let (list, notFound) ← getEmails ctx (request.ids.getD [])
  let moment ← utcNow ctx
  return ⟨request.accountId, timestampText moment, list, notFound⟩

def buildBodyText (object : EmailSetObject) : Text :=
  match object.bodyValues, object.textBody with
  | some values, some parts =>
      parts.flatMap fun part => ((values.lookup part.partId).map EmailBodyValue.value).getD []
  | _, _ => []

def formatAddress (address : EmailAddress) : Text :=
  match address.name with
  | some name => '"' :: name ++ "\" <".toList ++ address.email ++ ">".toList
  | none => address.email

def formatAddresses (addresses : List EmailAddress) : Text :=
  joinWith ", ".toList (addresses.map formatAddress)

def addressField (name : String) (addresses : Option (List EmailAddress)) : List (Text × Text) :=
  match addresses with
  | some (address :: others) => [(name.toList, formatAddresses (address :: others))]
  | _ => []

def firstField (name : String) (values : Option (List Text)) : List (Text × Text) :=
  match values with
  | some (value :: _) => [(name.toList, value)]
  | _ => []

def setObjectFields (object : EmailSetObject) (date : Text) : List (Text × Text) :=
  addressField "from" object.from_ ++ addressField "to" object.to_ ++
    addressField "cc" object.cc ++ addressField "bcc" object.bcc ++
    addressField "reply-to" object.replyTo ++ addressField "sender" object.sender ++
    (object.subject.map ("subject".toList, ·)).toList ++ [("date".toList, date)] ++
    firstField "message-id" object.messageId ++ firstField "in-reply-to" object.inReplyTo ++
    (match object.references with
      | some (id :: ids) => [("references".toList, joinWith [' '] (id :: ids))]
      | _ => []) ++
    [("content-type".toList, "text/plain; charset=utf-8".toList)]

def buildMailFromSetObject (object : EmailSetObject) : JmapProgram σ Mail := do
  let moment ← (match object.sentAt with
    | some sentAt => return sentAt
    | none => utcNow ctx : JmapProgram σ Int)
  let fields := setObjectFields object (ctx.formatRfcDate moment)
  let headers := fields.foldl
    (fun headers field => HeaderMap.insert ctx.toLowercase headers field.1 field.2) ∅
  let mailId ← drawId ctx
  let messageId ← drawId ctx
  return Mail.new ⟨mailId⟩ ⟨messageId⟩ none []
    ⟨headers, .small (encodeUtf8 (buildBodyText object))⟩ none none

def setKeyword (flags : MessageFlags) (keyword : Text) (active : Bool) : MessageFlags :=
  if keyword = "$seen".toList then { flags with seen := active }
  else if keyword = "$answered".toList then { flags with answered := active }
  else if keyword = "$flagged".toList then { flags with flagged := active }
  else if keyword = "$deleted".toList then { flags with deleted := active }
  else if keyword = "$draft".toList then { flags with draft := active }
  else if active then flags.addCustom keyword
  else { flags with custom := flags.custom.filter (· ≠ keyword) }

def keywordsToFlags (keywords : List (Text × Bool)) : MessageFlags :=
  keywords.foldl (fun flags keyword =>
    if keyword.2 then setKeyword flags (ctx.toLowercase keyword.1) true else flags) .new

def copyToMailboxes (messageId : MessageId) (primary : Text) :
    List (Text × Bool) → JmapProgram σ Unit
  | [] => return ()
  | (mailboxId, active) :: others => do
      if active ∧ mailboxId ≠ primary then
        match parseMailboxId ctx mailboxId with
        | .error _ => pure ()
        | .ok extra => discard (stored (ctx.messageStore.copyMessages [messageId] extra))
      copyToMailboxes messageId primary others

def handleEmailCreate (object : EmailSetObject) : JmapProgram σ Email := do
  match object.mailboxIds.find? Prod.snd with
  | none => Effect.fail (.message "mailboxIds must contain at least one true entry".toList)
  | some (primary, _) =>
      let mailboxId ← Effect.ofExcept (parseMailboxId ctx primary)
      let mail ← buildMailFromSetObject ctx object
      let metadata ← stored (ctx.messageStore.appendMessage mailboxId mail)
      let messageId := metadata.messageId
      copyToMailboxes ctx messageId primary object.mailboxIds
      let keywords := object.keywords.getD []
      if keywords ≠ [] then
        stored (ctx.messageStore.setFlags [messageId] (keywordsToFlags ctx keywords))
      match ← stored (ctx.messageStore.getMessage messageId) with
      | none =>
          Effect.fail (.message ("message disappeared after append (id=".toList ++
            messageId.display ++ ")".toList))
      | some fetched =>
          let received ← receivedAt ctx fetched
          Effect.ofExcept (convertMailToEmail ctx messageId.display fetched
            { blobId := ctx.computeBlobId (encodeUtf8 messageId.display), receivedAt := received,
              mailboxIds := object.mailboxIds, keywords,
              threadId := ctx.assignedThread metadata })

/-! Email/set: updates and destruction. -/

def keywordsPath : Text := "/keywords/".toList

def mailboxPathLead : Text := "/mailboxIds/".toList

def applyKeywordPatch (current : MessageFlags) (patch : JsonValue) : MessageFlags × Bool :=
  match patch.asObject with
  | none => (current, false)
  | some entries =>
      match entries.lookup "keywords".toList with
      | some value =>
          match value.asObject with
          | some keywords =>
              (keywordsToFlags ctx (keywords.filterMap fun entry =>
                entry.2.asBool.map (entry.1, ·)), true)
          | none => (current, false)
      | none =>
          entries.foldl (fun result entry =>
            match stripPrefix keywordsPath entry.1 with
            | some keyword =>
                (setKeyword result.1 (ctx.toLowercase keyword) (entry.2.asBool.getD false), true)
            | none => result) (current, false)

def readMessageFlags (messageId : MessageId) (mailboxId : MailboxId) :
    JmapProgram σ (Option MessageFlags) := do
  let messages ← stored (ctx.messageStore.getMailboxMessages mailboxId)
  return (messages.find? (·.messageId = messageId)).map MessageMetadata.flags

/-- The mailbox in which the current flags are looked up: the first one the patch files the
message in. -/
def owningMailbox (entries : List (Text × JsonValue)) : Option MailboxId :=
  match entries.lookup "/mailboxIds".toList with
  | some full =>
      (full.asObject.getD []).findSome? fun entry =>
        if entry.2.asBool = some true then (parseMailboxId ctx entry.1).toOption else none
  | none =>
      entries.findSome? fun entry =>
        (stripPrefix mailboxPathLead entry.1).bind fun id =>
          if entry.2.asBool = some true then (parseMailboxId ctx id).toOption else none

def containsMessage (messageId : MessageId) (mailboxId : MailboxId) : JmapProgram σ Bool := do
  let messages ← stored (Effect.unwrapOr [] (ctx.messageStore.getMailboxMessages mailboxId))
  return messages.any (·.messageId = messageId)

/-- A copy that fails goes unnoticed. -/
def fileInMailbox (messageId : MessageId) (mailboxId : MailboxId) : JmapProgram σ Unit := do
  if !(← containsMessage ctx messageId mailboxId) then
    discard (stored (Effect.attempt (ctx.messageStore.copyMessages [messageId] mailboxId)))

def removeFromMailbox (messageId : MessageId) (mailboxId : MailboxId) : JmapProgram σ Unit := do
  if ← containsMessage ctx messageId mailboxId then
    stored (ctx.messageStore.deleteMessages [messageId])

def replaceMailboxes (messageId : MessageId) : List (Text × JsonValue) → JmapProgram σ Unit
  | [] => return ()
  | (id, value) :: others => do
      match parseMailboxId ctx id with
      | .ok mailboxId => if value.asBool = some true then fileInMailbox ctx messageId mailboxId
      | .error _ => pure ()
      replaceMailboxes messageId others

def patchMailboxes (messageId : MessageId) : List (Text × JsonValue) → JmapProgram σ Unit
  | [] => return ()
  | (path, value) :: others => do
      match (stripPrefix mailboxPathLead path).bind fun id =>
          (parseMailboxId ctx id).toOption with
      | some mailboxId =>
          if value.asBool.getD false then fileInMailbox ctx messageId mailboxId
          else removeFromMailbox ctx messageId mailboxId
      | none => pure ()
      patchMailboxes messageId others

def requireMessage (id : Text) (messageId : MessageId) : JmapProgram σ Unit := do
  if (← stored (ctx.messageStore.getMessage messageId)).isNone then
    Effect.fail (.notFound id)

def handleEmailUpdate (id : Text) (patch : JsonValue) : JmapProgram σ Unit := do
  let messageId ← Effect.ofExcept (parseMessageId ctx id)
  requireMessage ctx id messageId
  match patch.asObject with
  | none => return ()
  | some entries =>
      let current ← (match owningMailbox ctx entries with
        | some mailboxId => do return (← readMessageFlags ctx messageId mailboxId).getD .new
        | none => return .new : JmapProgram σ MessageFlags)
      let (flags, changed) := applyKeywordPatch ctx current patch
      if changed then stored (ctx.messageStore.setFlags [messageId] flags)
      replaceMailboxes ctx messageId
        (((entries.lookup "/mailboxIds".toList).bind JsonValue.asObject).getD [])
      patchMailboxes ctx messageId entries

def handleEmailDestroy (id : Text) : JmapProgram σ Unit := do
  let messageId ← Effect.ofExcept (parseMessageId ctx id)
  requireMessage ctx id messageId
  stored (ctx.messageStore.deleteMessages [messageId])

def classifyUpdateError (error : JmapFault) : JmapSetError :=
  let description := error.display
  match error with
  | .notFound _ => ⟨"notFound".toList, some description⟩
  | _ =>
      if containsText description "Invalid message ID" ||
          containsText description "Invalid mailbox ID" then
        ⟨"invalidArguments".toList, some description⟩
      else ⟨"serverFail".toList, some description⟩

def classifyDestroyError (error : JmapFault) : JmapSetError :=
  let description := error.display
  match error with
  | .notFound _ => ⟨"notFound".toList, some description⟩
  | _ =>
      if containsText description "Invalid message ID" then
        ⟨"invalidArguments".toList, some description⟩
      else ⟨"serverFail".toList, some description⟩

/-- The loop over the entries of a map: each one succeeds or fails on its own. -/
def eachEntry {α β : Type} (handle : Text → α → JmapProgram σ β) :
    List (Text × α) → JmapProgram σ (List (Text × Except JmapFault β))
  | [] => return []
  | (key, value) :: others => do
      let outcome ← caught (handle key value)
      let rest ← eachEntry handle others
      return (key, outcome) :: rest

def succeeded {β : Type} (outcomes : List (Text × Except JmapFault β)) : List (Text × β) :=
  outcomes.filterMap fun outcome => outcome.2.toOption.map (outcome.1, ·)

def notDone {β : Type} (classify : JmapFault → JmapSetError)
    (outcomes : List (Text × Except JmapFault β)) : List (Text × JmapSetError) :=
  outcomes.filterMap fun outcome =>
    match outcome.2 with
    | .ok _ => none
    | .error error => some (outcome.1, classify error)

def unlessEmpty {α : Type} (values : List α) : Option (List α) :=
  if values.isEmpty then none else some values

def keyed {β : Type} : List (Text × β) → List (Text × β)
  | [] => []
  | entry :: others =>
      if entry.1 ∈ others.map Prod.fst then keyed others else entry :: keyed others

def createError (error : JmapFault) : JmapSetError := ⟨"serverFail".toList, some error.display⟩

def emailSet (request : EmailSetRequest) (principal : Principal) :
    JmapProgram σ EmailSetResponse := do
  ensureAccountOwnership request.accountId principal
  let before ← utcNow ctx
  let creates ← eachEntry (fun _ object => handleEmailCreate ctx object) (request.create.getD [])
  let updates ← eachEntry (handleEmailUpdate ctx) (request.update.getD [])
  let destroys ← eachEntry (fun id () => handleEmailDestroy ctx id)
    ((request.destroy.getD []).map (·, ()))
  let after ← utcNow ctx
  return {
    accountId := request.accountId
    oldState := timestampText before
    newState := timestampText after
    created := unlessEmpty (succeeded creates)
    updated := unlessEmpty ((succeeded updates).map fun entry => (entry.1, none))
    destroyed := unlessEmpty ((succeeded destroys).map Prod.fst)
    notCreated := unlessEmpty (notDone createError creates)
    notUpdated := unlessEmpty (notDone classifyUpdateError updates)
    -- an identifier may be listed twice among those to destroy
    notDestroyed := unlessEmpty (keyed (notDone classifyDestroyError destroys)) }

def scanMailboxesDirectory : List Text → JmapProgram σ (List Text)
  | [] => return []
  | name :: names => do
      let found ← (match parseMailboxId ctx name with
        | .error _ => return []
        | .ok mailboxId =>
            stored (Effect.unwrapOr [] (ctx.messageStore.getMailboxMessages mailboxId)) :
        JmapProgram σ (List MessageMetadata))
      let others ← scanMailboxesDirectory names
      return found.map (·.messageId.display) ++ others

def getAllMessages : JmapProgram σ (List Text) := do
  let names ← stored ctx.mailboxDirectories
  scanMailboxesDirectory ctx names

/-- The part of the list that was asked for. The end of the slice is computed in machine
words, and a slice that ends before it begins is a panic. -/
def queryPage (request : EmailQueryRequest) (ids : List Text) :
    Except JmapFault EmailQueryResponse :=
  let position := (request.position.getD 0).toUInt64
  let limit := request.limit.getD 100
  let start := min position.toNat ids.length
  let stop := min (UInt64.ofNat start + limit).toNat ids.length
  if stop < start then .error .panicked
  else .ok {
    accountId := request.accountId
    queryState := ['1']
    canCalculateChanges := false
    position := position.toInt64
    ids := (ids.take stop).drop start
    total := if request.calculateTotal.getD false then some ids.length else none
    limit := some limit }

def queriedIds (request : EmailQueryRequest) : JmapProgram σ (List Text) :=
  match request.filter.bind EmailFilterCondition.inMailbox with
  | none => getAllMessages ctx
  | some id =>
      match parseMailboxId ctx id with
      | .error _ => return []
      | .ok mailboxId => do
          let messages ← stored (ctx.messageStore.getMailboxMessages mailboxId)
          return messages.map (·.messageId.display)

def emailQuery (request : EmailQueryRequest) (principal : Principal) :
    JmapProgram σ EmailQueryResponse := do
  ensureAccountOwnership request.accountId principal
  let ids ← queriedIds ctx request
  Effect.ofExcept (queryPage request ids)

end Email

end Rusmes
