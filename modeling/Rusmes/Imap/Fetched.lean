import Rusmes.Imap.Copies

/-!
What a FETCH by UID answers on the maildir, and what of an appended literal comes back.
-/

namespace Rusmes

open WireText ImapResponse

namespace Filesystem

variable {host : Host} {store : Filesystem} {id : MailboxId}

theorem cachedMail_listed {metadata : MessageMetadata} (member : metadata ∈ listed host store id) :
    (getMailboxMessages host id store).2.messages.lookup metadata.messageId =
      some (cachedMail host store id metadata.messageId) := by
  rw [listed_eq] at member
  obtain ⟨entry, among, rfl⟩ := List.mem_map.mp member
  exact (cachedEntry_listed among).1

theorem getMessage_cached {messageId : MessageId} {mail : Mail}
    (cached : store.messages.lookup messageId = some mail) :
    getMessage host messageId store = (.ok (some mail), store) := by
  rw [getMessage, Effect.read_bind, cached]
  rfl

end Filesystem

section Lines

variable {β : Type} {host : Host} {authBackend : AuthBackend β} {upper : Text → Text}
  {newUuid : Nat → BitVec 128} {world : World Filesystem β} {id : MailboxId} {sequence tag : Text}
  {uids : UidSet}

def fetchLine {σ : Type} (ctx : HandlerContext σ β) (items : List Text)
    (mails : MessageId → Mail) (entry : Nat × MessageMetadata) : Text :=
  "* ".toList ++ decimal entry.1 ++ " FETCH (".toList ++
    buildFetchItems ctx (mails entry.2.messageId) entry.2 items ++ ")".toList

theorem fetchEach_cached (items : List Text) {mails : MessageId → Mail}
    {entries : List (Nat × MessageMetadata)}
    (cached : ∀ entry ∈ entries, world.store.messages.lookup entry.2.messageId =
      some (mails entry.2.messageId)) :
    let ctx := filesystemContext host authBackend upper newUuid
    fetchEach ctx items entries world = (.ok (entries.map (fetchLine ctx items mails)), world) := by
  intro ctx
  induction entries with
  | nil => rfl
  | cons entry entries ih =>
      have found : onStore (ctx.messageStore.getMessage entry.2.messageId) world =
          (.ok (some (mails entry.2.messageId)), world) :=
        onStore_ok (Filesystem.getMessage_cached (cached entry List.mem_cons_self))
      have others := ih fun other member => cached other (List.mem_cons_of_mem _ member)
      rw [fetchEach, Effect.bind_ok found, Effect.bind_ok others]
      rfl

theorem mem_numberedAs {messages : List MessageMetadata} {numbers : List Nat}
    {entry : Nat × MessageMetadata} :
    entry ∈ numberedAs messages numbers ↔
      entry.1 ∈ numbers ∧ 0 < entry.1 ∧ messages[entry.1 - 1]? = some entry.2 := by
  obtain ⟨number, metadata⟩ := entry
  rw [numberedAs, List.mem_filterMap]
  constructor
  · rintro ⟨other, member, shown⟩
    by_cases positive : 0 < other
    · rw [if_pos positive, Option.map_eq_some_iff] at shown
      obtain ⟨found, there, same⟩ := shown
      obtain ⟨rfl, rfl⟩ := Prod.mk.inj same
      exact ⟨member, positive, there⟩
    · rw [if_neg positive] at shown
      cases shown
  · rintro ⟨member, positive, there⟩
    refine ⟨number, member, ?_⟩
    rw [if_pos positive]
    exact Option.map_eq_some_iff.mpr ⟨metadata, there, rfl⟩

theorem handleFetch_lines (selected : world.session.state = .selected id) (items : List Text) :
    let ctx := filesystemContext host authBackend upper newUuid
    let messages := Filesystem.listed host world.store id
    (handleFetch ctx tag sequence items world).1 =
      .ok (listing ((numberedAs messages (parseSequenceNumbers sequence messages.length)).map
        (fetchLine ctx items (Filesystem.cachedMail host world.store id)))
        tag "FETCH completed".toList) := by
  intro ctx messages
  have lists : ctx.messageStore.getMailboxMessages id world.store = (.ok messages, _) :=
    Filesystem.getMailboxMessages_listed host id world.store
  rw [handleFetch, inMailbox_selected selected, Effect.bind_ok (onStore_ok lists)]
  have fetched := @fetchEach_cached _ host authBackend upper newUuid
    { world with store := (Filesystem.getMailboxMessages host id world.store).2 } items
    (Filesystem.cachedMail host world.store id)
    (numberedAs messages (parseSequenceNumbers sequence messages.length)) ?_
  · rw [Effect.bind_ok fetched]
    rfl
  · intro entry member
    exact Filesystem.cachedMail_listed (List.mem_of_getElem? (mem_numberedAs.mp member).2.2)

theorem handleUidFetch_lines (selected : world.session.state = .selected id)
    (parsed : parseUidSequenceSet sequence (Filesystem.listed host world.store id) = .ok uids)
    (items : List Text) :
    let ctx := filesystemContext host authBackend upper newUuid
    (handleUidFetch ctx tag sequence items world).1 =
      .ok (listing ((((uids.select (Filesystem.listed host world.store id)).zipIdx.map
          fun entry => (entry.2 + 1, entry.1))).map
        (fetchLine ctx items (Filesystem.cachedMail host world.store id)))
        tag "UID FETCH completed".toList) := by
  intro ctx
  have lists : ctx.messageStore.getMailboxMessages id world.store =
      (.ok (Filesystem.listed host world.store id), _) :=
    Filesystem.getMailboxMessages_listed host id world.store
  rw [handleUidFetch, inMailbox_selected selected, Effect.bind_ok (onStore_ok lists),
    Effect.bind_ok (chosenByUid_ok parsed _)]
  have fetched := @fetchEach_cached _ host authBackend upper newUuid
    { world with store := (Filesystem.getMailboxMessages host id world.store).2 } items
    (Filesystem.cachedMail host world.store id)
    ((uids.select (Filesystem.listed host world.store id)).zipIdx.map
      fun entry => (entry.2 + 1, entry.1)) ?_
  · rw [Effect.bind_ok fetched]
    rfl
  · intro entry member
    obtain ⟨chosen, among, rfl⟩ := List.mem_map.mp member
    have inside := List.fst_mem_of_mem_zipIdx among
    exact Filesystem.cachedMail_listed (List.mem_of_mem_filter inside)

end Lines

theorem parseHeaderLines_shorter (letters : CaseMapping) {table : HeaderTable}
    {current : Option (Text × Text)} {lines : List Octets} :
    (parseHeaderLines letters table current lines).2.length ≤ lines.flatten.length - 1 := by
  induction lines generalizing table current with
  | nil => exact Nat.le_refl 0
  | cons line lines ih =>
      rw [parseHeaderLines]
      cases read : lineContent line with
      | none => exact Nat.zero_le _
      | some content =>
          have size : 0 < line.length := by
            cases line with
            | nil => cases read
            | cons octet rest => simp
          have later := @ih (table.flush current) (headerField letters content)
          have again := @ih table (current.map fun field => (field.1, field.2 ++ decodeLossy content))
          rw [List.flatten_cons, List.length_append]
          dsimp only
          split
          · dsimp only
            omega
          · split
            · omega
            · omega

theorem parseFromBytes_shorter (letters : CaseMapping) (data : Octets) :
    (MimeMessage.parseFromBytes letters data).body.octets.length ≤ data.length - 1 := by
  have shorter := @parseHeaderLines_shorter letters ∅ none (splitLines data)
  rw [splitLines_flatten] at shorter
  have dropped : (MimeMessage.parseFromBytes letters data).body.octets = data.drop (data.length -
      (parseHeaderLines letters ∅ none (splitLines data)).2.length) := rfl
  rw [dropped, List.length_drop]
  omega

theorem extractText_shorter (letters : CaseMapping) (data : Octets) :
    (encodeUtf8 ((MimeMessage.parseFromBytes letters data).extractText.getD [])).length ≤
      data.length - 1 := by
  have shorter := parseFromBytes_shorter letters data
  have shape : (MimeMessage.parseFromBytes letters data).extractText =
      decodeUtf8 (MimeMessage.parseFromBytes letters data).body.octets := rfl
  rw [shape]
  cases decoded : decodeUtf8 (MimeMessage.parseFromBytes letters data).body.octets with
  | none => exact Nat.zero_le _
  | some text =>
      rw [Option.getD_some, encodeUtf8_of_decodeUtf8 decoded]
      exact shorter

/-! A literal that APPEND has stored. -/

section Appended

variable {β : Type} {host : Host} {authBackend : AuthBackend β} {upper : Text → Text}
  {newUuid : Nat → BitVec 128} {world after : World Filesystem β} {mailbox tag : Text}
  {literal : Octets} {answer : ImapResponse}

def HoldsLiteral (ctx : HandlerContext Filesystem β) (literal : Octets) (file : MailFile) : Prop :=
  ∃ make id messageId, literalMail ctx literal = .ok make ∧
    file.data = serializeMessageToBytes (make id messageId)

theorem HoldsLiteral.some {ctx : HandlerContext Filesystem β} {file : MailFile}
    (holds : HoldsLiteral ctx literal file) : file.data ≠ [] := by
  obtain ⟨make, id, messageId, -, data⟩ := holds
  rw [data, serializeMessageToBytes, headerLine]
  simp

theorem appended_filesOf {id : MailboxId} {message : Mail} {store stored : Filesystem}
    {metadata : MessageMetadata}
    (ran : Filesystem.appendMessage host id message store = (.ok metadata, stored))
    (orderly : store.Orderly) :
    stored.Orderly ∧ Filesystem.deliveredFile host store message ∈ stored.filesOf id := by
  have later := @Filesystem.appendMessage_orderly host id _ message orderly
  rw [ran] at later
  refine ⟨later, ?_⟩
  rcases Filesystem.appendMessage_cases host id message store with
    ⟨error, _, failed⟩ | ⟨folder, found, _, done⟩
  · rw [failed] at ran
    cases ran
  · rw [ran] at done
    have received := @Filesystem.folder_appended host id message
      folder.mailbox.path.user store id
    rw [if_pos rfl, found, ← (Prod.mk.inj done).2] at received
    rw [Filesystem.filesOf_found received]
    have numbered := (Filesystem.receiveFile_numbered host message (orderly id folder found)).1
    have member : Filesystem.deliveredFile host store message ∈ folder.new ++
        [Filesystem.deliveredFile host store message] := by simp
    rw [← numbered] at member
    exact List.mem_append_left _ member

theorem setFlags_filesOf {id : MailboxId} {store : Filesystem} {file : MailFile}
    (orderly : store.Orderly) (member : file ∈ store.filesOf id) (ids : List MessageId)
    (flags : MessageFlags) :
    ∃ kept ∈ (Filesystem.setFlags host ids flags store).2.filesOf id, kept.data = file.data := by
  cases found : store.folder id with
  | none =>
      rw [Filesystem.filesOf, found] at member
      cases member
  | some folder =>
      rw [Filesystem.filesOf_found found] at member
      have flagged := @Filesystem.folder_setFlags host ids flags store id
      rw [found] at flagged
      rw [Filesystem.filesOf_found flagged]
      have files := Filesystem.flagFolder_files host ids flags store.moment (orderly.wellNamed found)
      exact ⟨Filesystem.flaggedFile host ids flags file,
        files.mem_iff.mpr (List.mem_map_of_mem member), Filesystem.flaggedFile_data file⟩

theorem handleAppend_holds {flags : List Text} (orderly : world.store.Orderly)
    (ran : handleAppend (filesystemContext host authBackend upper newUuid) tag mailbox flags literal
      world = (.ok answer, after)) (accepted : answer.status = "OK".toList) :
    let ctx := filesystemContext host authBackend upper newUuid
    ∃ user dest located, world.session.username = some user ∧
      findMailbox ctx user mailbox world = (.ok (some dest), located) ∧
      ∃ file ∈ after.store.filesOf dest.id, HoldsLiteral ctx literal file := by
  intro ctx
  have refused : ∀ tag message, (no tag message).status ≠ "OK".toList :=
    fun _ _ => (by decide : "NO".toList ≠ "OK".toList)
  rw [handleAppend, asUser, Effect.read_bind] at ran
  by_cases authenticated : world.session.state.isAuthenticated = true
  · rw [if_pos authenticated] at ran
    cases named : world.session.username with
    | none =>
        rw [named] at ran
        cases ran
        exact absurd accepted (refused _ _)
    | some user =>
        rw [named] at ran
        obtain ⟨found, located, finds, ran⟩ := Effect.bind_eq_ok.mp ran
        cases found with
        | none =>
            cases ran
            exact absurd accepted (refused _ _)
        | some dest =>
            refine ⟨user, dest, located, rfl, finds, ?_⟩
            obtain ⟨make, middle, made, ran⟩ := Effect.bind_eq_ok.mp ran
            obtain ⟨first, drawn, draws, ran⟩ := Effect.bind_eq_ok.mp ran
            obtain ⟨second, ready, drawsAgain, ran⟩ := Effect.bind_eq_ok.mp ran
            obtain ⟨metadata, stored, appends, ran⟩ := Effect.bind_eq_ok.mp ran
            rw [Effect.ofExcept_apply] at made
            obtain ⟨readable, rfl⟩ := Prod.mk.inj made
            obtain ⟨-, rfl⟩ := Prod.mk.inj draws
            obtain ⟨-, rfl⟩ := Prod.mk.inj drawsAgain
            rw [onStore, Effect.focus_apply] at appends
            obtain ⟨delivered, rfl⟩ := Prod.mk.inj appends
            have disk : located.store.Orderly := by
              rw [findMailbox_store finds]
              exact orderly
            obtain ⟨later, member⟩ := appended_filesOf (Prod.ext delivered rfl) disk
            by_cases flagged : flags ≠ []
            · dsimp only at ran
              rw [if_pos flagged] at ran
              obtain ⟨kept, inside, data⟩ := @setFlags_filesOf host _ _ _ later member
                [metadata.messageId] (buildMessageFlags ctx flags)
              refine ⟨kept, ?_, make, ⟨first⟩, ⟨second⟩, readable, data⟩
              rw [← show _ = after from (Prod.mk.inj ran).2]
              exact inside
            · dsimp only at ran
              rw [if_neg flagged] at ran
              refine ⟨Filesystem.deliveredFile host located.store (make ⟨first⟩ ⟨second⟩), ?_, make,
                ⟨first⟩, ⟨second⟩, readable, rfl⟩
              rw [← show _ = after from (Prod.mk.inj ran).2]
              exact member
  · rw [if_neg authenticated] at ran
    cases ran
    exact absurd accepted (refused _ _)

def ReturnsBody (octets : Octets) (tag : Text) (answer : Except Text ImapResponse) : Prop :=
  ∃ number text, encodeUtf8 text = octets ∧
    answer = .ok (listing ["* ".toList ++ decimal number ++ " FETCH (BODY[] \x7b".toList ++
      decimal octets.length ++ "\x7d\r\n".toList ++ text ++ ")".toList] tag
        "UID FETCH completed".toList)

def ReturnsSize (size : Nat) (tag : Text) (answer : Except Text ImapResponse) : Prop :=
  ∃ number, answer = .ok (listing ["* ".toList ++ decimal number ++
    " FETCH (RFC822.SIZE ".toList ++ decimal size ++ ")".toList] tag "UID FETCH completed".toList)

theorem listing_one {line other tag completion : Text} (some : line ≠ []) (otherSome : other ≠ [])
    (same : listing [line] tag completion = listing [other] tag completion) : line = other := by
  have message : ∀ line : Text, line ≠ [] → (listing [line] tag completion).message =
      line ++ lineEnd ++ tag ++ " OK ".toList ++ completion := fun line some =>
    congrArg (· ++ tag ++ " OK ".toList ++ completion) (if_neg some)
  have messages := congrArg ImapResponse.message same
  rw [message line some, message other otherSome] at messages
  simpa using messages

theorem handleUidFetch_one {id : MailboxId} {sequence : Text} {uids : UidSet}
    {entry : MailFile × Nat} {item : Text} (selected : world.session.state = .selected id)
    (parsed : parseUidSequenceSet sequence (Filesystem.listed host world.store id) = .ok uids)
    (one : Filesystem.chosenEntries host world.store id uids = [entry])
    (alone : ∀ other ∈ Filesystem.entriesOf host world.store id,
      Filesystem.entryId host world.store other = Filesystem.entryId host world.store entry →
        other = entry) :
    let ctx := filesystemContext host authBackend upper newUuid
    ∃ mail : Mail, mail.message = MimeMessage.parseFromBytes host.toCaseMapping entry.1.data ∧
      (handleUidFetch ctx tag sequence [item] world).1 =
        .ok (listing ["* ".toList ++ decimal 1 ++ " FETCH (".toList ++ buildFetchItems ctx mail
          (Filesystem.entryMetadata host world.store id entry) [item] ++ ")".toList] tag
          "UID FETCH completed".toList) := by
  intro ctx
  have chosen : uids.select (Filesystem.listed host world.store id) =
      [Filesystem.entryMetadata host world.store id entry] := by
    rw [Filesystem.listed_eq, UidSet.select, List.filter_map]
    exact congrArg (List.map (Filesystem.entryMetadata host world.store id)) one
  have member : entry ∈ Filesystem.entriesOf host world.store id :=
    List.mem_of_mem_filter (one ▸ List.mem_singleton_self entry)
  obtain ⟨origin, among, shown, held⟩ := Filesystem.cached_listed member
  rw [alone origin among shown] at held
  have lines := @handleUidFetch_lines _ host authBackend upper newUuid _ _ _ tag _ selected parsed
    [item]
  rw [chosen] at lines
  refine ⟨_, ?_, lines⟩
  rw [Filesystem.cachedMail]
  have cached : (Filesystem.getMailboxMessages host id world.store).2.messages.lookup
      (Filesystem.entryMetadata host world.store id entry).messageId = _ := held
  rw [cached]
  rfl

theorem fetchLead_cancel {first second : Nat} {after others : Text}
    (same : "* ".toList ++ decimal first ++ " FETCH (".toList ++ after =
      "* ".toList ++ decimal second ++ " FETCH (".toList ++ others) :
    first = second ∧ after = others := by
  rw [List.append_assoc, List.append_assoc, List.append_assoc, List.append_assoc,
    List.append_cancel_left_eq] at same
  have parts := decimal_append_cons (by decide) (by decide) same
  exact ⟨parts.1, List.append_cancel_left parts.2⟩

theorem fetchLine_injective {first second : Nat} {items others : Text}
    (same : "* ".toList ++ decimal first ++ " FETCH (".toList ++ items ++ ")".toList =
      "* ".toList ++ decimal second ++ " FETCH (".toList ++ others ++ ")".toList) :
    first = second ∧ items = others := by
  rw [List.append_cancel_right_eq] at same
  exact fetchLead_cancel same

theorem buildFetchItems_body {ctx : HandlerContext Filesystem β} {mail : Mail}
    {metadata : MessageMetadata} {item : Text}
    (reads : ctx.toUppercase item = "BODY.PEEK[]".toList) :
    buildFetchItems ctx mail metadata [item] = "BODY[] \x7b".toList ++
      decimal (octetLength (mail.message.extractText.getD [])) ++ "\x7d\r\n".toList ++
        mail.message.extractText.getD [] := by
  rw [buildFetchItems, List.filterMap_cons, fetchItem, reads]
  rfl

theorem buildFetchItems_size {ctx : HandlerContext Filesystem β} {mail : Mail}
    {metadata : MessageMetadata} {item : Text}
    (reads : ctx.toUppercase item = "RFC822.SIZE".toList) :
    buildFetchItems ctx mail metadata [item] =
      "RFC822.SIZE ".toList ++ decimal metadata.size := by
  rw [buildFetchItems, List.filterMap_cons, fetchItem, reads]
  rfl

theorem returns_iff {id : MailboxId} {sequence : Text} {uids : UidSet} {entry : MailFile × Nat}
    (ascii : ∀ text, (∀ character ∈ text, character.toNat < 128) → upper text = toUppercase text)
    (selected : world.session.state = .selected id)
    (parsed : parseUidSequenceSet sequence (Filesystem.listed host world.store id) = .ok uids)
    (one : Filesystem.chosenEntries host world.store id uids = [entry])
    (alone : ∀ other ∈ Filesystem.entriesOf host world.store id,
      Filesystem.entryId host world.store other = Filesystem.entryId host world.store entry →
        other = entry) (octets : Octets) (size : Nat) :
    let ctx := filesystemContext host authBackend upper newUuid
    let shown := MimeMessage.parseFromBytes host.toCaseMapping entry.1.data
    (ReturnsBody octets tag (handleUidFetch ctx tag sequence ["BODY.PEEK[]".toList] world).1 ↔
      encodeUtf8 (shown.extractText.getD []) = octets) ∧
    (ReturnsSize size tag (handleUidFetch ctx tag sequence ["RFC822.SIZE".toList] world).1 ↔
      entry.1.data.length = size) := by
  intro ctx shown
  have body : ctx.toUppercase "BODY.PEEK[]".toList = "BODY.PEEK[]".toList := ascii _ (by decide)
  have sizes : ctx.toUppercase "RFC822.SIZE".toList = "RFC822.SIZE".toList := ascii _ (by decide)
  obtain ⟨mail, message, bodyAnswer⟩ := @handleUidFetch_one _ host authBackend upper newUuid _ tag _ _ _
    _ "BODY.PEEK[]".toList selected parsed one alone
  obtain ⟨_, _, sizeAnswer⟩ := @handleUidFetch_one _ host authBackend upper newUuid _ tag _ _ _
    _ "RFC822.SIZE".toList selected parsed one alone
  rw [buildFetchItems_body body, message] at bodyAnswer
  rw [buildFetchItems_size sizes] at sizeAnswer
  rw [bodyAnswer, sizeAnswer]
  constructor
  · constructor
    · rintro ⟨number, text, encoded, same⟩
      have lines := listing_one (by simp) (by simp) (Except.ok.inj same)
      have items := (@fetchLine_injective 1 number ("BODY[] \x7b".toList ++
        decimal (octetLength (shown.extractText.getD [])) ++ "\x7d\r\n".toList ++
          shown.extractText.getD []) ("BODY[] \x7b".toList ++
        decimal octets.length ++ "\x7d\r\n".toList ++ text) (by simpa using lines)).2
      rw [List.append_assoc, List.append_assoc, List.append_assoc, List.append_assoc,
        List.append_cancel_left_eq] at items
      have parts := decimal_append_cons (by decide) (by decide) items
      rw [← encoded]
      exact congrArg encodeUtf8 (List.append_cancel_left parts.2)
    · rintro rfl
      exact ⟨1, shown.extractText.getD [], rfl, by simp [octetLength, shown]⟩
  · constructor
    · rintro ⟨number, same⟩
      have lines := listing_one (by simp) (by simp) (Except.ok.inj same)
      have items := (@fetchLine_injective 1 number ("RFC822.SIZE ".toList ++
        decimal entry.1.data.length) ("RFC822.SIZE ".toList ++ decimal size)
          (by simpa [Filesystem.entryMetadata] using lines)).2
      exact decimal_injective (List.append_cancel_left items)
    · rintro rfl
      exact ⟨1, by simp [Filesystem.entryMetadata]⟩

/-- An appended literal never comes back with its own size: the size is that of the file,
and the body is shown without what stands before it in the file. -/
theorem appended_never_returned {flags : List Text}
    (ascii : ∀ text, (∀ character ∈ text, character.toNat < 128) → upper text = toUppercase text)
    (orderly : world.store.Orderly)
    (ran : handleAppend (filesystemContext host authBackend upper newUuid) tag mailbox flags literal
      world = (.ok answer, after)) (accepted : answer.status = "OK".toList) :
    let ctx := filesystemContext host authBackend upper newUuid
    ∃ user dest located, world.session.username = some user ∧
      findMailbox ctx user mailbox world = (.ok (some dest), located) ∧
      ∃ file ∈ after.store.filesOf dest.id, HoldsLiteral ctx literal file ∧
        ∀ (later : World Filesystem β) (sequence tag : Text) (uids : UidSet)
          (entry : MailFile × Nat), later.session.state = .selected dest.id →
          parseUidSequenceSet sequence (Filesystem.listed host later.store dest.id) = .ok uids →
          Filesystem.chosenEntries host later.store dest.id uids = [entry] →
          entry.1.data = file.data →
          (∀ other ∈ Filesystem.entriesOf host later.store dest.id,
            Filesystem.entryId host later.store other = Filesystem.entryId host later.store entry →
              other = entry) →
          ¬(ReturnsBody literal tag
              (handleUidFetch ctx tag sequence ["BODY.PEEK[]".toList] later).1 ∧
            ReturnsSize literal.length tag
              (handleUidFetch ctx tag sequence ["RFC822.SIZE".toList] later).1) := by
  intro ctx
  obtain ⟨user, dest, located, named, finds, file, member, holds⟩ :=
    handleAppend_holds orderly ran accepted
  refine ⟨user, dest, located, named, finds, file, member, holds, ?_⟩
  intro later sequence tag uids entry selected parsed one data alone returned
  obtain ⟨body, size⟩ := @returns_iff _ host authBackend upper newUuid later tag dest.id sequence
    uids entry ascii selected parsed one alone literal literal.length
  have shown := body.mp returned.1
  have length := size.mp returned.2
  have shorter := extractText_shorter host.toCaseMapping entry.1.data
  have some : 0 < entry.1.data.length := List.length_pos_of_ne_nil (data ▸ holds.some)
  rw [shown] at shorter
  omega

end Appended

def letter : Octets := encodeUtf8 "A: b\r\n\r\nhi".toList

def letterWorld : World Filesystem Unit :=
  (handleCommand plainContext "b".toList (.select "INBOX".toList)
    (handleCommand plainContext "a".toList (.append "INBOX".toList [] none letter)
      (loggedInWorld Filesystem.freshStore)).2).2

def letterFile : MailFile := (letterWorld.store.filesOf Filesystem.inboxId).headD (storedNote "")

theorem letter_entries : Filesystem.entriesOf plainHost letterWorld.store Filesystem.inboxId =
    [(letterFile, 0)] := by
  decide +kernel

theorem letter_chosen :
    Filesystem.chosenEntries plainHost letterWorld.store Filesystem.inboxId [(1, 1)] =
      [(letterFile, 0)] := by
  rw [Filesystem.chosenEntries, letter_entries]
  rfl

theorem letter_alone : ∀ other ∈ Filesystem.entriesOf plainHost letterWorld.store Filesystem.inboxId,
    Filesystem.entryId plainHost letterWorld.store other =
        Filesystem.entryId plainHost letterWorld.store (letterFile, 0) →
      other = (letterFile, 0) := by
  rw [letter_entries]
  intro other member _
  exact List.mem_singleton.mp member

/-- The header is missing from the body, and the size counts the header the store adds. -/
theorem letter_not_returned :
    letterFile ∈ letterWorld.store.filesOf Filesystem.inboxId ∧
      HoldsLiteral plainContext letter letterFile ∧
      ¬ReturnsBody letter "c".toList
        (handleUidFetch plainContext "c".toList "1".toList ["BODY.PEEK[]".toList] letterWorld).1 ∧
      ¬ReturnsSize letter.length "c".toList
        (handleUidFetch plainContext "c".toList "1".toList ["RFC822.SIZE".toList] letterWorld).1 := by
  obtain ⟨body, size⟩ := @returns_iff _ plainHost singleUser toUppercase
    (fun draw => ~~~BitVec.ofNat 128 draw) letterWorld "c".toList Filesystem.inboxId "1".toList
    [(1, 1)] (letterFile, 0) (fun _ _ => rfl) rfl rfl letter_chosen letter_alone letter letter.length
  refine ⟨by decide +kernel, ⟨_, ⟨0⟩, ⟨~~~1⟩, rfl, by decide +kernel⟩, ?_, ?_⟩
  · exact fun returned => absurd (body.mp returned) (by decide +kernel)
  · exact fun returned => absurd (size.mp returned) (by decide +kernel)

/-- The run of the note. -/
theorem letter_never_returned :
    ¬(ReturnsBody letter "c".toList
        (handleUidFetch plainContext "c".toList "1".toList ["BODY.PEEK[]".toList] letterWorld).1 ∧
      ReturnsSize letter.length "c".toList
        (handleUidFetch plainContext "c".toList "1".toList ["RFC822.SIZE".toList] letterWorld).1) := by
  have orderly : (loggedInWorld Filesystem.freshStore).store.Orderly :=
    Filesystem.orderly_of_empty fun _ _ => Filesystem.freshStore_files
  obtain ⟨user, dest, located, named, finds, file, member, -, never⟩ :=
    @appended_never_returned _ plainHost singleUser toUppercase
      (fun draw => ~~~BitVec.ofNat 128 draw) (loggedInWorld Filesystem.freshStore) _
      "INBOX".toList "a".toList letter _ [] (fun _ _ => rfl) orderly rfl rfl
  obtain rfl : aliceUser = user := Option.some.inj named
  obtain rfl : Filesystem.aliceInbox = dest :=
    Option.some.inj (Except.ok.inj (Prod.mk.inj finds).1)
  have only : (handleAppend plainContext "a".toList "INBOX".toList [] letter
      (loggedInWorld Filesystem.freshStore)).2.store.filesOf Filesystem.inboxId = [letterFile] := by
    decide +kernel
  have same : file ∈ [letterFile] := only ▸ member
  rw [List.mem_singleton.mp same] at never
  exact never letterWorld _ _ _ _ rfl rfl letter_chosen rfl letter_alone

end Rusmes
