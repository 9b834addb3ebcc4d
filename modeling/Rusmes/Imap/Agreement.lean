import Rusmes.Imap.Fetched
import Rusmes.Imap.Flags
import Rusmes.Library.Numbering

/-!
The commands on sequence numbers next to those on UIDs: FETCH numbers the messages it
chose, SEARCH prints identifiers, and STORE, COPY and MOVE choose no message at all.
-/

namespace Rusmes

open WireText ImapResponse

/-! FETCH. -/

section Lines

variable {ι : Type}

def numberedLine (number : Nat) (items : Text) : Text :=
  "* ".toList ++ decimal number ++ " FETCH (".toList ++ items ++ ")".toList

theorem numberedLine_cancel {first second : Nat} {items after others : Text}
    (same : numberedLine first items ++ after = numberedLine second items ++ others) :
    first = second ∧ after = others := by
  have lines : "* ".toList ++ decimal first ++ " FETCH (".toList ++ (items ++ ")".toList ++ after) =
      "* ".toList ++ decimal second ++ " FETCH (".toList ++ (items ++ ")".toList ++ others) := by
    simpa only [numberedLine, List.append_assoc] using same
  have parts := fetchLead_cancel lines
  exact ⟨parts.1, List.append_cancel_left parts.2⟩

theorem numberedLines_injective {first second : ι → Nat} {items : ι → Text} {values : List ι}
    (same : joinWith lineEnd (values.map fun value => numberedLine (first value) (items value)) =
      joinWith lineEnd (values.map fun value => numberedLine (second value) (items value))) :
    ∀ value ∈ values, first value = second value := by
  induction values with
  | nil => intro value member; cases member
  | cons head rest ih =>
      cases rest with
      | nil =>
          intro value member
          rw [List.mem_singleton.mp member]
          have whole : numberedLine (first head) (items head) ++ [] =
              numberedLine (second head) (items head) ++ [] := by simpa [joinWith] using same
          exact (numberedLine_cancel whole).1
      | cons next rest =>
          rw [List.map_cons, List.map_cons, List.map_cons, List.map_cons, joinWith_cons_cons,
            joinWith_cons_cons] at same
          have parts := numberedLine_cancel same
          intro value member
          rcases List.mem_cons.mp member with rfl | later
          · exact parts.1
          · exact ih (List.append_cancel_left parts.2) value later

def SameLines (tag completion other : Text) (first second : Except Text ImapResponse) : Prop :=
  ∃ lines, first = .ok (listing lines tag completion) ∧ second = .ok (listing lines tag other)

theorem listing_block {lines others : List Text} {tag completion : Text}
    (same : listing lines tag completion = listing others tag completion) :
    joinWith lineEnd lines = joinWith lineEnd others := by
  have messages := congrArg ImapResponse.message same
  simp only [listing] at messages
  rw [List.append_cancel_right_eq, List.append_cancel_right_eq, List.append_cancel_right_eq]
    at messages
  by_cases none : joinWith lineEnd lines = []
  · by_cases noneOther : joinWith lineEnd others = []
    · rw [none, noneOther]
    · rw [if_pos none, if_neg noneOther] at messages
      have ends := congrArg List.length messages
      simp [lineEnd] at ends
  · by_cases noneOther : joinWith lineEnd others = []
    · rw [if_neg none, if_pos noneOther] at messages
      have ends := congrArg List.length messages
      simp [lineEnd] at ends
    · rw [if_neg none, if_neg noneOther, List.append_cancel_right_eq] at messages
      exact messages

theorem sameLines_iff {first second : ι → Nat} {items : ι → Text} {values : List ι}
    {tag completion other : Text} :
    SameLines tag completion other
        (.ok (listing (values.map fun value => numberedLine (first value) (items value)) tag completion))
        (.ok (listing (values.map fun value => numberedLine (second value) (items value)) tag other)) ↔
      ∀ value ∈ values, first value = second value := by
  constructor
  · rintro ⟨lines, one, two⟩
    have same := (listing_block (Except.ok.inj one)).trans (listing_block (Except.ok.inj two)).symm
    exact numberedLines_injective same
  · intro same
    have lines : values.map (fun value => numberedLine (first value) (items value)) =
        values.map fun value => numberedLine (second value) (items value) :=
      List.map_congr_left fun value member => by rw [same value member]
    exact ⟨_, rfl, by rw [lines]⟩

end Lines

section Fetch

variable {β : Type} {host : Host} {authBackend : AuthBackend β} {upper : Text → Text}
  {newUuid : Nat → BitVec 128} {world : World Filesystem β} {id : MailboxId}
  {sequence uidSequence tag : Text} {uids : UidSet} {messages : List MessageMetadata}
  {numbers : List Nat}

def SameMessages (messages : List MessageMetadata) (numbers : List Nat) (uids : UidSet) : Prop :=
  ∀ index metadata, messages[index]? = some metadata →
    (index + 1 ∈ numbers ↔ uids.contains metadata.uid = true)

def UidSet.names (uids : UidSet) (metadata : MessageMetadata) : Bool := uids.contains metadata.uid

theorem numberedAs_chosen (same : SameMessages messages numbers uids)
    (ascending : numbers.Pairwise (· < ·)) :
    numberedAs messages numbers =
      (chosenFrom uids.names 0 messages).map fun entry => (entry.2 + 1, entry.1) := by
  apply eq_of_ascending Prod.fst
  · have shownAs : ∀ number shown, (if 0 < number then
        messages[number - 1]?.map (number, ·) else none) = some shown → shown.1 = number := by
      intro number shown held
      split at held
      · obtain ⟨metadata, _, rfl⟩ := Option.map_eq_some_iff.mp held
        rfl
      · cases held
    refine ascending.filterMap _ ?_
    intro one other less shown held shownOther heldOther
    rw [shownAs one shown held, shownAs other shownOther heldOther]
    exact less
  · have places : (messages.zipIdx 0).Pairwise fun one other => one.2 < other.2 := by
      apply List.pairwise_map.mp
      rw [List.zipIdx_map_snd]
      exact List.pairwise_lt_range'
    refine List.pairwise_map.mpr ((places.filter _).imp ?_)
    intro one other less
    exact Nat.succ_lt_succ less
  · rintro ⟨number, metadata⟩
    rw [mem_numberedAs, List.mem_map]
    constructor
    · rintro ⟨member, positive, there⟩
      obtain ⟨index, rfl⟩ : ∃ index, number = index + 1 := ⟨number - 1, by omega⟩
      refine ⟨(metadata, index), List.mem_filter.mpr ⟨?_, ?_⟩, rfl⟩
      · exact List.mk_mem_zipIdx_iff_getElem?.mpr there
      · exact (same index metadata there).mp member
    · rintro ⟨entry, member, shown⟩
      obtain ⟨rfl, rfl⟩ := Prod.mk.inj shown
      obtain ⟨inside, named⟩ := List.mem_filter.mp member
      have there := List.mk_mem_zipIdx_iff_getElem?.mp inside
      exact ⟨(same entry.2 entry.1 there).mpr named, Nat.succ_pos _, there⟩

theorem select_chosen (uids : UidSet) (messages : List MessageMetadata) :
    (uids.select messages).zipIdx.map (fun entry => (entry.2 + 1, entry.1)) =
      (chosenFrom uids.names 0 messages).zipIdx.map fun entry => (entry.2 + 1, entry.1.1) := by
  have firsts : uids.select messages = (chosenFrom uids.names 0 messages).map Prod.fst := by
    have filtered := List.filter_map (f := Prod.fst) (p := uids.names) (l := messages.zipIdx)
    rw [List.zipIdx_map_fst] at filtered
    exact filtered
  rw [firsts, List.zipIdx_map, List.map_map]
  rfl

def shownItems {σ : Type} (ctx : HandlerContext σ β) (mails : MessageId → Mail) (items : List Text)
    (entry : (MessageMetadata × Nat) × Nat) : Text :=
  buildFetchItems ctx (mails entry.1.1.messageId) entry.1.1 items

theorem numberedAs_lines (same : SameMessages messages numbers uids)
    (ascending : numbers.Pairwise (· < ·)) {σ : Type} (ctx : HandlerContext σ β)
    (mails : MessageId → Mail) (items : List Text) :
    (numberedAs messages numbers).map (fetchLine ctx items mails) =
      (chosenFrom uids.names 0 messages).zipIdx.map fun entry =>
        numberedLine (entry.1.2 + 1) (shownItems ctx mails items entry) := by
  have counted : (chosenFrom uids.names 0 messages).map (fun entry => (entry.2 + 1, entry.1)) =
      (chosenFrom uids.names 0 messages).zipIdx.map fun entry => (entry.1.2 + 1, entry.1.1) := by
    calc (chosenFrom uids.names 0 messages).map (fun entry => (entry.2 + 1, entry.1))
        = ((chosenFrom uids.names 0 messages).zipIdx.map Prod.fst).map
            fun entry => (entry.2 + 1, entry.1) := by rw [List.zipIdx_map_fst]
      _ = _ := List.map_map
  rw [numberedAs_chosen same ascending, counted, List.map_map]
  rfl

theorem select_lines {σ : Type} (ctx : HandlerContext σ β) (mails : MessageId → Mail)
    (items : List Text) (uids : UidSet) (messages : List MessageMetadata) :
    ((uids.select messages).zipIdx.map fun entry => (entry.2 + 1, entry.1)).map
        (fetchLine ctx items mails) =
      (chosenFrom uids.names 0 messages).zipIdx.map fun entry =>
        numberedLine (entry.2 + 1) (shownItems ctx mails items entry) := by
  rw [select_chosen, List.map_map]
  rfl

/-- FETCH and UID FETCH show the same lines exactly when the chosen messages are the first
ones of the mailbox. -/
theorem fetch_agrees_iff (selected : world.session.state = .selected id)
    (parsed : parseUidSequenceSet uidSequence (Filesystem.listed host world.store id) = .ok uids)
    (same : SameMessages (Filesystem.listed host world.store id) (parseSequenceNumbers sequence
      (Filesystem.listed host world.store id).length) uids) (items : List Text) :
    let ctx := filesystemContext host authBackend upper newUuid
    SameLines tag "FETCH completed".toList "UID FETCH completed".toList
        (handleFetch ctx tag sequence items world).1
        (handleUidFetch ctx tag uidSequence items world).1 ↔
      ChosenFirst uids.names (Filesystem.listed host world.store id) := by
  intro ctx
  have fetched := @handleFetch_lines _ host authBackend upper newUuid _ _ sequence tag selected items
  have fetchedByUid := @handleUidFetch_lines _ host authBackend upper newUuid _ _ _ tag _ selected
    parsed items
  dsimp only at fetched fetchedByUid
  rw [numberedAs_lines same (parseSequenceNumbers_sorted _ _)] at fetched
  rw [select_lines] at fetchedByUid
  rw [fetched, fetchedByUid, ← counted_iff_chosenFirst uids.names 0, sameLines_iff]
  simp only [Nat.succ_inj]

end Fetch

/-- What a file means: its name without flags, its octets and its flags. -/
def MailFile.shown (file : MailFile) : Text × Octets × MessageFlags :=
  (file.base, file.data, MaildirFilename.decodeFlags file.name)

def SameMailboxes (first second : Filesystem) : Prop :=
  ∀ id, ((first.filesOf id).map MailFile.shown).Perm ((second.filesOf id).map MailFile.shown)

/-- Changes that keep a distinct key of every value agree as a whole when they do so
value by value. -/
theorem perm_map_iff {α β κ : Type} {first second : α → β} {key : α → κ} {read : β → κ}
    {values : List α} (distinct : (values.map key).Nodup)
    (keeps : ∀ value ∈ values, read (first value) = key value)
    (keepsOther : ∀ value ∈ values, read (second value) = key value) :
    (values.map first).Perm (values.map second) ↔
      ∀ value ∈ values, first value = second value := by
  constructor
  · intro same value member
    have inside : first value ∈ values.map second :=
      same.mem_iff.mp (List.mem_map_of_mem member)
    obtain ⟨other, among, shown⟩ := List.mem_map.mp inside
    have keys : key other = key value := by
      rw [← keepsOther other among, shown, keeps value member]
    rw [List.inj_on_of_nodup_map distinct among member keys] at shown
    exact shown.symm
  · intro same
    rw [List.map_congr_left same]

section Mailboxes

variable {β : Type} {host : Host} {authBackend : AuthBackend β} {upper : Text → Text}
  {newUuid : Nat → BitVec 128} {world located : World Filesystem β} {source : MailboxId}
  {user : Username} {dest : Mailbox} {sequence uidSequence mailbox tag : Text} {uids : UidSet}

theorem handleStore_idle (selected : world.session.state = .selected source) (mode : StoreMode)
    (flags : List Text) :
    (handleStore (filesystemContext host authBackend upper newUuid) tag sequence mode flags
      world).2.store = world.store := by
  rw [handleStore, inMailbox_selected selected]
  rfl

theorem handleUidStore_missing (selected : world.session.state = .selected source)
    (parsed : parseUidSequenceSet uidSequence (Filesystem.listed host world.store source) = .ok uids)
    (mode : StoreMode) (flags : List Text) {other : MailboxId}
    (missing : world.store.folder other = none) :
    (handleUidStore (filesystemContext host authBackend upper newUuid) tag uidSequence mode flags
      world).2.store.folder other = none := by
  let ctx := filesystemContext host authBackend upper newUuid
  have lists : ctx.messageStore.getMailboxMessages source world.store =
      (.ok (Filesystem.listed host world.store source), _) :=
    Filesystem.getMailboxMessages_listed host source world.store
  obtain ⟨cached, moment, disk⟩ := Filesystem.getMailboxMessages_disk host source world.store
  rw [handleUidStore_store selected lists parsed mode flags]
  split
  · rw [disk]
    exact missing
  · refine (Filesystem.folder_setFlags _ _ _ other).trans ?_
    rw [disk, show Filesystem.folder { world.store with messages := cached, moment } other = none
      from missing]
    rfl

/-- STORE and UID STORE leave the same flags exactly when every file that UID STORE reaches
has the given flags already. -/
theorem store_agrees_iff (selected : world.session.state = .selected source)
    (named : ∀ other folder, world.store.folder other = some folder → folder.WellNamed)
    (parsed : parseUidSequenceSet uidSequence (Filesystem.listed host world.store source) = .ok uids)
    (mode : StoreMode) (flags : List Text) :
    let ctx := filesystemContext host authBackend upper newUuid
    SameMailboxes (handleStore ctx tag sequence mode flags world).2.store
        (handleUidStore ctx tag uidSequence mode flags world).2.store ↔
      ∀ other, ∀ file ∈ world.store.filesOf other,
        Filesystem.carriesId host (Filesystem.pickedIds host world.store source uids) file = true →
          MaildirFilename.decodeFlags file.name = (buildMessageFlags ctx flags).system := by
  intro ctx
  let ids := Filesystem.pickedIds host world.store source uids
  let reflagged := Filesystem.flaggedFile host ids (buildMessageFlags ctx flags)
  have lists := Filesystem.getMailboxMessages_listed host source world.store
  rw [SameMailboxes, handleStore_idle selected]
  refine forall_congr' fun other => ?_
  cases found : world.store.folder other with
  | none =>
      have missing := @handleUidStore_missing _ host authBackend upper newUuid _ _ _ tag _ selected
        parsed mode flags _ found
      have none : world.store.filesOf other = [] := by rw [Filesystem.filesOf, found]; rfl
      have noneAfter : (handleUidStore ctx tag uidSequence mode flags world).2.store.filesOf other =
          [] := by
        rw [Filesystem.filesOf, missing]
        rfl
      rw [none, noneAfter]
      simp
  | some folder =>
      obtain ⟨held, there, _, files⟩ := @handleUidStore_files _ host authBackend upper newUuid world
        source uidSequence tag uids _ _ selected lists parsed mode flags other folder found
        (named other folder found)
      rw [Filesystem.filesOf_found found, Filesystem.filesOf_found there]
      have after : (held.files.map MailFile.shown).Perm
          (folder.files.map (MailFile.shown ∘ reflagged)) := by
        rw [← List.map_map]
        exact files.map MailFile.shown
      have keys : ∀ file ∈ folder.files, (MailFile.shown (reflagged file)).1 = file.base :=
        fun file _ => Filesystem.flaggedFile_base file
      rw [after.congr_right]
      refine (@perm_map_iff _ _ _ MailFile.shown (MailFile.shown ∘ reflagged) MailFile.base Prod.fst
        _ (named other folder found) (fun _ _ => rfl) keys).trans ?_
      refine forall₂_congr fun file _ => ?_
      have shown : MailFile.shown (reflagged file) = (file.base, file.data,
          if Filesystem.carriesId host ids file then (buildMessageFlags ctx flags).system
          else MaildirFilename.decodeFlags file.name) := by
        rw [← Filesystem.decodeFlags_flaggedFile, ← Filesystem.flaggedFile_base file,
          ← Filesystem.flaggedFile_data file]
        rfl
      rw [Function.comp_apply, shown, MailFile.shown, Prod.mk.injEq, Prod.mk.injEq]
      by_cases carries : Filesystem.carriesId host ids file = true
      · rw [if_pos carries]
        exact ⟨fun same _ => same.2.2, fun same => ⟨rfl, rfl, same carries⟩⟩
      · rw [if_neg carries]
        exact ⟨fun _ reached => absurd reached carries, fun _ => ⟨rfl, rfl, rfl⟩⟩

/-! COPY and MOVE. -/

theorem handleCopy_idle (selected : world.session.state = .selected source)
    (named : world.session.username = some user)
    (finds : findMailbox (filesystemContext host authBackend upper newUuid) user mailbox world =
      (.ok (some dest), located)) :
    (handleCopy (filesystemContext host authBackend upper newUuid) tag sequence mailbox
      world).2.store = located.store := by
  rw [handleCopy, withDestination_found selected named finds]
  rfl

theorem handleMove_idle (selected : world.session.state = .selected source)
    (named : world.session.username = some user)
    (finds : findMailbox (filesystemContext host authBackend upper newUuid) user mailbox world =
      (.ok (some dest), located)) :
    (handleMove (filesystemContext host authBackend upper newUuid) tag sequence mailbox
      world).2.store = located.store := by
  rw [handleMove, withDestination_found selected named finds]
  rfl

theorem sameMailboxes_copied {store after : Filesystem} {target : MailboxId}
    {chosen : List (MailFile × Nat)} {copies : List MailFile}
    (made : Filesystem.CopyMade host store source target chosen copies after) :
    SameMailboxes store after ↔ chosen = [] := by
  have sizes := made.each.length_eq
  constructor
  · intro same
    have there := (same target).length_eq
    have received := made.received.length_eq
    rw [List.length_map, List.length_map] at there
    rw [List.length_append] at received
    exact List.eq_nil_of_length_eq_zero (by omega)
  · intro none
    have empty : copies = [] := List.eq_nil_of_length_eq_zero (by rw [← sizes, none]; rfl)
    intro id
    by_cases here : id = target
    · have received := made.received
      rw [empty, List.append_nil] at received
      rw [here]
      exact (received.map MailFile.shown).symm
    · rw [Filesystem.filesOf, Filesystem.filesOf, made.others id here]

/-- COPY and UID COPY have the same effect exactly when the quota stops the first copy, or
nothing was chosen. -/
theorem copy_agrees_iff (selected : world.session.state = .selected source)
    (named : world.session.username = some user)
    (finds : findMailbox (filesystemContext host authBackend upper newUuid) user mailbox world =
      (.ok (some dest), located))
    (parsed : parseUidSequenceSet uidSequence (Filesystem.listed host located.store source) =
      .ok uids)
    {target : Folder} (there : located.store.folder dest.id = some target)
    (orderly : located.store.Orderly) :
    let ctx := filesystemContext host authBackend upper newUuid
    SameMailboxes (handleCopy ctx tag sequence mailbox world).2.store
        (handleUidCopy ctx tag uidSequence mailbox world).2.store ↔
      Filesystem.RefusesFirst host located.store source target
        (Filesystem.chosenEntries host located.store source uids) := by
  intro ctx
  have inside : ∀ entry ∈ Filesystem.chosenEntries host located.store source uids,
      entry ∈ Filesystem.entriesOf host located.store source := List.filter_subset_self _
  obtain ⟨done, copies, _, made, _, stopped⟩ :=
    Filesystem.copyMessages_listed inside orderly there
  have ran := @handleUidCopy_run _ host authBackend upper newUuid _ _ _ _ _ uidSequence mailbox tag _
    selected named finds parsed
  rw [handleCopy_idle selected named finds, ran.2, ← stopped]
  exact sameMailboxes_copied made

/-- A move that leaves nothing behind but what was there: all copies are admitted, no file
carries an identifier of the chosen messages, and the copies do. -/
structure MoveUndone (host : Host) (store : Filesystem) (source : MailboxId) (target : Folder)
    (chosen : List (MailFile × Nat)) : Prop where
  admitted : Filesystem.AdmitsInTurn (store.quotaOf target.mailbox.path.user).limit
    (store.quotaOf target.mailbox.path.user).used (chosen.map fun entry =>
      (Filesystem.cachedMail host store source (Filesystem.entryId host store entry)).size)
  unread : ∀ id, ∀ file ∈ store.filesOf id,
    Filesystem.carriesId host (chosen.map (Filesystem.entryId host store)) file = false
  unnamed : ∀ entry ∈ chosen, Filesystem.idField host entry.1 = none

section Moved

variable {store after : Filesystem} {target : MailboxId} {chosen : List (MailFile × Nat)}
  {copies : List MailFile}

theorem carriesId_of_shown {ids : List MessageId} {file other : MailFile}
    (same : file.shown = other.shown) :
    Filesystem.carriesId host ids file = Filesystem.carriesId host ids other :=
  Filesystem.carriesId_congr (congrArg (fun shown => shown.2.1) same)

/-- A copy carries the identifier under which its message was chosen exactly when the
message had no field for one, as long as no file carries that identifier. -/
theorem copy_carries_iff (fresh : Filesystem.FreshDraws host store source)
    (inside : chosen ⊆ Filesystem.entriesOf host store source)
    (unread : ∀ file ∈ store.filesOf source,
      Filesystem.carriesId host (chosen.map (Filesystem.entryId host store)) file = false)
    {entry : MailFile × Nat} {copy : MailFile} (member : entry ∈ chosen)
    (made : ∃ origin ∈ Filesystem.entriesOf host store source,
      Filesystem.entryId host store origin = Filesystem.entryId host store entry ∧
        Filesystem.CopyOf host origin.1 (Filesystem.entryId host store entry) copy) :
    Filesystem.carriesId host (chosen.map (Filesystem.entryId host store)) copy = true ↔
      Filesystem.idField host entry.1 = none := by
  have asked : Filesystem.entryId host store entry ∈ chosen.map (Filesystem.entryId host store) :=
    List.mem_map_of_mem member
  have missed := unread entry.1 (Filesystem.mem_filesOf_of_entry (inside member))
  rcases Filesystem.CopyMade.origin fresh inside member made with own | ⟨read, _⟩
  · have stored := own.storedId_eq
    cases field : Filesystem.idField host entry.1 with
    | none =>
        rw [field] at stored
        rw [Filesystem.carriesId_of_stored stored, decide_eq_true asked]
        simp
    | some text =>
        rw [field] at stored
        rw [Filesystem.carriesId, stored, ← Filesystem.carriesId, missed]
        simp
  · rw [Filesystem.carriesId_of_stored (Filesystem.storedId_of_listedId read),
      decide_eq_true asked] at missed
    cases missed

theorem sameMailboxes_moved (fresh : Filesystem.FreshDraws host store source)
    (inside : chosen ⊆ Filesystem.entriesOf host store source)
    (made : Filesystem.CopyMade host store source target chosen copies after)
    (flags : MessageFlags) :
    let ids := chosen.map (Filesystem.entryId host store)
    SameMailboxes store
        (Filesystem.deleteMessages host ids (Filesystem.setFlags host ids flags after).2).2 ↔
      (∀ id, ∀ file ∈ store.filesOf id, Filesystem.carriesId host ids file = false) ∧
        ∀ entry ∈ chosen, Filesystem.idField host entry.1 = none := by
  intro ids
  let kept := fun file => !Filesystem.carriesId host ids file
  have left := fun id => Filesystem.filesOf_expunged host ids flags made.orderly id
  have others : ∀ id, id ≠ target → after.filesOf id = store.filesOf id := by
    intro id different
    rw [Filesystem.filesOf, Filesystem.filesOf, made.others id different]
  have there : (Filesystem.filesOf (Filesystem.deleteMessages host ids
      (Filesystem.setFlags host ids flags after).2).2 target).Perm
        ((store.filesOf target).filter kept ++ copies.filter kept) := by
    rw [← List.filter_append]
    exact (left target).trans (made.received.filter _)
  constructor
  · intro same
    have unread : ∀ id, ∀ file ∈ store.filesOf id, Filesystem.carriesId host ids file = false := by
      intro id file member
      have shown := (same id).mem_iff.mp (List.mem_map_of_mem member)
      obtain ⟨other, among, alike⟩ := List.mem_map.mp shown
      have spared := (List.mem_filter.mp ((left id).mem_iff.mp among)).2
      rw [Bool.not_eq_true', carriesId_of_shown alike] at spared
      exact spared
    refine ⟨unread, fun entry member => ?_⟩
    obtain ⟨copy, copied, origin⟩ := Filesystem.forall₂_exists_left made.each member
    refine (copy_carries_iff fresh inside (unread source) member origin).mp ?_
    have whole : (store.filesOf target).filter kept = store.filesOf target :=
      List.filter_eq_self.mpr fun file among => by
        rw [show kept file = !Filesystem.carriesId host ids file from rfl, unread target file among]
        rfl
    have sizes := (same target).length_eq
    rw [List.length_map, List.length_map, there.length_eq, whole, List.length_append] at sizes
    have none : copies.filter kept = [] := List.eq_nil_of_length_eq_zero (by omega)
    have gone := List.filter_eq_nil_iff.mp none copy copied
    simpa [kept] using gone
  · rintro ⟨unread, unnamed⟩ id
    have spared : ∀ id, (store.filesOf id).filter kept = store.filesOf id := fun id =>
      List.filter_eq_self.mpr fun file among => by
        rw [show kept file = !Filesystem.carriesId host ids file from rfl, unread id file among]
        rfl
    by_cases here : id = target
    · subst here
      have none : copies.filter kept = [] := by
        rw [List.filter_eq_nil_iff]
        intro copy copied
        obtain ⟨entry, member, origin⟩ := Filesystem.forall₂_exists_right made.each copied
        have carries := (copy_carries_iff fresh inside (unread source) member origin).mpr
          (unnamed entry member)
        rw [show kept copy = !Filesystem.carriesId host ids copy from rfl, carries]
        exact Bool.false_ne_true
      rw [spared, none, List.append_nil] at there
      exact (there.map MailFile.shown).symm
    · have files := left id
      rw [others id here, spared] at files
      exact (files.map MailFile.shown).symm

end Moved

/-- MOVE and UID MOVE have the same effect exactly when the first copy is refused, nothing
was chosen, or the move undoes itself. -/
theorem move_agrees_iff (selected : world.session.state = .selected source)
    (named : world.session.username = some user)
    (finds : findMailbox (filesystemContext host authBackend upper newUuid) user mailbox world =
      (.ok (some dest), located))
    (parsed : parseUidSequenceSet uidSequence (Filesystem.listed host located.store source) =
      .ok uids)
    {target : Folder} (there : located.store.folder dest.id = some target)
    (orderly : located.store.Orderly) (fresh : Filesystem.FreshDraws host located.store source) :
    let ctx := filesystemContext host authBackend upper newUuid
    let chosen := Filesystem.chosenEntries host located.store source uids
    SameMailboxes (handleMove ctx tag sequence mailbox world).2.store
        (handleUidMove ctx tag uidSequence mailbox world).2.store ↔
      Filesystem.RefusesFirst host located.store source target chosen ∨
        MoveUndone host located.store source target chosen := by
  intro ctx chosen
  have inside : chosen ⊆ Filesystem.entriesOf host located.store source :=
    List.filter_subset_self _
  obtain ⟨done, copies, _, made, complete, stopped⟩ :=
    Filesystem.copyMessages_listed inside orderly there
  have admits := @Filesystem.copyListed_isOk_iff host located.store source dest.id target chosen
    inside there
  have ran := @handleUidMove_run _ host authBackend upper newUuid _ _ _ _ _ uidSequence mailbox tag _
    selected named finds parsed
  rw [handleMove_idle selected named finds, ran.2, ← stopped]
  by_cases idle : chosen = [] ∨
      (copyRun host located.store source dest.id uids).1.isOk = false
  · rw [if_pos idle, copyRun, sameMailboxes_copied made]
    refine ⟨Or.inl, ?_⟩
    rintro (nothing | undone)
    · exact nothing
    · rcases idle with none | failed
      · have whole := complete.mp (admits.mpr undone.admitted)
        rw [whole]
        exact none
      · have succeeded := admits.mpr undone.admitted
        rw [copyRun] at failed
        rw [failed] at succeeded
        cases succeeded
  · rw [not_or, Bool.not_eq_false] at idle
    have whole := complete.mp idle.2
    rw [if_neg (by simpa using idle), copyRun]
    rw [whole] at made ⊢
    refine (sameMailboxes_moved fresh inside made _).trans ?_
    constructor
    · rintro ⟨unread, unnamed⟩
      exact .inr ⟨admits.mp idle.2, unread, unnamed⟩
    · rintro (nothing | undone)
      · exact absurd nothing idle.1
      · exact ⟨undone.unread, undone.unnamed⟩

end Mailboxes

/-! SEARCH. -/

section Search

variable {β : Type} {host : Host} {authBackend : AuthBackend β} {upper : Text → Text}
  {newUuid : Nat → BitVec 128} {world : World Filesystem β} {source : MailboxId} {tag : Text}

def foundIds (host : Host) (store : Filesystem) (id : MailboxId) (criteria : SearchCriteria) :
    List MessageId :=
  ((Filesystem.listed host store id).filter fun metadata => criteria.meets metadata.flags).map
    MessageMetadata.messageId

theorem search_found {σ : Type} (ctx : HandlerContext σ β) (words : List Text)
    (store : Filesystem) :
    Filesystem.search host source (parseSearchCriteria ctx words) store =
      (.ok (foundIds host store source (parseSearchCriteria ctx words)),
        (Filesystem.getMailboxMessages host source store).2) := by
  rw [Filesystem.search, Effect.bind_ok (Filesystem.getMailboxMessages_listed host source store)]
  exact searchMessages_meets ctx words _ _

theorem foundIds_eq_nil_iff {store : Filesystem} {criteria : SearchCriteria} :
    foundIds host store source criteria = [] ↔ ∀ file ∈ store.filesOf source,
      criteria.meets (MaildirFilename.decodeFlags file.name) = false := by
  rw [foundIds, List.map_eq_nil_iff, List.filter_eq_nil_iff, Filesystem.listed_eq]
  constructor
  · intro none file member
    cases found : store.folder source with
    | none =>
        rw [Filesystem.filesOf, found] at member
        cases member
    | some folder =>
        rw [Filesystem.filesOf_found found,
          ← (Filesystem.folderWalk_perm host store.moment folder).mem_iff] at member
        obtain ⟨index, here⟩ := List.mem_iff_getElem?.mp member
        have entry : (file, index) ∈ Filesystem.entriesOf host store source := by
          rw [Filesystem.entriesOf_found found]
          exact List.mk_mem_zipIdx_iff_getElem?.mpr here
        simpa [Filesystem.entryMetadata] using none _ (List.mem_map_of_mem entry)
  · intro none metadata member
    obtain ⟨entry, among, rfl⟩ := List.mem_map.mp member
    rw [show (Filesystem.entryMetadata host store source entry).flags =
      MaildirFilename.decodeFlags entry.1.name from rfl,
      none entry.1 (Filesystem.mem_filesOf_of_entry among)]
    exact Bool.false_ne_true

/-- SEARCH answers with the numbers of the messages whose UIDs UID SEARCH answers with. -/
def SameSearch (tag : Text) (messages : List MessageMetadata)
    (search uidSearch : Except Text ImapResponse) : Prop :=
  ∃ (numbers : List Nat) (uids : List UInt32),
    search = .ok (listing [searchLine (numbers.map decimal)] tag "SEARCH completed".toList) ∧
    uidSearch = .ok (listing [searchLine (uids.map fun uid => decimal uid.toNat)] tag
      "UID SEARCH completed".toList) ∧
    ∀ number, number ∈ numbers ↔ 0 < number ∧
      ∃ metadata, messages[number - 1]? = some metadata ∧ metadata.uid ∈ uids

theorem hyphen_mem_hyphenated (digits : Text) : '-' ∈ hyphenated digits := by
  simp [hyphenated]

theorem searchLine_ne_nil (results : List Text) : searchLine results ≠ [] := by
  intro none
  exact absurd (List.append_eq_nil_iff.mp none).1 (by decide)

theorem hyphen_not_mem_numbers (numbers : List Nat) :
    '-' ∉ searchLine (numbers.map decimal) := by
  have joined : '-' ∉ joinWith [' '] (numbers.map decimal) := by
    induction numbers with
    | nil => simp [joinWith]
    | cons number rest ih =>
        have digits : '-' ∉ decimal number := not_mem_decimal (by decide) number
        cases rest with
        | nil => exact digits
        | cons second rest =>
            rw [List.map_cons, List.map_cons, joinWith_cons_cons, List.mem_append,
              List.mem_append]
            rintro (first | space | later)
            · exact digits first
            · simp at space
            · exact ih later
  intro inside
  rcases List.mem_append.mp inside with start | member
  · exact absurd start (by decide)
  · exact joined member

theorem search_agrees_iff (selected : world.session.state = .selected source)
    (criteria : List Text) :
    let ctx := filesystemContext host authBackend upper newUuid
    SameSearch tag (Filesystem.listed host world.store source)
        (handleSearch ctx tag criteria world).1 (handleUidSearch ctx tag criteria world).1 ↔
      ∀ file ∈ world.store.filesOf source, (parseSearchCriteria ctx criteria).meets
        (MaildirFilename.decodeFlags file.name) = false := by
  intro ctx
  have found : ctx.messageStore.search source (parseSearchCriteria ctx criteria) world.store = _ :=
    search_found ctx criteria world.store
  let middle := (Filesystem.getMailboxMessages host source world.store).2
  have again : ctx.messageStore.getMailboxMessages source middle =
      (.ok (Filesystem.listed host middle source), _) :=
    Filesystem.getMailboxMessages_listed host source middle
  let ids := foundIds host world.store source (parseSearchCriteria ctx criteria)
  have searched : (handleSearch ctx tag criteria world).1 =
      .ok (listing [searchLine (ids.map MessageId.display)] tag "SEARCH completed".toList) := by
    rw [handleSearch, inMailbox_selected selected, Effect.bind_ok (onStore_ok found)]
    rfl
  have searchedByUid : (handleUidSearch ctx tag criteria world).1 =
      .ok (listing [searchLine (uidTexts ((Filesystem.listed host middle source).filter
        (·.messageId ∈ ids)))] tag "UID SEARCH completed".toList) := by
    rw [handleUidSearch, inMailbox_selected selected, Effect.bind_ok (onStore_ok found)]
    have lists : onStore (ctx.messageStore.getMailboxMessages source)
        { world with store := middle } = _ := onStore_ok again
    rw [Effect.bind_ok lists]
    rfl
  rw [searched, searchedByUid, ← foundIds_eq_nil_iff]
  constructor
  · rintro ⟨numbers, uids, shown, -, -⟩
    have lines := listing_one (searchLine_ne_nil _) (searchLine_ne_nil _) (Except.ok.inj shown)
    by_contra some
    obtain ⟨id, rest, shape⟩ := List.exists_cons_of_ne_nil some
    have member : id ∈ ids := by
      rw [show ids = id :: rest from shape]
      exact List.mem_cons_self
    have hyphen : '-' ∈ searchLine (ids.map MessageId.display) :=
      List.mem_append_right _ (mem_joinWith_of_mem (List.mem_map_of_mem member)
        (hyphen_mem_hyphenated (hexDigits 32 id.uuid.toNat)))
    rw [lines] at hyphen
    exact hyphen_not_mem_numbers numbers hyphen
  · intro none
    refine ⟨[], [], ?_, ?_, by simp⟩
    · rw [show ids = [] from none]
      rfl
    · rw [show ids = [] from none]
      simp [uidTexts]

end Search

/-! The five pairs of commands. -/

theorem withDestination_absent {σ β : Type} {ctx : HandlerContext σ β} {world located : World σ β}
    {id : MailboxId} {user : Username} {mailbox tag : Text}
    (selected : world.session.state = .selected id)
    (named : world.session.username = some user)
    (finds : findMailbox ctx user mailbox world = (.ok none, located))
    (handle : MailboxId → Mailbox → Handler σ β ImapResponse) :
    withDestination ctx tag mailbox handle world =
      (.ok (no tag "[TRYCREATE] Destination mailbox does not exist".toList), located) := by
  rw [withDestination, inMailboxAsUser, inMailbox_selected selected, Effect.read_bind, named]
  exact Effect.bind_ok finds

namespace Filesystem

theorem listed_uids (host : Host) (store : Filesystem) (id : MailboxId) :
    (listed host store id).map MessageMetadata.uid =
      (List.range (store.filesOf id).length).map fun index => 1 + UInt32.ofNat index := by
  have places : (entriesOf host store id).map Prod.snd =
      List.range (store.filesOf id).length := by
    rw [← entriesOf_length host]
    cases found : store.folder id with
    | none =>
        rw [entriesOf, found]
        rfl
    | some folder => rw [entriesOf_found found, List.zipIdx_map_snd, List.length_zipIdx,
        List.range_eq_range']
  rw [listed_eq, List.map_map, ← places, List.map_map]
  rfl

end Filesystem

theorem maxUid_eq (messages : List MessageMetadata) :
    maxUid messages = (messages.map MessageMetadata.uid).foldl max 0 := by
  rw [maxUid, List.foldl_map]

theorem parseUidSequenceSet_folders {host : Host} {first second : Filesystem}
    (same : second.folders = first.folders) (sequence : Text) (id : MailboxId) :
    parseUidSequenceSet sequence (Filesystem.listed host second id) =
      parseUidSequenceSet sequence (Filesystem.listed host first id) := by
  have folders : second.folder id = first.folder id := congrArg (AList.lookup id) same
  have files : second.filesOf id = first.filesOf id := by
    rw [Filesystem.filesOf, folders]
    rfl
  rw [parseUidSequenceSet, parseUidSequenceSet, maxUid_eq, maxUid_eq, Filesystem.listed_uids,
    Filesystem.listed_uids, files]

section Pairs

variable {β : Type} {host : Host} {authBackend : AuthBackend β} {upper : Text → Text}
  {newUuid : Nat → BitVec 128} {world located : World Filesystem β} {source : MailboxId}
  {user : Username} {found : Option Mailbox} {sequence uidSequence mailbox tag : Text}
  {uids : UidSet}

theorem SameMailboxes.refl (store : Filesystem) : SameMailboxes store store :=
  fun _ => List.Perm.refl _

theorem destination_ready {dest : Mailbox}
    (finds : findMailbox (filesystemContext host authBackend upper newUuid) user mailbox world =
      (.ok (some dest), located))
    (there : ∃ target, world.store.folder dest.id = some target)
    (parsed : parseUidSequenceSet uidSequence (Filesystem.listed host world.store source) = .ok uids)
    (orderly : world.store.Orderly) :
    ∃ target, located.store.folder dest.id = some target ∧
      parseUidSequenceSet uidSequence (Filesystem.listed host located.store source) = .ok uids ∧
      located.store.Orderly := by
  obtain ⟨target, held⟩ := there
  have folders : located.store.folders = world.store.folders := by
    rw [findMailbox_store finds]
  refine ⟨target, ?_, ?_, ?_⟩
  · rw [Filesystem.folder, folders]
    exact held
  · rw [parseUidSequenceSet_folders folders]
    exact parsed
  · rw [findMailbox_store finds]
    exact orderly

theorem forall_destination {dest : Mailbox} {target : Folder} {p : Folder → Prop}
    (held : located.store.folder dest.id = some target) :
    (∀ other folder, some dest = some other → located.store.folder other.id = some folder →
      p folder) ↔ p target := by
  constructor
  · intro all
    exact all dest target rfl held
  · rintro holds other folder same there
    cases same
    cases held.symm.trans there
    exact holds

/-- When a command on sequence numbers does what the one on UIDs does: FETCH when the
messages are the first of the mailbox, STORE when their files have the flags already,
COPY and MOVE when no copy is made or the move undoes itself, and SEARCH when nothing
is found. -/
theorem commands_agree_iff (selected : world.session.state = .selected source)
    (named : world.session.username = some user)
    (finds : findMailbox (filesystemContext host authBackend upper newUuid) user mailbox world =
      (.ok found, located))
    (there : ∀ dest, found = some dest → ∃ target, world.store.folder dest.id = some target)
    (parsed : parseUidSequenceSet uidSequence (Filesystem.listed host world.store source) = .ok uids)
    (same : SameMessages (Filesystem.listed host world.store source) (parseSequenceNumbers sequence
      (Filesystem.listed host world.store source).length) uids)
    (orderly : world.store.Orderly) (fresh : Filesystem.FreshDraws host located.store source)
    (items flags criteria : List Text) (mode : StoreMode) :
    let ctx := filesystemContext host authBackend upper newUuid
    let messages := Filesystem.listed host world.store source
    let chosen := Filesystem.chosenEntries host located.store source uids
    (SameLines tag "FETCH completed".toList "UID FETCH completed".toList
        (handleFetch ctx tag sequence items world).1
        (handleUidFetch ctx tag uidSequence items world).1 ↔
      ChosenFirst uids.names messages) ∧
    (SameMailboxes (handleStore ctx tag sequence mode flags world).2.store
        (handleUidStore ctx tag uidSequence mode flags world).2.store ↔
      ∀ other, ∀ file ∈ world.store.filesOf other,
        Filesystem.carriesId host (Filesystem.pickedIds host world.store source uids) file = true →
          MaildirFilename.decodeFlags file.name = (buildMessageFlags ctx flags).system) ∧
    (SameMailboxes (handleCopy ctx tag sequence mailbox world).2.store
        (handleUidCopy ctx tag uidSequence mailbox world).2.store ↔
      ∀ dest target, found = some dest → located.store.folder dest.id = some target →
        Filesystem.RefusesFirst host located.store source target chosen) ∧
    (SameMailboxes (handleMove ctx tag sequence mailbox world).2.store
        (handleUidMove ctx tag uidSequence mailbox world).2.store ↔
      ∀ dest target, found = some dest → located.store.folder dest.id = some target →
        Filesystem.RefusesFirst host located.store source target chosen ∨
          MoveUndone host located.store source target chosen) ∧
    (SameSearch tag messages (handleSearch ctx tag criteria world).1
        (handleUidSearch ctx tag criteria world).1 ↔
      ∀ file ∈ world.store.filesOf source, (parseSearchCriteria ctx criteria).meets
        (MaildirFilename.decodeFlags file.name) = false) := by
  intro ctx messages chosen
  refine ⟨fetch_agrees_iff selected parsed same items,
    store_agrees_iff selected (fun _ _ held => orderly.wellNamed held) parsed mode flags, ?_, ?_,
    search_agrees_iff selected criteria⟩
  · cases found with
    | none =>
        rw [handleCopy, withDestination_absent selected named finds, handleUidCopy,
          withDestination_absent selected named finds]
        refine iff_of_true (SameMailboxes.refl _) ?_
        intro dest target same
        cases same
    | some dest =>
        obtain ⟨target, held, parsedThere, orderlyThere⟩ := destination_ready finds
          (there dest rfl) parsed orderly
        exact (copy_agrees_iff selected named finds parsedThere held orderlyThere).trans
          (forall_destination (p := fun target =>
            Filesystem.RefusesFirst host located.store source target chosen) held).symm
  · cases found with
    | none =>
        rw [handleMove, withDestination_absent selected named finds, handleUidMove,
          withDestination_absent selected named finds]
        refine iff_of_true (SameMailboxes.refl _) ?_
        intro dest target same
        cases same
    | some dest =>
        obtain ⟨target, held, parsedThere, orderlyThere⟩ := destination_ready finds
          (there dest rfl) parsed orderly
        exact (move_agrees_iff selected named finds parsedThere held orderlyThere fresh).trans
          (forall_destination (p := fun target =>
            Filesystem.RefusesFirst host located.store source target chosen ∨
              MoveUndone host located.store source target chosen) held).symm

end Pairs

theorem commands_agree_one_note :
    SameLines "a".toList "FETCH completed".toList "UID FETCH completed".toList
        (handleFetch plainContext "a".toList "1".toList ["FLAGS".toList] filingWorld).1
        (handleUidFetch plainContext "a".toList "1".toList ["FLAGS".toList] filingWorld).1 ∧
      ¬SameSearch "a".toList (Filesystem.listed plainHost filingWorld.store Filesystem.inboxId)
        (handleSearch plainContext "a".toList ["ALL".toList] filingWorld).1
        (handleUidSearch plainContext "a".toList ["ALL".toList] filingWorld).1 := by
  have same : SameMessages (Filesystem.listed plainHost filingWorld.store Filesystem.inboxId)
      (parseSequenceNumbers "1".toList
        (Filesystem.listed plainHost filingWorld.store Filesystem.inboxId).length) [(1, 1)] := by
    intro index metadata there
    obtain rfl : index = 0 := by
      have inside := (List.getElem?_eq_some_iff.mp there).1
      have one : (Filesystem.listed plainHost filingWorld.store Filesystem.inboxId).length = 1 := rfl
      omega
    cases there
    decide +kernel
  obtain ⟨fetch, -, -, -, search⟩ := @commands_agree_iff _ plainHost singleUser toUppercase
    (fun draw => ~~~BitVec.ofNat 128 draw) filingWorld filingLocated Filesystem.inboxId aliceUser
    (some archive) "1".toList "1".toList "Archive".toList "a".toList [(1, 1)] rfl rfl
    filingWorld_finds (by rintro dest same; cases same; exact ⟨⟨archive, [], []⟩, rfl⟩) rfl same
    twoMailboxes_orderly filingWorld_fresh ["FLAGS".toList] [] ["ALL".toList] .replace
  refine ⟨fetch.mpr ?_, fun agrees => ?_⟩
  · intro before value after shape held other member
    have sizes : before.length + (after.length + 1) = 1 := by
      rw [← List.length_cons (a := value), ← List.length_append, ← shape]
      rfl
    have size := List.length_pos_of_mem member
    omega
  · exact absurd (search.mp agrees plainNote (List.mem_singleton_self _)) (by decide)

def twoNotes : World Filesystem Unit :=
  inboxWorld (inboxWith [plainNote, storedNote "2.M0P1Q1.localhost"])

theorem second_note_numbered_first :
    SameMessages (Filesystem.listed plainHost twoNotes.store Filesystem.inboxId)
        (parseSequenceNumbers "2".toList
          (Filesystem.listed plainHost twoNotes.store Filesystem.inboxId).length) [(2, 2)] ∧
      ¬SameLines "a".toList "FETCH completed".toList "UID FETCH completed".toList
        (handleFetch plainContext "a".toList "2".toList [] twoNotes).1
        (handleUidFetch plainContext "a".toList "2".toList [] twoNotes).1 ∧
      ¬SameSearch "a".toList (Filesystem.listed plainHost twoNotes.store Filesystem.inboxId)
        (handleSearch plainContext "a".toList ["ALL".toList] twoNotes).1
        (handleUidSearch plainContext "a".toList ["ALL".toList] twoNotes).1 ∧
      ¬SameMailboxes
        (handleCopy plainContext "a".toList "1".toList "Archive".toList filingWorld).2.store
        (handleUidCopy plainContext "a".toList "1".toList "Archive".toList filingWorld).2.store := by
  have same : SameMessages (Filesystem.listed plainHost twoNotes.store Filesystem.inboxId)
      (parseSequenceNumbers "2".toList
        (Filesystem.listed plainHost twoNotes.store Filesystem.inboxId).length) [(2, 2)] := by
    intro index metadata there
    have inside := (List.getElem?_eq_some_iff.mp there).1
    have two : (Filesystem.listed plainHost twoNotes.store Filesystem.inboxId).length = 2 := rfl
    obtain rfl | rfl : index = 0 ∨ index = 1 := by omega
    · cases there
      decide +kernel
    · cases there
      decide +kernel
  refine ⟨same, ?_, ?_, ?_⟩
  · intro agrees
    have first := (@fetch_agrees_iff _ plainHost singleUser toUppercase
      (fun draw => ~~~BitVec.ofNat 128 draw) twoNotes Filesystem.inboxId "2".toList "2".toList
      "a".toList [(2, 2)] rfl rfl same []).mp agrees
    obtain ⟨one, two, shape⟩ : ∃ one two,
        Filesystem.listed plainHost twoNotes.store Filesystem.inboxId = [one] ++ two :: [] ∧
          UidSet.names [(2, 2)] two = true ∧ UidSet.names [(2, 2)] one = false :=
      ⟨_, _, rfl, by decide +kernel, by decide +kernel⟩
    have named := first [one] two [] shape.1 shape.2.1 one List.mem_cons_self
    rw [shape.2.2] at named
    cases named
  · intro agrees
    have unmet := (@search_agrees_iff _ plainHost singleUser toUppercase
      (fun draw => ~~~BitVec.ofNat 128 draw) twoNotes Filesystem.inboxId "a".toList rfl
      ["ALL".toList]).mp agrees
    exact absurd (unmet plainNote List.mem_cons_self) (by decide)
  · intro agrees
    have sizes := (agrees archiveId).length_eq
    revert sizes
    decide +kernel

end Rusmes
