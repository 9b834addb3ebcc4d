import Rusmes.Imap.ReadOnly
import Rusmes.Storage.Copies

/-!
UID COPY and UID MOVE on the maildir. A copy of an ordinary message carries the
identifier of its source, under which no listing shows either of them; a listing that
does read it reaches both, and a move deletes what it has just copied.
-/

namespace Rusmes

open WireText ImapResponse

namespace Filesystem

variable {host : Host}

def chosenEntries (host : Host) (store : Filesystem) (id : MailboxId) (uids : UidSet) :
    List (MailFile × Nat) :=
  (entriesOf host store id).filter fun entry => uids.contains (1 + UInt32.ofNat entry.2)

def chosenFiles (host : Host) (store : Filesystem) (id : MailboxId) (uids : UidSet) :
    List MailFile :=
  (chosenEntries host store id uids).map Prod.fst

theorem select_listed (host : Host) (store : Filesystem) (id : MailboxId) (uids : UidSet) :
    (uids.select (listed host store id)).map MessageMetadata.messageId =
      (chosenEntries host store id uids).map (entryId host store) := by
  cases found : store.folder id with
  | none =>
      rw [listed_missing found, chosenEntries, entriesOf, found]
      rfl
  | some folder =>
      have shape := @listEntries_eq host id 1 (store.moment + 2) 0
        (folderWalk host store.moment folder)
      have listing : listed host store id = _ := (listed_found found).trans shape
      rw [listing, UidSet.select, List.filter_map, List.map_map, chosenEntries,
        entriesOf_found found]
      rfl

/-- An identifier a mailbox shows: some file was written with it, or it was drawn and
no file carries it. -/
def Shows (host : Host) (store : Filesystem) (id : MailboxId) (shown : MessageId) : Prop :=
  shown ∈ listedIds host store id ∧
    ((∃ file ∈ store.filesOf id, listedId host file = some shown) ∨
      ∀ other, ∀ file ∈ store.filesOf other, storedId host file ≠ some shown)

/-- Deleting or flagging what one mailbox shows leaves the files in another as they are. -/
def Unaffected (host : Host) (store : Filesystem) (here there : MailboxId)
    (files : List MailFile) : Prop :=
  ∀ ids, (∀ id ∈ ids, Shows host store here id) →
    files ⊆ (deleteMessages host ids store).2.filesOf there ∧
      ∀ flags, files ⊆ (setFlags host ids flags store).2.filesOf there

def SameBody (host : Host) (first second : MailFile) : Prop :=
  (MimeMessage.parseFromBytes host.toCaseMapping first.data).body =
    (MimeMessage.parseFromBytes host.toCaseMapping second.data).body

def StillThere (after later : Filesystem) (source dest : MailboxId) : Prop :=
  later.Orderly ∧ later.folder source = after.folder source ∧
    later.folder dest = after.folder dest

def Copied (host : Host) (before after : Filesystem) (source dest : MailboxId)
    (chosen : List MailFile) : Prop :=
  ∃ copies, (after.filesOf source).Perm (before.filesOf source) ∧
    (after.filesOf dest).Perm (before.filesOf dest ++ copies) ∧
    List.Forall₂ (SameBody host) chosen copies ∧
    ∀ later, StillThere after later source dest →
      Unaffected host later source dest copies ∧ Unaffected host later dest source chosen

/-- The messages have gone from one mailbox to the other and nothing else has changed. -/
def Moved (host : Host) (before after : Filesystem) (source dest : MailboxId)
    (chosen : List MailFile) : Prop :=
  ∃ copies, (after.filesOf source ++ chosen).Perm (before.filesOf source) ∧
    (after.filesOf dest).Perm (before.filesOf dest ++ copies) ∧
    List.Forall₂ (SameBody host) chosen copies ∧
    (∀ id, id ≠ source → id ≠ dest → (after.filesOf id).Perm (before.filesOf id)) ∧
    ∀ later, StillThere after later source dest → Unaffected host later source dest copies

def Hidden (host : Host) (store : Filesystem) (source dest : MailboxId)
    (chosen : List MailFile) : Prop :=
  ∀ file ∈ chosen, ∀ id, storedId host file = some id →
    ∀ other ∈ store.filesOf source ++ store.filesOf dest, listedId host other ≠ some id

/-! A finished copy. -/

section Made

variable {store after : Filesystem} {source dest : MailboxId} {chosen : List (MailFile × Nat)}
  {copies : List MailFile}

theorem CopyMade.filesOf_source (made : CopyMade host store source dest chosen copies after)
    (apart : source ≠ dest) : after.filesOf source = store.filesOf source := by
  rw [filesOf, made.others source apart]
  rfl

theorem mem_listedIds {store : Filesystem} {id : MailboxId} {file : MailFile} {shown : MessageId}
    (member : file ∈ store.filesOf id) (read : listedId host file = some shown) :
    shown ∈ listedIds host store id := by
  cases found : store.folder id with
  | none =>
      rw [filesOf, found] at member
      cases member
  | some folder =>
      rw [filesOf_found found, ← (folderWalk_perm host store.moment folder).mem_iff] at member
      obtain ⟨place, here⟩ := List.mem_iff_getElem?.mp member
      have shape := @listEntries_eq host id 1 (store.moment + 2) 0
        (folderWalk host store.moment folder)
      have listing : listed host store id = _ := (listed_found found).trans shape
      rw [listedIds, listing, List.map_map]
      refine List.mem_map.mpr ⟨(file, place), List.mk_mem_zipIdx_iff_getElem?.mpr here, ?_⟩
      rw [Function.comp_apply, shownId, read]
      rfl

theorem carriesId_of_stored {file : MailFile} {ids : List MessageId} {id : MessageId}
    (stored : storedId host file = some id) :
    carriesId host ids file = decide (id ∈ ids) := by
  rw [carriesId, stored]
  rfl

theorem filesOf_of_holds {store : Filesystem} {id : MailboxId} {files : List MailFile}
    (holds : store.Holds id files) : files ⊆ store.filesOf id := by
  obtain ⟨folder, found, inside⟩ := holds
  rw [filesOf_found found]
  exact inside

theorem holds_of_mem {store : Filesystem} {id : MailboxId} {file : MailFile}
    (member : file ∈ store.filesOf id) : store.Holds id [file] := by
  cases found : store.folder id with
  | none =>
      rw [filesOf, found] at member
      cases member
  | some folder =>
      rw [filesOf_found found] at member
      refine ⟨folder, found, ?_⟩
      intro other only
      rw [List.mem_singleton.mp only]
      exact member

theorem unaffected_of_hidden {later : Filesystem} {here there : MailboxId} {files : List MailFile}
    (orderly : later.Orderly) (inside : files ⊆ later.filesOf there)
    (hidden : ∀ file ∈ files, ∀ id, storedId host file = some id →
      ∀ other ∈ later.filesOf here, listedId host other ≠ some id) :
    Unaffected host later here there files := by
  intro ids shows
  have spared : ∀ file ∈ files, carriesId host ids file = false := by
    intro file member
    cases stored : storedId host file with
    | none =>
        rw [carriesId, stored]
        rfl
    | some id =>
        rw [carriesId_of_stored stored, decide_eq_false_iff_not]
        intro asked
        rcases (shows id asked).2 with ⟨other, place, read⟩ | unseen
        · exact hidden file member id stored other place read
        · exact unseen there file (inside member) stored
  have intact : ∀ file ∈ files, later.Intact there [file] :=
    fun file member => ⟨orderly, holds_of_mem (inside member)⟩
  have alone : ∀ file ∈ files, ∀ other ∈ [file], carriesId host ids other = false := by
    intro file member other only
    rw [List.mem_singleton.mp only]
    exact spared file member
  constructor
  · intro file member
    exact filesOf_of_holds ((intact file member).deleteMessages (alone file member)).2
      List.mem_cons_self
  · intro flags file member
    exact filesOf_of_holds ((intact file member).setFlags (alone file member) flags).2
      List.mem_cons_self

theorem not_unaffected {later : Filesystem} {here there : MailboxId} {files : List MailFile}
    {file other : MailFile} {id : MessageId} (member : file ∈ files)
    (stored : storedId host file = some id) (place : other ∈ later.filesOf here)
    (read : listedId host other = some id) : ¬Unaffected host later here there files := by
  intro unaffected
  have shows : ∀ shown ∈ [id], Shows host later here shown := by
    intro shown asked
    rw [List.mem_singleton.mp asked]
    exact ⟨mem_listedIds place read, .inl ⟨other, place, read⟩⟩
  obtain ⟨folder, found, inside⟩ := holds_of_mem ((unaffected [id] shows).1 member)
  rw [folder_deleteMessages] at found
  obtain ⟨before, _, rfl⟩ := Option.map_eq_some_iff.mp found
  have kept := inside file List.mem_cons_self
  rw [expungeFolder_files, List.mem_filter, carriesId_of_stored stored] at kept
  simp at kept

theorem CopyMade.origin (fresh : FreshDraws host store source)
    (inside : chosen ⊆ entriesOf host store source) {entry : MailFile × Nat} {copy : MailFile}
    (member : entry ∈ chosen)
    (made : ∃ origin ∈ entriesOf host store source,
      entryId host store origin = entryId host store entry ∧
        CopyOf host origin.1 (entryId host store entry) copy) :
    CopyOf host entry.1 (entryId host store entry) copy ∨
      listedId host entry.1 = some (entryId host store entry) ∧
        storedId host copy = some (entryId host store entry) := by
  obtain ⟨origin, among, shown, copied⟩ := made
  rcases fresh.same among (inside member) shown with rfl | ⟨read, read'⟩
  · exact .inl copied
  · rw [shown] at read read'
    refine .inr ⟨read', ?_⟩
    rcases copied.storedId with stored | ⟨unread, _⟩
    · exact stored.trans (storedId_of_listedId read)
    · rw [read] at unread
      cases unread

theorem forall₂_exists_left {α β : Type} {R : α → β → Prop} {xs : List α} {ys : List β}
    (pairs : List.Forall₂ R xs ys) {x : α} (member : x ∈ xs) : ∃ y ∈ ys, R x y := by
  induction pairs with
  | nil => cases member
  | cons first _ ih =>
      rcases List.mem_cons.mp member with rfl | later
      · exact ⟨_, List.mem_cons_self, first⟩
      · obtain ⟨y, inside, related⟩ := ih later
        exact ⟨y, List.mem_cons_of_mem _ inside, related⟩

theorem forall₂_exists_right {α β : Type} {R : α → β → Prop} {xs : List α} {ys : List β}
    (pairs : List.Forall₂ R xs ys) {y : β} (member : y ∈ ys) : ∃ x ∈ xs, R x y :=
  forall₂_exists_left pairs.flip member

theorem hidden_of_copied (fresh : FreshDraws host store source) (apart : source ≠ dest)
    (inside : chosen ⊆ entriesOf host store source)
    (made : CopyMade host store source dest chosen copies after)
    (done : Copied host store after source dest (chosen.map Prod.fst)) :
    Hidden host store source dest (chosen.map Prod.fst) := by
  obtain ⟨claimed, _, received, _, unaffected⟩ := done
  intro file member id stored other place read
  obtain ⟨entry, among, rfl⟩ := List.mem_map.mp member
  have same : claimed.Perm copies :=
    (List.perm_append_left_iff _).mp (received.symm.trans made.received)
  obtain ⟨toCopies, toChosen⟩ := unaffected after ⟨made.orderly, rfl, rfl⟩
  rcases List.mem_append.mp place with here | there
  · obtain ⟨copy, copied, origin⟩ := forall₂_exists_left made.each among
    have carries : storedId host copy = some id := by
      rcases CopyMade.origin fresh inside among origin with kept | ⟨named, carried⟩
      · rcases kept.storedId with carried | ⟨_, unwritten, _⟩
        · exact carried.trans stored
        · rw [stored] at unwritten
          cases unwritten
      · rw [carried, ← storedId_of_listedId named]
        exact stored
    rw [← made.filesOf_source apart] at here
    exact not_unaffected (same.mem_iff.mpr copied) carries here read toCopies
  · have held : other ∈ after.filesOf dest :=
      made.received.mem_iff.mpr (List.mem_append_left _ there)
    exact not_unaffected member stored held read toChosen

theorem CopyMade.plain (fresh : FreshDraws host store source)
    (inside : chosen ⊆ entriesOf host store source)
    (made : CopyMade host store source dest chosen copies after)
    (hidden : Hidden host store source dest (chosen.map Prod.fst)) :
    List.Forall₂ (fun entry copy => entry ∈ chosen ∧
      CopyOf host entry.1 (entryId host store entry) copy) chosen copies := by
  refine ((List.forall₂_and_left _ _).mpr ⟨fun _ => id, made.each⟩).imp ?_
  rintro entry copy ⟨member, origin⟩
  refine ⟨member, ?_⟩
  rcases CopyMade.origin fresh inside member origin with kept | ⟨named, _⟩
  · exact kept
  · exact absurd named (hidden entry.1 (List.mem_map_of_mem member) _ (storedId_of_listedId named)
      entry.1 (List.mem_append_left _ (mem_filesOf_of_entry (inside member))))

theorem copied_of_hidden (fresh : FreshDraws host store source) (apart : source ≠ dest)
    (inside : chosen ⊆ entriesOf host store source)
    (made : CopyMade host store source dest chosen copies after)
    (hidden : Hidden host store source dest (chosen.map Prod.fst)) :
    Copied host store after source dest (chosen.map Prod.fst) := by
  have files := made.filesOf_source apart
  have plain := made.plain fresh inside hidden
  refine ⟨copies, by rw [files], made.received, ?_, ?_⟩
  · rw [List.forall₂_map_left_iff]
    exact plain.imp fun _ _ kept => kept.2.body.symm
  · rintro later ⟨orderly, there, held⟩
    have laterSource : later.filesOf source = store.filesOf source := by
      rw [filesOf, there, ← files]
      rfl
    have laterDest : (later.filesOf dest).Perm (store.filesOf dest ++ copies) := by
      rw [filesOf, held]
      exact made.received
    constructor
    · apply unaffected_of_hidden orderly
      · intro copy member
        exact laterDest.mem_iff.mpr (List.mem_append_right _ member)
      · intro copy member id stored other place read
        rw [laterSource] at place
        obtain ⟨entry, _, among, kept⟩ := forall₂_exists_right plain member
        rcases kept.storedId with carried | ⟨unread, _, drawn⟩
        · exact hidden entry.1 (List.mem_map_of_mem among) id (carried.symm.trans stored) other
            (List.mem_append_left _ place) read
        · have fromDraw : entryId host store entry =
              ⟨host.newUuid (store.moment + 2 + entry.2)⟩ := by
            rw [entryId, shownId, unread]
            rfl
          rw [stored, fromDraw] at drawn
          have seen := storedId_of_listedId read
          rw [drawn] at seen
          exact fresh.unseen entry (inside among) other place seen
    · apply unaffected_of_hidden orderly
      · intro file member
        obtain ⟨entry, among, rfl⟩ := List.mem_map.mp member
        rw [laterSource]
        exact mem_filesOf_of_entry (inside among)
      · intro file member id stored other place read
        rcases List.mem_append.mp (laterDest.mem_iff.mp place) with old | copy
        · exact hidden file member id stored other (List.mem_append_right _ old) read
        · obtain ⟨entry, _, _, kept⟩ := forall₂_exists_right plain copy
          rw [kept.listedId] at read
          cases read

/-- A finished copy is what UID COPY promises exactly when the identifiers of the copied
messages stay hidden. -/
theorem copied_iff_hidden (fresh : FreshDraws host store source) (apart : source ≠ dest)
    (inside : chosen ⊆ entriesOf host store source)
    (made : CopyMade host store source dest chosen copies after) :
    Copied host store after source dest (chosen.map Prod.fst) ↔
      Hidden host store source dest (chosen.map Prod.fst) := by
  constructor
  · intro done
    exact hidden_of_copied fresh apart inside made done
  · intro hidden
    exact copied_of_hidden fresh apart inside made hidden

theorem filesOf_expunged (host : Host) (ids : List MessageId) (flags : MessageFlags)
    {store : Filesystem} (orderly : store.Orderly) (id : MailboxId) :
    ((deleteMessages host ids (setFlags host ids flags store).2).2.filesOf id).Perm
      ((store.filesOf id).filter fun file => !carriesId host ids file) := by
  rw [filesOf, folder_deleteMessages, folder_setFlags, filesOf]
  cases found : store.folder id with
  | none => exact List.Perm.refl _
  | some folder =>
      have moved := (flagFolder_files host ids flags store.moment (orderly.wellNamed found)).filter
        fun file => !carriesId host ids file
      change ((expungeFolder host ids (flagFolder host store.moment ids flags folder)).files).Perm
        (folder.files.filter _)
      rw [expungeFolder_files]
      refine moved.trans (List.Perm.of_eq ?_)
      have same : (fun file => !carriesId host ids file) ∘ flaggedFile host ids flags =
          fun file => !carriesId host ids file := by
        funext file
        rw [Function.comp_apply, carriesId_congr (flaggedFile_data file)]
      rw [List.filter_map, same]
      have kept : ∀ file ∈ folder.files.filter fun file => !carriesId host ids file,
          flaggedFile host ids flags file = file := by
        intro file member
        have missed := (List.mem_filter.mp member).2
        rw [Bool.not_eq_true'] at missed
        rw [flaggedFile, missed]
        rfl
      rw [List.map_congr_left kept, List.map_id']

theorem moved_nothing (made : CopyMade host store source dest [] copies after) :
    Moved host store after source dest [] := by
  have empty : copies = [] := List.eq_nil_of_length_eq_zero made.each.length_eq.symm
  have kept : ∀ id, (after.filesOf id).Perm (store.filesOf id) := by
    intro id
    by_cases here : id = dest
    · have received := made.received
      rw [empty, List.append_nil] at received
      rw [here]
      exact received
    · rw [filesOf, made.others id here]
      exact List.Perm.refl _
  refine ⟨[], ?_, ?_, List.Forall₂.nil, fun id _ _ => kept id, ?_⟩
  · rw [List.append_nil]
    exact kept source
  · rw [List.append_nil]
    exact kept dest
  · intro later _ ids _
    exact ⟨List.nil_subset _, fun _ => List.nil_subset _⟩

theorem not_moved (fresh : FreshDraws host store source) (inside : chosen ⊆ entriesOf host store source)
    (apart : source ≠ dest) (some : chosen ≠ [])
    (made : CopyMade host store source dest chosen copies after) (flags : MessageFlags) :
    let ids := chosen.map (entryId host store)
    ¬Moved host store (deleteMessages host ids (setFlags host ids flags after).2).2 source dest
      (chosen.map Prod.fst) := by
  rintro ids ⟨claimed, gone, received, pairs, _⟩
  have atDest := filesOf_expunged host ids flags made.orderly dest
  have atSource := filesOf_expunged host ids flags made.orderly source
  rw [made.filesOf_source apart] at atSource
  -- as many copies as messages are left, so none has been deleted
  have kept : ∀ file ∈ store.filesOf dest ++ copies, carriesId host ids file = false := by
    have balance := (((made.received.filter _).symm.trans atDest.symm).trans received).length_eq
    rw [List.length_append, ← pairs.length_eq, List.length_map, made.each.length_eq,
      ← List.length_append, List.length_filter_eq_length_iff] at balance
    intro file member
    simpa using balance file member
  obtain ⟨entry, rest, shape⟩ := List.exists_cons_of_ne_nil some
  have member : entry ∈ chosen := by
    rw [shape]
    exact List.mem_cons_self
  have asked : entryId host store entry ∈ ids := List.mem_map_of_mem member
  obtain ⟨copy, copied, origin⟩ := forall₂_exists_left made.each member
  have spared := kept copy (List.mem_append_right _ copied)
  have stays : carriesId host ids entry.1 = false := by
    rcases CopyMade.origin fresh inside member origin with own | ⟨_, carried⟩
    · rcases own.storedId with stored | ⟨_, _, carried⟩
      · rw [carriesId, ← stored]
        exact spared
      · rw [carriesId_of_stored carried, decide_eq_false_iff_not] at spared
        exact absurd asked spared
    · rw [carriesId_of_stored carried, decide_eq_false_iff_not] at spared
      exact absurd asked spared
  -- the message is still in the source
  have counted := gone.count_eq entry.1
  have here : 0 < (chosen.map Prod.fst).count entry.1 :=
    List.count_pos_iff.mpr (List.mem_map_of_mem member)
  have left := atSource.count_eq entry.1
  rw [List.count_filter (by rw [stays]; rfl)] at left
  rw [List.count_append] at counted
  omega

end Made

end Filesystem

/-! The commands. -/

section Commands

variable {β : Type} {host : Host} {authBackend : AuthBackend β} {upper : Text → Text}
  {newUuid : Nat → BitVec 128} {world located : World Filesystem β} {source : MailboxId}
  {user : Username} {dest : Mailbox} {sequence mailbox tag : Text} {uids : UidSet}

theorem findMailbox_store
    (finds : findMailbox (filesystemContext host authBackend upper newUuid) user mailbox world =
      (.ok (some dest), located)) :
    located = { world with store := { world.store with moment := world.store.moment + 1 } } :=
  (Prod.mk.inj finds).2.symm

def copyRun (host : Host) (store : Filesystem) (source dest : MailboxId) (uids : UidSet) :
    Except Text (List MessageMetadata) × Filesystem :=
  Filesystem.copyMessages host dest
    ((Filesystem.chosenEntries host store source uids).map (Filesystem.entryId host store))
    (Filesystem.getMailboxMessages host source store).2

theorem handleUidCopy_run (selected : world.session.state = .selected source)
    (named : world.session.username = some user)
    (finds : findMailbox (filesystemContext host authBackend upper newUuid) user mailbox world =
      (.ok (some dest), located))
    (parsed : parseUidSequenceSet sequence (Filesystem.listed host located.store source) =
      .ok uids) :
    let ran := copyRun host located.store source dest.id uids
    let handled := handleUidCopy (filesystemContext host authBackend upper newUuid) tag sequence
      mailbox world
    handled.1.isOk = ran.1.isOk ∧ handled.2.store = ran.2 := by
  intro ran handled
  let ctx := filesystemContext host authBackend upper newUuid
  have lists : ctx.messageStore.getMailboxMessages source located.store =
      (.ok (Filesystem.listed host located.store source), _) :=
    Filesystem.getMailboxMessages_listed host source located.store
  have shape : handled = _ := handleUidCopy_found selected named finds lists parsed
  rw [Filesystem.select_listed] at shape
  rw [shape]
  by_cases none : (Filesystem.chosenEntries host located.store source uids).map
      (Filesystem.entryId host located.store) = []
  · rw [copyChosen, if_pos none]
    simp only [ran, copyRun, none]
    exact ⟨rfl, rfl⟩
  · exact copyChosen_run none _

theorem handleUidMove_run (selected : world.session.state = .selected source)
    (named : world.session.username = some user)
    (finds : findMailbox (filesystemContext host authBackend upper newUuid) user mailbox world =
      (.ok (some dest), located))
    (parsed : parseUidSequenceSet sequence (Filesystem.listed host located.store source) =
      .ok uids) :
    let chosen := Filesystem.chosenEntries host located.store source uids
    let ids := chosen.map (Filesystem.entryId host located.store)
    let ran := copyRun host located.store source dest.id uids
    let handled := handleUidMove (filesystemContext host authBackend upper newUuid) tag sequence
      mailbox world
    handled.1.isOk = ran.1.isOk ∧ handled.2.store =
      if chosen = [] ∨ ran.1.isOk = false then ran.2
      else (Filesystem.deleteMessages host ids (Filesystem.setFlags host ids
        { MessageFlags.new with deleted := true } ran.2).2).2 := by
  intro chosen ids ran handled
  let ctx := filesystemContext host authBackend upper newUuid
  have lists : ctx.messageStore.getMailboxMessages source located.store =
      (.ok (Filesystem.listed host located.store source), _) :=
    Filesystem.getMailboxMessages_listed host source located.store
  have shape : handled = _ := handleUidMove_found selected named finds lists parsed
  rw [Filesystem.select_listed] at shape
  rw [shape]
  by_cases none : chosen = []
  · have nothing : ids = [] := by
      simp only [ids, none]
      rfl
    rw [if_pos (Or.inl none), moveChosen, if_pos nothing]
    simp only [ran, copyRun]
    rw [show List.map _ _ = _ from nothing]
    exact ⟨rfl, rfl⟩
  · have named : ids ≠ [] := fun empty => none (List.map_eq_nil_iff.mp empty)
    rw [moveChosen, if_neg named]
    rcases copied : copyRun host located.store source dest.id uids with ⟨outcome, after⟩
    have there : ran = (outcome, after) := copied
    rw [there]
    cases outcome with
    | error error =>
        have failed : chosen = [] ∨ (Except.error error : Except Text (List MessageMetadata)).isOk =
            false := .inr rfl
        rw [Effect.bind_error (onStore_error copied)]
        exact ⟨rfl, (if_pos failed).symm⟩
    | ok metadata =>
        have went : ¬(chosen = [] ∨ (Except.ok metadata : Except Text (List MessageMetadata)).isOk =
            false) := by
          rintro (empty | failed)
          · exact none empty
          · cases failed
        rw [Effect.bind_ok (onStore_ok copied)]
        exact ⟨rfl, (if_neg went).symm⟩

/-- UID COPY keeps its promise exactly when the identifiers of the copied messages stay
hidden; UID MOVE only when it has nothing to do. -/
theorem copies_obey_iff (selected : world.session.state = .selected source)
    (named : world.session.username = some user)
    (finds : findMailbox (filesystemContext host authBackend upper newUuid) user mailbox world =
      (.ok (some dest), located))
    (parsed : parseUidSequenceSet sequence (Filesystem.listed host located.store source) =
      .ok uids)
    {target : Folder} (there : world.store.folder dest.id = some target) (apart : source ≠ dest.id)
    (orderly : world.store.Orderly) (fresh : Filesystem.FreshDraws host located.store source) :
    let ctx := filesystemContext host authBackend upper newUuid
    let copied := handleUidCopy ctx tag sequence mailbox world
    let moved := handleUidMove ctx tag sequence mailbox world
    let chosen := Filesystem.chosenFiles host located.store source uids
    (copied.1.isOk = true → (Filesystem.Copied host world.store copied.2.store source dest.id chosen ↔
      Filesystem.Hidden host world.store source dest.id chosen)) ∧
    (moved.1.isOk = true → (Filesystem.Moved host world.store moved.2.store source dest.id chosen ↔
      chosen = [])) := by
  intro ctx copied moved chosen
  have disk : world.store.SameDisk located.store := by
    rw [findMailbox_store finds]
    exact ⟨rfl, rfl⟩
  have files := disk.filesOf
  have inside : Filesystem.chosenEntries host located.store source uids ⊆
      Filesystem.entriesOf host located.store source := List.filter_subset_self _
  obtain ⟨done, copies, _, made, complete, _⟩ := Filesystem.copyMessages_listed inside
    (disk.orderly orderly) ((disk.folder dest.id).trans there)
  have copyRan := @handleUidCopy_run _ host authBackend upper newUuid _ _ _ _ _ _ _ tag _ selected
    named finds parsed
  have moveRan := @handleUidMove_run _ host authBackend upper newUuid _ _ _ _ _ _ _ tag _ selected
    named finds parsed
  constructor
  · intro succeeded
    rw [copyRan.1] at succeeded
    rw [complete.mp succeeded] at made
    have law := Filesystem.copied_iff_hidden fresh apart inside made
    simp only [Filesystem.Copied, Filesystem.Hidden, files] at law ⊢
    rw [copyRan.2]
    exact law
  · intro succeeded
    have finished := moveRan.1.symm.trans succeeded
    rw [complete.mp finished] at made
    have stored : moved.2.store = _ := moveRan.2
    by_cases none : Filesystem.chosenEntries host located.store source uids = []
    · have nothing : chosen = [] := congrArg (List.map Prod.fst) none
      refine iff_of_true ?_ nothing
      rw [if_pos (Or.inl none)] at stored
      have ran : Filesystem.CopyMade host located.store source dest.id [] copies
          (copyRun host located.store source dest.id uids).2 := none ▸ made
      have law := Filesystem.moved_nothing ran
      simp only [Filesystem.Moved, files] at law ⊢
      rw [stored, nothing]
      exact law
    · have some : chosen ≠ [] := fun nothing => none (List.map_eq_nil_iff.mp nothing)
      refine iff_of_false ?_ some
      have still := Filesystem.not_moved fresh inside apart none made
        { MessageFlags.new with deleted := true }
      rw [if_neg (by
        rintro (nothing | failed)
        · exact none nothing
        · rw [finished] at failed
          cases failed)] at stored
      rw [stored]
      simp only [Filesystem.Moved, files] at still ⊢
      exact still

end Commands

def archiveId : MailboxId := ⟨2⟩

def archive : Mailbox := Mailbox.new archiveId ⟨aliceUser, ["Archive".toList]⟩

def plainNote : MailFile := storedNote "1.M0P1Q0.localhost"

def twoMailboxes : Filesystem :=
  { Filesystem.freshStore with
    folders := AList.insert Filesystem.inboxId ⟨Filesystem.aliceInbox, [], [plainNote]⟩
      (AList.insert archiveId ⟨archive, [], []⟩ ∅) }

def filingWorld : World Filesystem Unit := inboxWorld twoMailboxes

def filingLocated : World Filesystem Unit :=
  { filingWorld with store := { twoMailboxes with moment := 1 } }

theorem filingWorld_finds :
    findMailbox plainContext aliceUser "Archive".toList filingWorld =
      (.ok (some archive), filingLocated) := rfl

theorem filingWorld_entries :
    Filesystem.entriesOf plainHost filingLocated.store Filesystem.inboxId = [(plainNote, 0)] := rfl

theorem plainNote_unnamed : Filesystem.storedId plainHost plainNote = none := rfl

theorem twoMailboxes_orderly : twoMailboxes.Orderly := by
  intro id folder found
  have note : (⟨Filesystem.aliceInbox, [], [plainNote]⟩ : Folder).Numbered 0 := by
    refine ⟨?_, ?_, ?_⟩
    · intro file member
      rw [List.mem_singleton.mp member]
      exact MaildirFilename.numbered_generate "localhost".toList 1 0 (1, 0)
    · intro file member
      rw [List.mem_singleton.mp member]
      exact Nat.le_refl 0
    · exact List.nodup_singleton _
  by_cases inbox : id = Filesystem.inboxId
  · subst inbox
    cases (AList.lookup_insert _).symm.trans found
    exact note
  · have later := (AList.lookup_insert_ne inbox).symm.trans found
    by_cases filed : id = archiveId
    · subst filed
      cases (AList.lookup_insert _).symm.trans later
      exact ⟨by simp [Folder.files], by simp [Folder.files], by simp [Folder.files]⟩
    · cases (AList.lookup_insert_ne filed).symm.trans later

theorem filingWorld_fresh :
    Filesystem.FreshDraws plainHost filingLocated.store Filesystem.inboxId := by
  constructor
  · rw [filingWorld_entries]
    intro first firstIn second secondIn _
    rw [List.mem_singleton.mp firstIn, List.mem_singleton.mp secondIn]
  · intro entry _ file member
    have only : file = plainNote := List.mem_singleton.mp member
    rw [only, plainNote_unnamed]
    exact nofun

theorem copies_obey_one_note :
    Filesystem.Copied plainHost twoMailboxes
        (handleUidCopy plainContext "a".toList "1".toList "Archive".toList filingWorld).2.store
        Filesystem.inboxId archiveId [plainNote] ∧
      ¬Filesystem.Moved plainHost twoMailboxes
        (handleUidMove plainContext "a".toList "1".toList "Archive".toList filingWorld).2.store
        Filesystem.inboxId archiveId [plainNote] := by
  obtain ⟨copies, moves⟩ := @copies_obey_iff _ plainHost singleUser toUppercase
    (fun draw => ~~~BitVec.ofNat 128 draw) filingWorld filingLocated Filesystem.inboxId aliceUser
    archive "1".toList "Archive".toList "a".toList [(1, 1)] rfl rfl filingWorld_finds rfl
    ⟨archive, [], []⟩ rfl (by decide) twoMailboxes_orderly filingWorld_fresh
  refine ⟨(copies rfl).mpr ?_, fun moved => absurd ((moves rfl).mp moved) (List.cons_ne_nil _ _)⟩
  intro file member id stored
  have only : file = plainNote := List.mem_singleton.mp member
  rw [only, plainNote_unnamed] at stored
  cases stored

/-- A moved message is still where it was. -/
theorem uidMove_leaves_note :
    ¬Filesystem.Moved plainHost twoMailboxes
      (handleUidMove plainContext "a".toList "1".toList "Archive".toList filingWorld).2.store
      Filesystem.inboxId archiveId [plainNote] := by
  rintro ⟨_, gone, _⟩
  have kept : (handleUidMove plainContext "a".toList "1".toList "Archive".toList
      filingWorld).2.store.filesOf Filesystem.inboxId = [plainNote] := rfl
  rw [kept] at gone
  have lengths := gone.length_eq
  cases lengths

end Rusmes
