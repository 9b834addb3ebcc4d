import Rusmes.Imap.ReadOnly
import Rusmes.Imap.Selection

/-!
What UID STORE does to the flags of the messages. A set of flags is taken as the set of
its names in upper case. The store keeps the five system flags in the name of a file, so
what is read back has no keywords, and all three modes write the flags they are given.
-/

namespace Rusmes

open WireText

def systemFlags : List Text :=
  ["\\SEEN", "\\ANSWERED", "\\FLAGGED", "\\DELETED", "\\DRAFT"].map String.toList

def MessageFlags.Has (flags : MessageFlags) (name : Text) : Prop :=
  (name = "\\SEEN".toList ∧ flags.seen) ∨ (name = "\\ANSWERED".toList ∧ flags.answered) ∨
    (name = "\\FLAGGED".toList ∧ flags.flagged) ∨ (name = "\\DELETED".toList ∧ flags.deleted) ∨
    (name = "\\DRAFT".toList ∧ flags.draft) ∨ name ∈ flags.custom

theorem MessageFlags.has_system_of_decoded (filename name : Text)
    (has : (MaildirFilename.decodeFlags filename).Has name) : name ∈ systemFlags := by
  rcases has with ⟨rfl, _⟩ | ⟨rfl, _⟩ | ⟨rfl, _⟩ | ⟨rfl, _⟩ | ⟨rfl, _⟩ | custom
  · simp [systemFlags]
  · simp [systemFlags]
  · simp [systemFlags]
  · simp [systemFlags]
  · simp [systemFlags]
  · cases custom

theorem has_system_setNamedFlag (flags : MessageFlags) (given name : Text) :
    (setNamedFlag flags given).system.Has name ↔
      flags.system.Has name ∨ (name = given ∧ name ∈ systemFlags) := by
  have member : name ∈ systemFlags ↔ name = "\\SEEN".toList ∨ name = "\\ANSWERED".toList ∨
      name = "\\FLAGGED".toList ∨ name = "\\DELETED".toList ∨ name = "\\DRAFT".toList := by
    simp [systemFlags]
  rw [member, setNamedFlag]
  simp only [MessageFlags.Has]
  generalize "\\SEEN".toList = seen, "\\ANSWERED".toList = answered,
    "\\FLAGGED".toList = flagged, "\\DELETED".toList = deleted, "\\DRAFT".toList = draft
  split
  · rename_i same
    simp only [MessageFlags.system, same]
    grind
  · split
    · rename_i same
      simp only [MessageFlags.system, same]
      grind
    · split
      · rename_i same
        simp only [MessageFlags.system, same]
        grind
      · split
        · rename_i same
          simp only [MessageFlags.system, same]
          grind
        · split
          · rename_i same
            simp only [MessageFlags.system, same]
            grind
          · have kept : (flags.addCustom given).system = flags.system := by
              rw [MessageFlags.addCustom]
              split <;> rfl
            rw [kept]
            simp only [MessageFlags.system]
            constructor
            · exact Or.inl
            · rintro (has | ⟨rfl, is⟩)
              · exact has
              · grind

theorem has_system_buildMessageFlags {σ β : Type} (ctx : HandlerContext σ β) (given : List Text)
    (name : Text) :
    (buildMessageFlags ctx given).system.Has name ↔
      name ∈ given.map ctx.toUppercase ∧ name ∈ systemFlags := by
  have folded : ∀ (names : List Text) (flags : MessageFlags),
      (names.foldl setNamedFlag flags).system.Has name ↔
        flags.system.Has name ∨ (name ∈ names ∧ name ∈ systemFlags) := by
    intro names
    induction names with
    | nil => simp
    | cons first names ih =>
        intro flags
        rw [List.foldl_cons, ih, has_system_setNamedFlag, List.mem_cons]
        tauto
  have none : ¬MessageFlags.new.system.Has name := by
    simp [MessageFlags.Has, MessageFlags.new, MessageFlags.system]
  rw [buildMessageFlags, folded, or_iff_right none]

/-! The law of the three modes. -/

def StoreMode.Wants (mode : StoreMode) (given : List Text) (current : Text → Prop) (name : Text) :
    Prop :=
  match mode with
  | .replace => name ∈ given
  | .add => current name ∨ name ∈ given
  | .remove => current name ∧ name ∉ given

/-- When the code obeys the law for one message. `reached` says that the store finds the
file under one of the identifiers it is given, `picked` that the UID set names it. -/
def StoreMode.Obeyed (mode : StoreMode) (given : List Text) (current : Text → Prop)
    (picked reached : Prop) : Prop :=
  (picked → reached →
    match mode with
    | .replace => ∀ name ∈ given, name ∈ systemFlags
    | .add => (∀ name ∈ given, name ∈ systemFlags) ∧ ∀ name, current name → name ∈ given
    | .remove => (∀ name ∈ given, name ∉ systemFlags) ∧ ∀ name, ¬current name) ∧
  (picked → ¬reached →
    match mode with
    | .replace => ∀ name, current name ↔ name ∈ given
    | .add => ∀ name ∈ given, current name
    | .remove => ∀ name ∈ given, ¬current name) ∧
  (¬picked → reached → ∀ name, current name ↔ name ∈ given ∧ name ∈ systemFlags)

theorem StoreMode.obeyed_iff (mode : StoreMode) (given : List Text) {current : Text → Prop}
    (system : ∀ name, current name → name ∈ systemFlags) (picked reached : Prop) :
    (∀ name, (reached ∧ name ∈ given ∧ name ∈ systemFlags) ∨ (¬reached ∧ current name) ↔
        (picked ∧ mode.Wants given current name) ∨ (¬picked ∧ current name)) ↔
      mode.Obeyed given current picked reached := by
  by_cases asked : picked
  · by_cases found : reached
    · cases mode with
      | replace =>
          simp only [Obeyed, Wants, asked, found]
          grind
      | add =>
          simp only [Obeyed, Wants, asked, found]
          grind
      | remove =>
          simp only [Obeyed, Wants, asked, found]
          grind
    · cases mode with
      | replace =>
          simp only [Obeyed, Wants, asked, found]
          grind
      | add =>
          simp only [Obeyed, Wants, asked, found]
          grind
      | remove =>
          simp only [Obeyed, Wants, asked, found]
          grind
  · simp only [Obeyed, asked]
    grind

namespace Filesystem

def Picked (host : Host) (store : Filesystem) (mailboxId : MailboxId) (uids : UidSet)
    (id : MailboxId) (file : MailFile) : Prop :=
  id = mailboxId ∧ ∃ folder index, store.folder mailboxId = some folder ∧
    (folderWalk host store.moment folder)[index]? = some file ∧
    uids.contains (1 + UInt32.ofNat index) = true

def pickedIds (host : Host) (store : Filesystem) (mailboxId : MailboxId) (uids : UidSet) :
    List MessageId :=
  (uids.select ((getMailboxMessages host mailboxId store).1.toOption.getD [])).map
    MessageMetadata.messageId

def FlagsObey (host : Host) (store after : Filesystem) (mailboxId : MailboxId) (uids : UidSet)
    (mode : StoreMode) (given : List Text) : Prop :=
  ∀ id folder, store.folder id = some folder → ∀ file ∈ folder.files,
    ∃ held, after.folder id = some held ∧ ∃ kept ∈ held.files,
      kept.base = file.base ∧ kept.data = file.data ∧
        ∀ name, (MaildirFilename.decodeFlags kept.name).Has name ↔
          (Picked host store mailboxId uids id file ∧
            mode.Wants given (MaildirFilename.decodeFlags file.name).Has name) ∨
          (¬Picked host store mailboxId uids id file ∧
            (MaildirFilename.decodeFlags file.name).Has name)

section Flagged

variable {host : Host} {ids : List MessageId} {flags : MessageFlags}

theorem decodeFlags_flaggedFile (file : MailFile) :
    MaildirFilename.decodeFlags (flaggedFile host ids flags file).name =
      if carriesId host ids file then flags.system else MaildirFilename.decodeFlags file.name := by
  rw [flaggedFile]
  split
  · exact MaildirFilename.decodeFlags_withFlags file.name flags
  · rfl

theorem flaggedFile_nil (file : MailFile) : flaggedFile host [] flags file = file := by
  have none : carriesId host [] file = false := by simp [carriesId]
  rw [flaggedFile, none]
  rfl

end Flagged

end Filesystem

section Store

variable {β : Type} {host : Host} {authBackend : AuthBackend β} {upper : Text → Text}
  {newUuid : Nat → BitVec 128} {world : World Filesystem β} {id : MailboxId} {sequence tag : Text}
  {uids : UidSet} {messages : List MessageMetadata} {listed : Filesystem}

theorem handleUidStore_files (selected : world.session.state = .selected id)
    (lists : Filesystem.getMailboxMessages host id world.store = (.ok messages, listed))
    (parsed : parseUidSequenceSet sequence messages = .ok uids) (mode : StoreMode)
    (flags : List Text) {other : MailboxId} {folder : Folder}
    (found : world.store.folder other = some folder) (named : folder.WellNamed) :
    let ctx := filesystemContext host authBackend upper newUuid
    ∃ held, (handleUidStore ctx tag sequence mode flags world).2.store.folder other = some held ∧
      held.WellNamed ∧ held.files.Perm (folder.files.map (Filesystem.flaggedFile host
        (Filesystem.pickedIds host world.store id uids) (buildMessageFlags ctx flags))) := by
  intro ctx
  have after := @handleUidStore_store _ _ ctx world id sequence tag messages listed uids selected lists
    parsed mode flags
  obtain ⟨cached, moment, disk⟩ := Filesystem.getMailboxMessages_disk host id world.store
  rw [lists] at disk
  have same : listed.folder other = some folder := by
    rw [show listed = _ from disk]
    exact found
  have ids : Filesystem.pickedIds host world.store id uids =
      (uids.select messages).map MessageMetadata.messageId := by
    rw [Filesystem.pickedIds, lists]
    rfl
  rw [after, ids]
  by_cases none : uids.select messages = []
  · rw [if_pos none, none]
    refine ⟨folder, same, named, ?_⟩
    rw [List.map_nil, List.map_congr_left fun file _ => Filesystem.flaggedFile_nil file]
    simp
  · rw [if_neg none]
    refine ⟨_, ?_, Filesystem.flagFolder_wellNamed host _ _ listed.moment named,
      Filesystem.flagFolder_files host _ _ listed.moment named⟩
    change (Filesystem.setFlags host _ _ listed).2.folder other = _
    rw [Filesystem.folder_setFlags, same]
    rfl

/-- UID STORE obeys the law exactly when it does for every message of the store. -/
theorem uidStore_flags_obey_iff (selected : world.session.state = .selected id)
    (named : ∀ other folder, world.store.folder other = some folder → folder.WellNamed)
    (lists : Filesystem.getMailboxMessages host id world.store = (.ok messages, listed))
    (parsed : parseUidSequenceSet sequence messages = .ok uids) (mode : StoreMode)
    (flags : List Text) :
    Filesystem.FlagsObey host world.store
        (handleUidStore (filesystemContext host authBackend upper newUuid) tag sequence mode flags
          world).2.store id uids mode (flags.map upper) ↔
      ∀ other folder, world.store.folder other = some folder → ∀ file ∈ folder.files,
        mode.Obeyed (flags.map upper) (MaildirFilename.decodeFlags file.name).Has
          (Filesystem.Picked host world.store id uids other file)
          (Filesystem.carriesId host (Filesystem.pickedIds host world.store id uids) file = true) := by
  refine forall₂_congr fun other folder => forall_congr' fun found => forall₂_congr fun file member => ?_
  let ctx := filesystemContext host authBackend upper newUuid
  obtain ⟨held, there, heldNamed, files⟩ := @handleUidStore_files _ host authBackend upper newUuid
    world id sequence tag uids messages listed selected lists parsed mode flags other folder found
    (named other folder found)
  let ids := Filesystem.pickedIds host world.store id uids
  let reflagged := Filesystem.flaggedFile host ids (buildMessageFlags ctx flags) file
  have inside : reflagged ∈ held.files := files.mem_iff.mpr (List.mem_map_of_mem member)
  rw [← mode.obeyed_iff (flags.map upper) (MessageFlags.has_system_of_decoded file.name)]
  have reads : ∀ name, (MaildirFilename.decodeFlags reflagged.name).Has name ↔
      (Filesystem.carriesId host ids file = true ∧ name ∈ flags.map upper ∧ name ∈ systemFlags) ∨
        (¬Filesystem.carriesId host ids file = true ∧
          (MaildirFilename.decodeFlags file.name).Has name) := by
    intro name
    rw [Filesystem.decodeFlags_flaggedFile]
    split
    · rename_i carries
      rw [has_system_buildMessageFlags]
      change name ∈ flags.map upper ∧ _ ↔ _
      simp [carries]
    · rename_i missed
      simp [missed]
  constructor
  · rintro ⟨other, again, kept, among, sameBase, _, law⟩ name
    rw [there, Option.some.injEq] at again
    subst again
    have same : kept = reflagged := List.inj_on_of_nodup_map heldNamed among inside
      (sameBase.trans (Filesystem.flaggedFile_base file).symm)
    rw [← reads, ← same]
    exact law name
  · intro law
    refine ⟨held, there, reflagged, inside, Filesystem.flaggedFile_base file,
      Filesystem.flaggedFile_data file, fun name => ?_⟩
    rw [reads]
    exact law name

end Store

def noteWorld : World Filesystem Unit := inboxWorld (storeWith (smuggling ⟨7⟩))

theorem noteWorld_folder {id : MailboxId} {folder : Folder}
    (found : noteWorld.store.folder id = some folder) :
    id = Filesystem.inboxId ∧ folder = ⟨Filesystem.aliceInbox, [smuggledFile], []⟩ := by
  have inbox : noteWorld.store.folder Filesystem.inboxId =
      some ⟨Filesystem.aliceInbox, [smuggledFile], []⟩ := rfl
  by_cases same : id = Filesystem.inboxId
  · subst same
    exact ⟨rfl, Option.some.inj (found.symm.trans inbox)⟩
  · have absent : noteWorld.store.folder id = none :=
      (Table.lookup_adjust _ _ _ id).trans ((if_neg same).trans (AList.lookup_insert_ne same))
    rw [absent] at found
    cases found

theorem noteWorld_lists : ∃ listed, Filesystem.getMailboxMessages plainHost Filesystem.inboxId
    noteWorld.store = (.ok (Filesystem.listEntries plainHost Filesystem.inboxId 1
      (noteWorld.store.moment + 2) [smuggledFile]), listed) := by
  have found : noteWorld.store.folder Filesystem.inboxId =
      some ⟨Filesystem.aliceInbox, [smuggledFile], []⟩ := rfl
  exact ⟨(Filesystem.getMailboxMessages plainHost Filesystem.inboxId noteWorld.store).2,
    Prod.ext (congrArg Prod.fst (Filesystem.getMailboxMessages_found found)) rfl⟩

theorem noteWorld_reached : Filesystem.carriesId plainHost
    (Filesystem.pickedIds plainHost noteWorld.store Filesystem.inboxId [(1, 1)]) smuggledFile = true := by
  have id : Filesystem.listedId plainHost smuggledFile = some ⟨7⟩ := listedId_smuggling _ _
  obtain ⟨listed, lists⟩ := noteWorld_lists
  have ids : Filesystem.pickedIds plainHost noteWorld.store Filesystem.inboxId [(1, 1)] = [⟨7⟩] := by
    rw [Filesystem.pickedIds, lists]
    change [(Filesystem.listedId plainHost smuggledFile).getD
      ⟨plainHost.newUuid (noteWorld.store.moment + 2)⟩] = _
    rw [id]
    rfl
  rw [ids, Filesystem.carriesId, Filesystem.storedId_of_listedId id]
  rfl

theorem noteWorld_picked : Filesystem.Picked plainHost noteWorld.store Filesystem.inboxId [(1, 1)]
    Filesystem.inboxId smuggledFile := ⟨rfl, _, 0, rfl, rfl, rfl⟩

theorem noteWorld_named (id : MailboxId) (folder : Folder)
    (found : noteWorld.store.folder id = some folder) : folder.WellNamed :=
  (storeWith_orderly _).wellNamed found

theorem uidStore_replaces_seen : Filesystem.FlagsObey plainHost noteWorld.store
    (handleUidStore plainContext "a".toList "1".toList .replace ["\\Seen".toList]
      noteWorld).2.store Filesystem.inboxId [(1, 1)] .replace ["\\SEEN".toList] := by
  obtain ⟨listed, lists⟩ := noteWorld_lists
  refine (uidStore_flags_obey_iff rfl noteWorld_named lists rfl .replace ["\\Seen".toList]).mpr ?_
  intro id folder found file member
  obtain ⟨rfl, rfl⟩ := noteWorld_folder found
  have only : file = smuggledFile := List.mem_singleton.mp member
  subst only
  refine ⟨fun _ _ name given => ?_, fun _ missed => absurd noteWorld_reached missed,
    fun passed => absurd noteWorld_picked passed⟩
  rw [List.mem_singleton.mp given]
  decide

/-- Taking a flag away sets it. -/
theorem uidStore_removes_seen : ¬Filesystem.FlagsObey plainHost noteWorld.store
    (handleUidStore plainContext "a".toList "1".toList .remove ["\\Seen".toList]
      noteWorld).2.store Filesystem.inboxId [(1, 1)] .remove ["\\SEEN".toList] := by
  intro obeys
  obtain ⟨listed, lists⟩ := noteWorld_lists
  have found : noteWorld.store.folder Filesystem.inboxId =
      some ⟨Filesystem.aliceInbox, [smuggledFile], []⟩ := rfl
  obtain ⟨held, there, kept, inside, _, _, law⟩ := obeys _ _ found smuggledFile List.mem_cons_self
  obtain ⟨other, again, _, files⟩ := @handleUidStore_files _ plainHost singleUser toUppercase _
    noteWorld _ "1".toList "a".toList [(1, 1)] _ _ rfl lists rfl .remove ["\\Seen".toList] _ _ found
    (noteWorld_named _ _ found)
  have same : other = held := Option.some.inj (again.symm.trans there)
  rw [same] at files
  have renamed := List.mem_singleton.mp (files.mem_iff.mp inside)
  have set : (MaildirFilename.decodeFlags kept.name).Has "\\SEEN".toList := by
    rw [renamed, Filesystem.decodeFlags_flaggedFile, if_pos noteWorld_reached,
      has_system_buildMessageFlags]
    decide
  rcases (law _).mp set with ⟨_, wanted⟩ | ⟨passed, _⟩
  · exact wanted.2 (List.mem_singleton.mpr rfl)
  · exact passed noteWorld_picked

end Rusmes
