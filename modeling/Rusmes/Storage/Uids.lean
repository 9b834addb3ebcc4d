import Rusmes.Library.Machine
import Rusmes.Storage.Runs

/-!
Message numbers. An append reports the number of the delivery, a listing reports
the position in the directory scan; the two agree only for the first delivery of
a process into a mailbox that never had one.
-/

namespace Rusmes

open WireText

def MailFile.uid (file : MailFile) : UInt32 := UInt32.ofNat file.delivery.counter

namespace Filesystem

variable {host : Host}

def issued (store : Filesystem) (id : MailboxId) : List UInt32 :=
  (store.history.filter (·.1 = id)).map Prod.snd

/-- Whoever lists a mailbox, and in whatever order the directories are read, the
uids are those returned at delivery, they ascend, and none was returned twice. -/
structure Permanent (store : Filesystem) : Prop where
  reported : ∀ (reader : Host) id folder, store.folder id = some folder →
    ∃ entries, (getMailboxMessages reader id store).1 = .ok entries ∧
      entries.map (·.uid) = (folderWalk reader store.moment folder).map MailFile.uid ∧
      (entries.map (·.uid)).Pairwise (· < ·)
  unique : ∀ id, (store.issued id).Nodup

def FirstDelivery (store : Filesystem) (id : MailboxId) (message : Mail) : Prop :=
  ∀ folder, store.folder id = some folder →
    store.admits folder.mailbox.path.user message.size →
    UInt32.ofNat (store.deliveryCounter + 1) = 1 ∧ store.issued id = []

def CopyFirst (host : Host) (dest : MailboxId) : List MessageId → Filesystem → Prop
  | [], _ => True
  | id :: ids, store =>
      match store.messages.lookup id with
      | none => CopyFirst host dest ids store
      | some message =>
          store.FirstDelivery dest message ∧
            ((appendMessage host dest message store).1.isOk →
              CopyFirst host dest ids (appendMessage host dest message store).2)

/-- Every delivery the operation makes is the first of the process and the first
into its mailbox. -/
def DeliversFirst (host : Host) (store : Filesystem) : Operation → Prop
  | .append id message => store.FirstDelivery id message
  | .copy ids dest => CopyFirst host dest ids store
  | _ => True

structure Solitary (store : Filesystem) : Prop where
  issued : ∀ id, store.issued id = [] ∨ store.issued id = [1]
  held : ∀ id folder, store.folder id = some folder →
    folder.files = [] ∨ ∃ file, folder.files = [file] ∧ file.uid = 1 ∧ store.issued id = [1]

theorem Solitary.permanent {store : Filesystem} (solitary : store.Solitary) :
    store.Permanent where
  reported reader id folder found := by
    have walked := folderWalk_perm reader store.moment folder
    rw [getMailboxMessages_found found]
    refine ⟨_, rfl, ?_⟩
    rcases solitary.held id folder found with empty | ⟨file, one, first, -⟩
    · rw [empty, List.perm_nil] at walked
      rw [walked]
      exact ⟨rfl, List.Pairwise.nil⟩
    · rw [one, List.perm_singleton] at walked
      rw [walked]
      refine ⟨?_, List.pairwise_singleton _ _⟩
      rw [List.map_singleton, first]
      rfl
  unique id := by
    rcases solitary.issued id with none | one
    · rw [none]
      exact List.nodup_nil
    · rw [one]
      exact List.nodup_singleton 1

theorem issued_appended (id : MailboxId) (message : Mail) (user : Username) (store : Filesystem)
    (other : MailboxId) :
    (appended host id message user store).issued other =
      if other = id then store.issued other ++ [UInt32.ofNat (store.deliveryCounter + 1)]
      else store.issued other := by
  simp only [issued, appended, List.filter_append, List.map_append]
  by_cases same : other = id
  · simp [same]
  · simp [same, Ne.symm same]

theorem appended_solitary {id : MailboxId} {message : Mail} {store : Filesystem} {folder : Folder}
    (found : store.folder id = some folder) (solitary : store.Solitary)
    (first : UInt32.ofNat (store.deliveryCounter + 1) = 1) (never : store.issued id = [])
    (user : Username) : (appended host id message user store).Solitary where
  issued other := by
    rw [issued_appended]
    split
    · rename_i same
      rw [same, never, first]
      exact Or.inr rfl
    · exact solitary.issued other
  held other held present := by
    rw [folder_appended] at present
    rw [issued_appended]
    split at present
    · rename_i same
      subst same
      rw [found, Option.map_some, Option.some.injEq] at present
      have nothing : folder.files = [] := by
        rcases solitary.held other folder found with empty | ⟨file, _, _, once⟩
        · exact empty
        · rw [never] at once
          cases once
      obtain ⟨noNew, noCur⟩ := List.append_eq_nil_iff.mp nothing
      refine Or.inr ⟨deliveredFile host store message, ?_, first, ?_⟩
      · rw [← present, Folder.files, receiveFile, noNew, noCur]
        rfl
      · rw [if_pos rfl, never, first]
        rfl
    · rename_i different
      rw [if_neg different]
      exact solitary.held other held present

/-! What goes wrong stays wrong. -/

/-- A uid was returned twice, or a new message was returned one that is not the
first. -/
def Stained (store : Filesystem) (id : MailboxId) : Prop :=
  ¬(store.issued id).Nodup ∨
    ∃ folder file, store.folder id = some folder ∧ file ∈ folder.new ∧ file.uid ≠ 1 ∧
      MaildirFilename.Numbered file.name file.delivery.counter ∧
      file.delivery.counter ≤ store.deliveryCounter

def frontHost (file : MailFile) : Host :=
  { plainHost with
    readDir := fun _ files =>
      files.filter (fun other => decide (other = file)) ++
        files.filter fun other => !decide (other = file)
    readDir_perm := fun _ files => List.filter_append_perm _ files }

theorem readDir_frontHost {file : MailFile} {files : List MailFile} (member : file ∈ files)
    (moment : Nat) : ∃ rest, (frontHost file).readDir moment files = file :: rest := by
  have inside : file ∈ files.filter fun other => decide (other = file) :=
    List.mem_filter.mpr ⟨member, by simp⟩
  cases front : files.filter fun other => decide (other = file) with
  | nil =>
      rw [front] at inside
      cases inside
  | cons first rest =>
      have same : first = file := by
        have kept : first ∈ files.filter fun other => decide (other = file) := by simp [front]
        simpa using (List.mem_filter.mp kept).2
      refine ⟨rest ++ files.filter fun other => !decide (other = file), ?_⟩
      change files.filter _ ++ _ = _
      rw [front, same, List.cons_append]

theorem Stained.not_permanent {store : Filesystem} {id : MailboxId} (stained : store.Stained id) :
    ¬store.Permanent := by
  intro permanent
  rcases stained with twice | ⟨folder, file, found, member, later, -⟩
  · exact twice (permanent.unique id)
  · obtain ⟨entries, listed, uids, -⟩ := permanent.reported (frontHost file) id folder found
    obtain ⟨rest, front⟩ := readDir_frontHost member store.moment
    rw [getMailboxMessages_found found, Except.ok.injEq] at listed
    rw [← listed, folderWalk, front, List.cons_append, listEntries, List.map_cons, List.map_cons,
      List.cons.injEq] at uids
    exact later uids.1.symm

theorem appended_stained {id dest : MailboxId} {message : Mail} {user : Username}
    {store : Filesystem} (stained : store.Stained id) :
    (appended host dest message user store).Stained id := by
  rcases stained with twice | ⟨folder, file, found, member, later, named, bound⟩
  · left
    rw [issued_appended]
    split
    · intro nodup
      exact twice nodup.of_append_left
    · exact twice
  · right
    have counter : (appended host dest message user store).deliveryCounter =
        store.deliveryCounter + 1 := rfl
    by_cases same : id = dest
    · refine ⟨receiveFile (deliveredFile host store message) folder, file, ?_, ?_, later, named, ?_⟩
      · rw [folder_appended, if_pos same, found]
        rfl
      · have different : file.name ≠ (deliveredFile host store message).name := by
          intro clash
          rw [clash] at named
          have equal := named.unique (MaildirFilename.numbered_generate _ _ _ _)
          omega
        apply List.mem_append_left
        rw [List.mem_filter]
        exact ⟨member, by simpa using different⟩
      · omega
    · refine ⟨folder, file, ?_, member, later, named, ?_⟩
      · rw [folder_appended, if_neg same]
        exact found
      · omega

theorem appendMessage_stained {id dest : MailboxId} {store : Filesystem} (message : Mail)
    (stained : store.Stained id) : (appendMessage host dest message store).2.Stained id := by
  rcases appendMessage_cases host dest message store with ⟨error, _, ran⟩ | ⟨folder, _, _, ran⟩
  · rw [ran]
    exact stained
  · rw [ran]
    exact appended_stained stained

theorem append_stains (host : Host) {id : MailboxId} {message : Mail} {store : Filesystem}
    (solitary : store.Solitary) (late : ¬store.FirstDelivery id message) :
    (appendMessage host id message store).2.Stained id := by
  rcases appendMessage_cases host id message store with
    ⟨error, refused, ran⟩ | ⟨folder, found, admitted, ran⟩
  · refine absurd ?_ late
    intro folder found admitted
    exact absurd admitted (refused folder found)
  · rw [ran]
    by_cases first : UInt32.ofNat (store.deliveryCounter + 1) = 1
    · left
      rw [issued_appended, if_pos rfl, first]
      rcases solitary.issued id with none | one
      · refine absurd ?_ late
        intro _ _ _
        exact ⟨first, none⟩
      · rw [one]
        decide
    · right
      refine ⟨receiveFile (deliveredFile host store message) folder,
        deliveredFile host store message, ?_, ?_, first, ?_, Nat.le_refl _⟩
      · rw [folder_appended, if_pos rfl, found]
        rfl
      · exact List.mem_append_right _ (List.mem_singleton_self _)
      · exact MaildirFilename.numbered_generate _ _ _ _

theorem append_solitary {id : MailboxId} {message : Mail} {store : Filesystem}
    (solitary : store.Solitary) (first : store.FirstDelivery id message) :
    (appendMessage host id message store).2.Solitary := by
  rcases appendMessage_cases host id message store with
    ⟨error, _, ran⟩ | ⟨folder, found, admitted, ran⟩
  · rw [ran]
    exact solitary
  · rw [ran]
    have both := first folder found admitted
    exact appended_solitary found solitary both.1 both.2 _

theorem copy_solitary {dest : MailboxId} {ids : List MessageId} {store : Filesystem}
    (solitary : store.Solitary) (first : CopyFirst host dest ids store) :
    (copyMessages host dest ids store).2.Solitary := by
  induction ids generalizing store with
  | nil => exact solitary
  | cons id ids ih =>
      rw [CopyFirst] at first
      rw [copyMessages_cons]
      cases cached : store.messages.lookup id with
      | none =>
          rw [cached] at first
          exact ih solitary first
      | some message =>
          rw [cached] at first
          have next : (appendMessage host dest message store).2.Solitary :=
            append_solitary solitary first.1
          dsimp only
          split
          · rename_i succeeded
            exact ih next (first.2 succeeded)
          · exact next

theorem copy_stains {dest : MailboxId} {ids : List MessageId} {store : Filesystem}
    (solitary : store.Solitary) (late : ¬CopyFirst host dest ids store) :
    (copyMessages host dest ids store).2.Stained dest := by
  induction ids generalizing store with
  | nil => exact absurd trivial late
  | cons id ids ih =>
      rw [CopyFirst] at late
      rw [copyMessages_cons]
      cases cached : store.messages.lookup id with
      | none =>
          rw [cached] at late
          exact ih solitary late
      | some message =>
          rw [cached] at late
          dsimp only
          by_cases first : store.FirstDelivery dest message
          · have next : (appendMessage host dest message store).2.Solitary :=
              append_solitary solitary first
            rw [not_and, Classical.not_imp] at late
            obtain ⟨succeeded, rest⟩ := late first
            rw [if_pos succeeded]
            exact ih next rest
          · have stained := append_stains host solitary first
            split
            · exact copyMessages_keeps (Stained · dest)
                (fun _ message held => appendMessage_stained message held) ids stained
            · exact stained

theorem perform_solitary {store : Filesystem} {operation : Operation} (solitary : store.Solitary)
    (first : DeliversFirst host store operation) : (perform host store operation).Solitary := by
  cases operation with
  | append id message => exact append_solitary solitary first
  | copy ids dest => exact copy_solitary solitary first
  | setFlags ids flags =>
      refine ⟨solitary.issued, ?_⟩
      intro id folder present
      rw [perform, folder_setFlags] at present
      obtain ⟨source, inside, rfl⟩ := Option.map_eq_some_iff.mp present
      rcases solitary.held id source inside with empty | ⟨file, one, uid, once⟩
      · have named : source.WellNamed := by
          rw [Folder.WellNamed, empty]
          exact List.nodup_nil
        have moved := flagFolder_files host ids flags store.moment named
        rw [empty, List.map_nil, List.perm_nil] at moved
        exact Or.inl moved
      · have named : source.WellNamed := by
          rw [Folder.WellNamed, one]
          exact List.nodup_singleton _
        have moved := flagFolder_files host ids flags store.moment named
        rw [one, List.map_singleton, List.perm_singleton] at moved
        refine Or.inr ⟨_, moved, ?_, once⟩
        rw [MailFile.uid, flaggedFile_delivery]
        exact uid
  | delete ids =>
      refine ⟨solitary.issued, ?_⟩
      intro id folder present
      rw [perform, folder_deleteMessages] at present
      obtain ⟨source, inside, rfl⟩ := Option.map_eq_some_iff.mp present
      rw [expungeFolder_files]
      rcases solitary.held id source inside with empty | ⟨file, one, uid, once⟩
      · rw [empty]
        exact Or.inl rfl
      · rw [one, List.filter_singleton]
        cases carriesId host ids file with
        | false => exact Or.inr ⟨file, rfl, uid, once⟩
        | true => exact Or.inl rfl
  | list id =>
      obtain ⟨messages, moment, ran⟩ := getMailboxMessages_disk host id store
      rw [perform, ran]
      exact ⟨solitary.issued, solitary.held⟩
  | deleteMailbox id =>
      rcases deleteMailbox_cases id store with ⟨_, ran⟩ | ⟨_, _, ran⟩
      · rw [perform, ran]
        exact solitary
      · rw [perform, ran]
        refine ⟨solitary.issued, ?_⟩
        intro other held present
        rw [folder_erase] at present
        split at present
        · cases present
        · exact solitary.held other held present
  | restart => exact ⟨solitary.issued, solitary.held⟩

theorem perform_permanent_iff {store : Filesystem} {operation : Operation}
    (solitary : store.Solitary) :
    (perform host store operation).Permanent ↔ DeliversFirst host store operation := by
  constructor
  · intro permanent
    by_contra late
    cases operation with
    | append id message => exact (append_stains host solitary late).not_permanent permanent
    | copy ids dest => exact (copy_stains solitary late).not_permanent permanent
    | setFlags | delete | list | deleteMailbox | restart => exact late trivial
  · intro first
    exact (perform_solitary solitary first).permanent

/-- Over a whole run on a store nothing was delivered to yet, uids are permanent
throughout if and only if every delivery is the first of its process and the first
into its mailbox. -/
theorem uids_permanent_iff_deliversFirst (host : Host) {store : Filesystem}
    (empty : ∀ id folder, store.folder id = some folder → folder.files = [])
    (undelivered : store.history = []) (operations : List Operation) :
    (∀ done, done <+: operations → (performAll host store done).Permanent) ↔
      ∀ done operation later, operations = done ++ operation :: later →
        DeliversFirst host (performAll host store done) operation := by
  have solitary : store.Solitary := by
    refine ⟨?_, ?_⟩
    · intro id
      left
      rw [issued, undelivered]
      rfl
    · intro id folder found
      exact Or.inl (empty id folder found)
  apply Machine.foldl_good_iff (fun _ => True) Solitary
  · intro reached operation _ kept _ permanent
    exact perform_solitary kept ((perform_permanent_iff kept).mp permanent)
  · intro reached operation _ kept _
    exact perform_permanent_iff kept
  · intro _ _
    trivial
  · exact solitary
  · exact solitary.permanent

theorem uid_permanent_after_append :
    (∀ id folder, freshStore.folder id = some folder → folder.files = []) ∧
    ∀ done, done <+: [.append inboxId (noteFromAlice []), .restart] →
      (performAll plainHost freshStore done).Permanent := by
  refine ⟨fun _ _ => freshStore_files, ?_⟩
  apply (uids_permanent_iff_deliversFirst plainHost (fun _ _ => freshStore_files) rfl _).mpr
  intro done operation later split
  cases done with
  | nil =>
      rw [List.nil_append, List.cons.injEq] at split
      rw [← split.1]
      intro _ _ _
      exact ⟨rfl, rfl⟩
  | cons first done =>
      rw [List.cons_append, List.cons.injEq] at split
      have last : operation = .restart := by
        cases done with
        | nil => exact (List.cons.inj split.2).1.symm
        | cons second done => simp at split
      rw [last]
      trivial

/-- The second message of a mailbox was returned uid 2 and is listed with uid 1 by
a reader that meets it first. -/
theorem second_append_not_permanent :
    ¬(performAll plainHost freshStore
      [.append inboxId (noteFromAlice []), .append inboxId (noteFromAlice [])]).Permanent := by
  have stained : (performAll plainHost freshStore
      [.append inboxId (noteFromAlice []), .append inboxId (noteFromAlice [])]).Stained inboxId := by
    right
    refine ⟨_, deliveredFile plainHost (appended plainHost inboxId (noteFromAlice []) aliceUser
      freshStore) (noteFromAlice []), rfl, ?_, ?_, ?_, ?_⟩
    · exact List.mem_append_right _ (List.mem_singleton_self _)
    · decide
    · exact MaildirFilename.numbered_generate _ _ _ _
    · decide
  exact stained.not_permanent

end Filesystem

end Rusmes
