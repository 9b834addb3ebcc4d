import Rusmes.Library.Machine
import Rusmes.Storage.Runs

/-!
Quota accounting over sequential runs. A user's counter grows with every delivery
and never shrinks, so it equals the sizes of the stored messages exactly as long
as nothing that counts is removed and no addition overflows.
-/

namespace Rusmes

open WireText

namespace Filesystem

variable {host : Host}

def Folder.weight (user : Username) (folder : Folder) : Nat :=
  if folder.mailbox.path.user = user then (folder.files.map (·.delivery.size)).sum else 0

def storedSize (store : Filesystem) (user : Username) : Nat :=
  Table.total (fun _ => Folder.weight user) store.folders

def Exact (store : Filesystem) : Prop :=
  ∀ user, (store.quotaOf user).used.toNat = store.storedSize user

def Fits (store : Filesystem) (id : MailboxId) (message : Mail) : Prop :=
  ∀ folder, store.folder id = some folder →
    store.admits folder.mailbox.path.user message.size →
    (store.quotaOf folder.mailbox.path.user).used.toNat + message.size < UInt64.size

def CopyFits (host : Host) (dest : MailboxId) : List MessageId → Filesystem → Prop
  | [], _ => True
  | id :: ids, store =>
      match store.messages.lookup id with
      | none => CopyFits host dest ids store
      | some message =>
          store.Fits dest message ∧
            ((appendMessage host dest message store).1.isOk →
              CopyFits host dest ids (appendMessage host dest message store).2)

/-- The operation removes no stored message and overflows no counter. -/
def Harmless (host : Host) (store : Filesystem) : Operation → Prop
  | .append id message => store.Fits id message
  | .copy ids dest => CopyFits host dest ids store
  | .delete ids => ∀ id folder, store.folder id = some folder →
      ∀ file ∈ folder.files, carriesId host ids file = false
  | .deleteMailbox id => ∀ folder, store.folder id = some folder → folder.files = []
  | _ => True

def Sized (store : Filesystem) : Prop :=
  ∀ id folder, store.folder id = some folder → ∀ file ∈ folder.files, 0 < file.delivery.size

theorem size_lt (message : Mail) : message.size < UInt64.size := by
  rw [Mail.size, MimeMessage.size, usizeBound]
  have positive : 0 < UInt64.size := by decide
  omega

theorem size_pos (message : Mail) : 0 < message.size := by
  rw [Mail.size, MimeMessage.size, usizeBound]
  have bound : 1 < UInt64.size := by decide
  omega

theorem quotaOf_appended (id : MailboxId) (message : Mail) (user : Username) (store : Filesystem)
    (other : Username) :
    (appended host id message user store).quotaOf other =
      if other = user then
        { store.quotaOf user with
          used := (store.quotaOf user).used + UInt64.ofNat message.size }
      else store.quotaOf other := by
  simp only [quotaOf, appended]
  by_cases same : other = user
  · subst same
    rw [AList.lookup_insert, if_pos rfl]
    rfl
  · rw [AList.lookup_insert_ne same, if_neg same]

theorem used_appended (id : MailboxId) (message : Mail) (user : Username) (store : Filesystem) :
    ((appended host id message user store).quotaOf user).used.toNat =
      ((store.quotaOf user).used.toNat + message.size) % UInt64.size := by
  rw [quotaOf_appended, if_pos rfl]
  simp only [UInt64.toNat_add, UInt64.toNat_ofNat']
  rw [Nat.mod_eq_of_lt (size_lt message)]

theorem storedSize_appended {id : MailboxId} {message : Mail} {store : Filesystem} {folder : Folder}
    (orderly : store.Orderly) (found : store.folder id = some folder) (user : Username) :
    (appended host id message folder.mailbox.path.user store).storedSize user =
      store.storedSize user + if folder.mailbox.path.user = user then message.size else 0 := by
  have received := (receiveFile_numbered host message (orderly id folder found)).1
  have balance := Table.total_adjust (fun _ => Folder.weight user) found
    (receiveFile (deliveredFile host store message))
  have weight : Folder.weight user (receiveFile (deliveredFile host store message) folder) =
      Folder.weight user folder + if folder.mailbox.path.user = user then message.size else 0 := by
    have files : (receiveFile (deliveredFile host store message) folder).files =
        folder.new ++ [deliveredFile host store message] ++ folder.cur := by
      rw [Folder.files, received]
      rfl
    have owner : (receiveFile (deliveredFile host store message) folder).mailbox =
        folder.mailbox := rfl
    rw [Folder.weight, Folder.weight, files, owner, Folder.files]
    split
    · simp only [List.map_append, List.sum_append, List.map_cons, List.map_nil, List.sum_cons,
        List.sum_nil, deliveredFile]
      omega
    · rfl
  simp only [storedSize, appended]
  rw [weight] at balance
  omega

theorem exact_appended (host : Host) {id : MailboxId} (message : Mail) {store : Filesystem} {folder : Folder}
    (orderly : store.Orderly) (found : store.folder id = some folder) (exactly : store.Exact) :
    if (store.quotaOf folder.mailbox.path.user).used.toNat + message.size < UInt64.size then
      (appended host id message folder.mailbox.path.user store).Exact
    else UInt64.size ≤ (appended host id message folder.mailbox.path.user store).storedSize
      folder.mailbox.path.user := by
  have owner := exactly folder.mailbox.path.user
  split
  · rename_i fits
    intro user
    rw [storedSize_appended orderly found]
    by_cases same : user = folder.mailbox.path.user
    · rw [same, used_appended, Nat.mod_eq_of_lt fits, if_pos rfl, owner]
    · rw [quotaOf_appended, if_neg same, if_neg (Ne.symm same)]
      exact exactly user
  · rename_i overflows
    rw [storedSize_appended orderly found, if_pos rfl]
    omega

theorem exact_lt {store : Filesystem} (exactly : store.Exact) (user : Username) :
    store.storedSize user < UInt64.size := by
  rw [← exactly user]
  exact UInt64.toNat_lt_size _

theorem append_exact_iff (host : Host) (id : MailboxId) (message : Mail) {store : Filesystem}
    (orderly : store.Orderly) (exactly : store.Exact) :
    (appendMessage host id message store).2.Exact ↔ store.Fits id message := by
  rcases appendMessage_cases host id message store with
    ⟨error, refused, ran⟩ | ⟨folder, found, admitted, ran⟩
  · rw [ran]
    constructor
    · intro _ folder found admitted
      exact absurd admitted (refused folder found)
    · intro _
      exact exactly
  · rw [ran]
    have outcome := exact_appended host message orderly found exactly
    constructor
    · intro stays other same _
      rw [found, Option.some.injEq] at same
      subst same
      by_contra overflows
      rw [if_neg overflows] at outcome
      exact absurd (exact_lt stays folder.mailbox.path.user) (Nat.not_lt.mpr outcome)
    · intro fits
      rw [if_pos (fits folder found admitted)] at outcome
      exact outcome

theorem storedSize_append_le {id : MailboxId} {message : Mail} {store : Filesystem}
    (orderly : store.Orderly) (user : Username) :
    store.storedSize user ≤ (appendMessage host id message store).2.storedSize user := by
  rcases appendMessage_cases host id message store with
    ⟨error, _, ran⟩ | ⟨folder, found, _, ran⟩
  · rw [ran]
  · rw [ran, storedSize_appended orderly found]
    omega

theorem storedSize_copy_le (host : Host) (dest : MailboxId) {store : Filesystem} (ids : List MessageId)
    (orderly : store.Orderly) (user : Username) :
    store.storedSize user ≤ (copyMessages host dest ids store).2.storedSize user := by
  have grows : (copyMessages host dest ids store).2.Orderly ∧
      store.storedSize user ≤ (copyMessages host dest ids store).2.storedSize user := by
    refine copyMessages_keeps
      (fun reached => reached.Orderly ∧ store.storedSize user ≤ reached.storedSize user) ?_ ids
      ⟨orderly, Nat.le_refl _⟩
    intro reached message held
    exact ⟨appendMessage_orderly message held.1,
      Nat.le_trans held.2 (storedSize_append_le held.1 user)⟩
  exact grows.2

theorem copy_exact_iff {dest : MailboxId} {ids : List MessageId} {store : Filesystem}
    (orderly : store.Orderly) (exactly : store.Exact) :
    (copyMessages host dest ids store).2.Exact ↔ CopyFits host dest ids store := by
  induction ids generalizing store with
  | nil => exact iff_of_true exactly trivial
  | cons id ids ih =>
      rw [copyMessages_cons, CopyFits]
      cases store.messages.lookup id with
      | none => exact ih orderly exactly
      | some message =>
          have first := append_exact_iff host dest message orderly exactly
          have laterOrderly : (appendMessage host dest message store).2.Orderly :=
            appendMessage_orderly message orderly
          dsimp only
          by_cases succeeded : (appendMessage host dest message store).1.isOk = true
          · rw [if_pos succeeded]
            by_cases fits : store.Fits dest message
            · rw [ih laterOrderly (first.mpr fits)]
              exact ⟨fun rest => ⟨fits, fun _ => rest⟩, fun both => both.2 succeeded⟩
            · refine iff_of_false ?_ fun both => fits both.1
              intro stays
              apply fits
              intro folder found admitted
              by_contra overflows
              have outcome := exact_appended host message orderly found exactly
              rw [if_neg overflows] at outcome
              rw [appendMessage_accepted found admitted] at stays laterOrderly
              have grows := Nat.le_trans outcome
                (storedSize_copy_le host dest ids laterOrderly folder.mailbox.path.user)
              exact absurd (exact_lt stays folder.mailbox.path.user) (Nat.not_lt.mpr grows)
          · rw [if_neg succeeded, first]
            exact ⟨fun fits => ⟨fits, fun ok => absurd ok succeeded⟩, fun both => both.1⟩

theorem storedSize_setFlags {ids : List MessageId} {flags : MessageFlags} {store : Filesystem}
    (orderly : store.Orderly) (user : Username) :
    (Filesystem.setFlags host ids flags store).2.storedSize user = store.storedSize user := by
  rw [setFlags_eq, storedSize, Table.total_mapValues, storedSize]
  apply Table.total_congr
  rintro ⟨id, folder⟩ member
  have named := orderly.wellNamed (Table.mem_entries.mp member)
  have sizes := (flagFolder_files host ids flags store.moment named).map (·.delivery.size)
  rw [List.map_map] at sizes
  have same : (flagFolder host store.moment ids flags folder).mailbox = folder.mailbox :=
    flagFolder_mailbox host ids flags store.moment named
  simp only [Folder.weight, same, sizes.sum_eq, Function.comp_def, flaggedFile_delivery]

theorem weight_expunge (host : Host) (ids : List MessageId) (user : Username) (folder : Folder) :
    Folder.weight user folder = Folder.weight user (expungeFolder host ids folder) +
      if folder.mailbox.path.user = user then
        ((folder.files.filter (carriesId host ids)).map (·.delivery.size)).sum
      else 0 := by
  have parts := ((List.filter_append_perm (carriesId host ids) folder.files).map
    (·.delivery.size)).sum_eq
  rw [List.map_append, List.sum_append] at parts
  have owner : (expungeFolder host ids folder).mailbox = folder.mailbox := rfl
  rw [Folder.weight, Folder.weight, owner, expungeFolder_files]
  split
  · omega
  · rfl

theorem delete_exact_iff {ids : List MessageId} {store : Filesystem} (sized : store.Sized)
    (exactly : store.Exact) :
    (deleteMessages host ids store).2.Exact ↔
      ∀ id folder, store.folder id = some folder →
        ∀ file ∈ folder.files, carriesId host ids file = false := by
  have after : ∀ user, (deleteMessages host ids store).2.storedSize user =
      Table.total (fun _ folder => Folder.weight user (expungeFolder host ids folder))
        store.folders := by
    intro user
    change Table.total (fun _ => Folder.weight user)
      (Table.mapValues (fun _ => expungeFolder host ids) store.folders) = _
    rw [Table.total_mapValues]
  constructor
  · intro stays id folder found file member
    by_contra carries
    rw [Bool.not_eq_false] at carries
    have removed : 0 <
        ((folder.files.filter (carriesId host ids)).map (·.delivery.size)).sum := by
      have inside : file.delivery.size ∈
          (folder.files.filter (carriesId host ids)).map (·.delivery.size) :=
        List.mem_map_of_mem (List.mem_filter.mpr ⟨member, carries⟩)
      exact Nat.lt_of_lt_of_le (sized id folder found file member) (List.le_sum_of_mem inside)
    have less : (deleteMessages host ids store).2.storedSize folder.mailbox.path.user <
        store.storedSize folder.mailbox.path.user := by
      rw [after]
      apply Table.total_lt
      · intro entry _
        have balance := weight_expunge host ids folder.mailbox.path.user entry.2
        omega
      · refine ⟨⟨id, folder⟩, Table.mem_entries.mpr found, ?_⟩
        have balance := weight_expunge host ids folder.mailbox.path.user folder
        rw [if_pos rfl] at balance
        dsimp only
        omega
    have same := stays folder.mailbox.path.user
    have before := exactly folder.mailbox.path.user
    have used : ((deleteMessages host ids store).2.quotaOf folder.mailbox.path.user) =
        store.quotaOf folder.mailbox.path.user := rfl
    rw [used] at same
    omega
  · intro none user
    have same : (deleteMessages host ids store).2.storedSize user = store.storedSize user := by
      rw [after]
      apply Table.total_congr
      rintro ⟨id, folder⟩ member
      have kept : folder.files.filter (carriesId host ids) = [] := by
        rw [List.filter_eq_nil_iff]
        intro file inside
        simp [none id folder (Table.mem_entries.mp member) file inside]
      have balance := weight_expunge host ids user folder
      rw [kept] at balance
      simpa using balance.symm
    rw [same]
    exact exactly user

theorem deleteMailbox_exact_iff {id : MailboxId} {store : Filesystem} (sized : store.Sized)
    (exactly : store.Exact) :
    (Filesystem.deleteMailbox id store).2.Exact ↔
      ∀ folder, store.folder id = some folder → folder.files = [] := by
  rcases deleteMailbox_cases id store with ⟨missing, ran⟩ | ⟨folder, found, ran⟩
  · rw [ran]
    exact iff_of_true exactly fun folder found => by rw [missing] at found; cases found
  · rw [ran]
    have balance : ∀ user, store.storedSize user = Folder.weight user folder +
        ({ store with folders := store.folders.erase id } : Filesystem).storedSize user :=
      fun user => Table.total_erase (fun _ => Folder.weight user) found
    constructor
    · intro stays other same
      rw [found, Option.some.injEq] at same
      subst same
      have owner := balance folder.mailbox.path.user
      have before := exactly folder.mailbox.path.user
      have later : (store.quotaOf folder.mailbox.path.user).used.toNat = _ :=
        stays folder.mailbox.path.user
      have nothing : Folder.weight folder.mailbox.path.user folder = 0 := by omega
      rw [Folder.weight, if_pos rfl] at nothing
      by_contra files
      obtain ⟨file, rest, shape⟩ := List.exists_cons_of_ne_nil files
      have positive := sized id folder found file (by simp [shape])
      rw [shape, List.map_cons, List.sum_cons] at nothing
      omega
    · intro empty user
      have nothing : Folder.weight user folder = 0 := by
        rw [Folder.weight, empty folder found]
        split <;> rfl
      have before := exactly user
      have same := balance user
      have used : (({ store with folders := store.folders.erase id } : Filesystem).quotaOf user) =
          store.quotaOf user := rfl
      rw [used]
      omega

theorem append_sized {id : MailboxId} {store : Filesystem} (message : Mail)
    (orderly : store.Orderly) (sized : store.Sized) :
    (appendMessage host id message store).2.Sized := by
  rcases appendMessage_cases host id message store with ⟨error, _, ran⟩ | ⟨folder, _, _, ran⟩
  · rw [ran]
    exact sized
  · rw [ran]
    intro other held present file member
    rw [folder_appended] at present
    split at present
    · obtain ⟨source, inside, rfl⟩ := Option.map_eq_some_iff.mp present
      have received := (receiveFile_numbered host message (orderly other source inside)).1
      rw [Folder.files, received] at member
      have origin : file ∈ source.files ∨ file = deliveredFile host store message := by
        simp only [receiveFile, List.mem_append, List.mem_singleton] at member
        rw [Folder.files, List.mem_append]
        tauto
      rcases origin with old | rfl
      · exact sized other source inside file old
      · exact size_pos message
    · exact sized other held present file member

theorem perform_sized {store : Filesystem} (operation : Operation) (orderly : store.Orderly)
    (sized : store.Sized) : (perform host store operation).Sized := by
  cases operation with
  | append id message => exact append_sized message orderly sized
  | copy ids dest =>
      have both : (copyMessages host dest ids store).2.Orderly ∧
          (copyMessages host dest ids store).2.Sized := by
        refine copyMessages_keeps (fun reached => reached.Orderly ∧ reached.Sized) ?_ ids
          ⟨orderly, sized⟩
        intro reached message held
        exact ⟨appendMessage_orderly message held.1, append_sized message held.1 held.2⟩
      exact both.2
  | setFlags ids flags =>
      intro id folder present file member
      rw [perform, folder_setFlags] at present
      obtain ⟨source, inside, rfl⟩ := Option.map_eq_some_iff.mp present
      have moved := flagFolder_files host ids flags store.moment (orderly.wellNamed inside)
      obtain ⟨origin, old, rfl⟩ := List.mem_map.mp (moved.mem_iff.mp member)
      rw [flaggedFile_delivery]
      exact sized id source inside origin old
  | delete ids =>
      intro id folder present file member
      rw [perform, folder_deleteMessages] at present
      obtain ⟨source, inside, rfl⟩ := Option.map_eq_some_iff.mp present
      rw [expungeFolder_files] at member
      exact sized id source inside file (List.mem_of_mem_filter member)
  | list id =>
      obtain ⟨messages, moment, ran⟩ := getMailboxMessages_disk host id store
      rw [perform, ran]
      exact sized
  | deleteMailbox id =>
      rcases deleteMailbox_cases id store with ⟨_, ran⟩ | ⟨_, _, ran⟩
      · rw [perform, ran]
        exact sized
      · rw [perform, ran]
        intro other held present
        rw [folder_erase] at present
        split at present
        · cases present
        · exact sized other held present
  | restart => exact sized

theorem perform_exact_iff {store : Filesystem} {operation : Operation}
    (running : operation ≠ .restart) (orderly : store.Orderly) (sized : store.Sized)
    (exactly : store.Exact) :
    (perform host store operation).Exact ↔ Harmless host store operation := by
  cases operation with
  | append id message => exact append_exact_iff host id message orderly exactly
  | copy ids dest => exact copy_exact_iff orderly exactly
  | setFlags ids flags =>
      refine iff_of_true ?_ trivial
      intro user
      rw [perform, storedSize_setFlags orderly]
      exact exactly user
  | delete ids => exact delete_exact_iff sized exactly
  | list id =>
      refine iff_of_true ?_ trivial
      obtain ⟨messages, moment, ran⟩ := getMailboxMessages_disk host id store
      rw [perform, ran]
      exact exactly
  | deleteMailbox id => exact deleteMailbox_exact_iff sized exactly
  | restart => exact absurd rfl running

structure Empty (store : Filesystem) : Prop where
  files : ∀ id folder, store.folder id = some folder → folder.files = []
  used : ∀ user, (store.quotaOf user).used = 0

theorem Empty.sized {store : Filesystem} (empty : store.Empty) : store.Sized := by
  intro id folder found file member
  rw [empty.files id folder found] at member
  cases member

theorem Empty.storedSize {store : Filesystem} (empty : store.Empty) (user : Username) :
    store.storedSize user = 0 := by
  have nothing : store.storedSize user = Table.total (fun _ _ => 0) store.folders := by
    apply Table.total_congr
    rintro ⟨id, folder⟩ member
    have none := empty.files id folder (Table.mem_entries.mp member)
    simp [Folder.weight, none]
  rw [nothing]
  simp [Table.total]

theorem Empty.exactly {store : Filesystem} (empty : store.Empty) : store.Exact := by
  intro user
  rw [empty.used, empty.storedSize]
  rfl

/-- Over a whole run from an empty store the counters are exact after every
operation if and only if each operation is harmless where it is made. -/
theorem usage_exact_iff_harmless (host : Host) {store : Filesystem} (empty : store.Empty)
    {operations : List Operation} (running : .restart ∉ operations) :
    (∀ done, done <+: operations → (performAll host store done).Exact) ↔
      ∀ done operation later, operations = done ++ operation :: later →
        Harmless host (performAll host store done) operation := by
  apply Machine.foldl_good_iff (· ≠ .restart) fun reached => reached.Orderly ∧ reached.Sized
  · intro reached operation allowed kept _ _
    exact ⟨perform_orderly allowed kept.1, perform_sized operation kept.1 kept.2⟩
  · intro reached operation allowed kept exactly
    exact perform_exact_iff allowed kept.1 kept.2 exactly
  · intro operation member same
    exact running (same ▸ member)
  · exact ⟨orderly_of_empty empty.files, empty.sized⟩
  · exact empty.exactly

theorem freshStore_empty : freshStore.Empty where
  files _ _ := freshStore_files
  used _ := rfl

theorem usage_exact_after_append : freshStore.Empty ∧
    ∀ done, done <+: [.append inboxId (noteFromAlice [])] →
      (performAll plainHost freshStore done).Exact := by
  refine ⟨freshStore_empty, ?_⟩
  apply (usage_exact_iff_harmless plainHost freshStore_empty (by simp)).mpr
  intro done operation later split
  cases done with
  | nil =>
      rw [List.nil_append, List.cons.injEq] at split
      rw [← split.1]
      intro folder found _
      rw [(folder_freshStore found).2]
      decide
  | cons first done => simp at split

theorem usage_inexact_after_deleteMailbox : freshStore.Empty ∧
    ¬(performAll plainHost freshStore
      [.append inboxId (noteFromAlice []), .deleteMailbox inboxId]).Exact := by
  refine ⟨freshStore_empty, ?_⟩
  intro exactly
  have owner := exactly aliceUser
  revert owner
  decide

end Filesystem

end Rusmes
