import Rusmes.Library.Machine
import Rusmes.Storage.Runs

/-!
Appends and copies that run at the same time. Each lock section of a call is one
step; a scheduler picks which call takes the next. The quota is read in one
section and charged in a later one, so a call reserves nothing for what it is
about to add.
-/

namespace Rusmes

open WireText

namespace Filesystem

/-- Where an `append_message` call stands: the section it enters next. From `write`
on it holds the lock of its mailbox. -/
inductive Stage
  | lookup
  | check (user : Username)
  | count (user : Username)
  | lock (user : Username) (counter : Nat)
  | write (user : Username) (counter : Nat)
  | remember (user : Username)
  | charge (user : Username)
  | unlock
  deriving DecidableEq

structure Job where
  mailbox : MailboxId
  message : Mail
  stage : Stage

def Stage.holdsLock : Stage → Bool
  | .write _ _ | .remember _ | .charge _ | .unlock => true
  | _ => false

def Job.section (host : Host) (job : Job) : Program (Option Stage) :=
  match job.stage with
  | .lookup => do
      let mailbox ← lookupMailbox job.mailbox
      return some (.check mailbox.path.user)
  | .check user => do
      checkQuota user job.message.size
      return some (.count user)
  | .count user => do
      let counter ← nextCounter
      return some (.lock user counter)
  | .lock user counter => return some (.write user counter)
  | .write user counter => do
      deliver host job.mailbox counter job.message
      return some (.remember user)
  | .remember user => do
      cacheMessage { job.message with message.body := job.message.message.body.drained }
      return some (.charge user)
  | .charge user => do
      Filesystem.charge user job.message.size
      return some .unlock
  | .unlock => return none

/-- A call in progress: the append it is in, if any, and the identifiers a copy has
still to go through. -/
structure Call where
  dest : MailboxId
  job : Option Job
  waiting : List MessageId

def Call.append (id : MailboxId) (message : Mail) : Call := ⟨id, some ⟨id, message, .lookup⟩, []⟩

def Call.copy (ids : List MessageId) (dest : MailboxId) : Call := ⟨dest, none, ids⟩

def Call.failed (call : Call) : Call := { call with job := none, waiting := [] }

structure Backend where
  store : Filesystem
  calls : List Call

def Backend.locked (backend : Backend) (id : MailboxId) : Bool :=
  backend.calls.any fun call => call.job.any fun job => job.mailbox = id && job.stage.holdsLock

def Backend.replace (backend : Backend) (index : Nat) (call : Call) (store : Filesystem) :
    Backend := ⟨store, backend.calls.set index call⟩

/-- The call takes its next section; one that waits for a lock or has returned does
nothing. -/
def Backend.advance (host : Host) (backend : Backend) (index : Nat) (call : Call) : Backend :=
  match call.job with
  | none =>
      match call.waiting with
      | [] => backend
      | id :: ids =>
          match backend.store.messages.lookup id with
          | none => backend.replace index { call with waiting := ids } backend.store
          | some message =>
              backend.replace index
                { call with job := some ⟨call.dest, message, .lookup⟩, waiting := ids }
                backend.store
  | some job =>
      match job.stage with
      | .lock user counter =>
          if backend.locked job.mailbox then backend
          else
            backend.replace index
              { call with job := some { job with stage := .write user counter } } backend.store
      | _ =>
          match job.section host backend.store with
          | (.error _, store) => backend.replace index call.failed store
          | (.ok none, store) => backend.replace index { call with job := none } store
          | (.ok (some stage), store) =>
              backend.replace index { call with job := some { job with stage } } store

/-- What the scheduler decides: a new call, the next section of a call, or a file
error in a call that is about to lock or to write. -/
inductive Event
  | append (id : MailboxId) (message : Mail)
  | copy (ids : List MessageId) (dest : MailboxId)
  | advance (index : Nat)
  | abort (index : Nat)

def Backend.step (host : Host) (backend : Backend) : Event → Backend
  | .append id message => ⟨backend.store, backend.calls ++ [Call.append id message]⟩
  | .copy ids dest => ⟨backend.store, backend.calls ++ [Call.copy ids dest]⟩
  | .advance index =>
      match backend.calls[index]? with
      | none => backend
      | some call => backend.advance host index call
  | .abort index =>
      match backend.calls[index]? with
      | none => backend
      | some call =>
          match call.job.map Job.stage with
          | some (.lock _ _) | some (.write _ _) => backend.replace index call.failed backend.store
          | _ => backend

def Backend.run (host : Host) (start : Backend) (events : List Event) : Backend :=
  events.foldl (Backend.step host) start

variable {host : Host}

theorem section_missing {job : Job} {store : Filesystem} (stage : job.stage = .lookup)
    (missing : store.folder job.mailbox = none) :
    job.section host store = (.error "Mailbox not found".toList, store) := by
  simp only [Job.section, stage]
  exact Effect.bind_error (lookupMailbox_missing missing)

theorem section_found {job : Job} {store : Filesystem} {folder : Folder}
    (stage : job.stage = .lookup) (found : store.folder job.mailbox = some folder) :
    job.section host store = (.ok (some (.check folder.mailbox.path.user)), store) := by
  simp only [Job.section, stage]
  rw [Effect.bind_ok (lookupMailbox_found found)]
  rfl

theorem section_refused {job : Job} {store : Filesystem} {user : Username}
    (stage : job.stage = .check user) (refused : ¬store.admits user job.message.size) :
    job.section host store = (.error "Quota exceeded: cannot append message".toList, store) := by
  simp only [Job.section, stage]
  exact Effect.bind_error (checkQuota_refused refused)

theorem section_admitted {job : Job} {store : Filesystem} {user : Username}
    (stage : job.stage = .check user) (admitted : store.admits user job.message.size) :
    job.section host store = (.ok (some (.count user)), store) := by
  simp only [Job.section, stage]
  rw [Effect.bind_ok (checkQuota_admitted admitted)]
  rfl

theorem section_counted {job : Job} {store : Filesystem} {user : Username}
    (stage : job.stage = .count user) :
    job.section host store =
      (.ok (some (.lock user (store.deliveryCounter + 1))), (nextCounter store).2) := by
  simp only [Job.section, stage]
  rfl

theorem section_written {job : Job} {store : Filesystem} {user : Username} {counter : Nat}
    (stage : job.stage = .write user counter) :
    job.section host store = (.ok (some (.remember user)),
      (deliver host job.mailbox counter job.message store).2) := by
  simp only [Job.section, stage]
  rfl

theorem section_remembered {job : Job} {store : Filesystem} {user : Username}
    (stage : job.stage = .remember user) :
    job.section host store = (.ok (some (.charge user)),
      (cacheMessage { job.message with message.body := job.message.message.body.drained }
        store).2) := by
  simp only [Job.section, stage]
  rfl

theorem section_charged {job : Job} {store : Filesystem} {user : Username}
    (stage : job.stage = .charge user) :
    job.section host store =
      (.ok (some .unlock), (Filesystem.charge user job.message.size store).2) := by
  simp only [Job.section, stage]
  rfl

theorem section_unlocked {job : Job} {store : Filesystem} (stage : job.stage = .unlock) :
    job.section host store = (.ok none, store) := by
  simp only [Job.section, stage]
  rfl

def Job.finish (host : Host) : Nat → Job → Program Unit
  | 0, _ => Effect.fail []
  | fuel + 1, job => do
      match ← job.section host with
      | none => return ()
      | some stage => Job.finish host fuel { job with stage }

theorem finish_eq_appendMessage (id : MailboxId) (message : Mail) (store : Filesystem) :
    Job.finish host 8 ⟨id, message, .lookup⟩ store =
      ((appendMessage host id message store).1.map fun _ => (),
        (appendMessage host id message store).2) := by
  rw [Job.finish]
  cases found : store.folder id with
  | none =>
      rw [appendMessage_missing found]
      exact Effect.bind_error (section_missing rfl found)
  | some folder =>
      have looked : Job.section host ⟨id, message, .lookup⟩ store =
          (.ok (some (.check folder.mailbox.path.user)), store) := section_found rfl found
      rw [Effect.bind_ok looked]
      by_cases admitted : store.admits folder.mailbox.path.user message.size
      · have checked : Job.section host ⟨id, message, .check folder.mailbox.path.user⟩ store =
            (.ok (some (.count folder.mailbox.path.user)), store) := section_admitted rfl admitted
        rw [appendMessage_accepted found admitted]
        exact (Effect.bind_ok checked).trans rfl
      · rw [appendMessage_refused found admitted]
        exact Effect.bind_error (section_refused rfl admitted)

/-! What is checked and not yet charged. -/

def Job.owed (user : Username) (job : Job) : Nat :=
  match job.stage with
  | .count owner | .lock owner _ | .write owner _ | .remember owner | .charge owner =>
      if owner = user then job.message.size else 0
  | _ => 0

def Call.owed (user : Username) (call : Call) : Nat := (call.job.map (Job.owed user)).getD 0

def Backend.pending (backend : Backend) (user : Username) : Nat :=
  (backend.calls.map (Call.owed user)).sum

def Backend.Room (backend : Backend) : Prop :=
  ∀ user, (backend.store.quotaOf user).used.toNat + backend.pending user ≤
    (backend.store.quotaOf user).limit.toNat

/-- A check that passes also leaves room for the calls that passed theirs before. -/
def Backend.Roomy (backend : Backend) : Event → Prop
  | .advance index => ∀ call job user, backend.calls[index]? = some call →
      call.job = some job → job.stage = .check user →
      backend.store.admits user job.message.size →
      (backend.store.quotaOf user).used.toNat + backend.pending user + job.message.size ≤
        (backend.store.quotaOf user).limit.toNat
  | _ => True

theorem sum_map_set {Item : Type} (weight : Item → Nat) {items : List Item} {index : Nat}
    {old : Item} (found : items[index]? = some old) (new : Item) :
    ((items.set index new).map weight).sum + weight old =
      (items.map weight).sum + weight new := by
  induction items generalizing index with
  | nil => cases found
  | cons first items ih =>
      cases index with
      | zero =>
          simp only [List.getElem?_cons_zero, Option.some.injEq] at found
          subst found
          simp only [List.set_cons_zero, List.map_cons, List.sum_cons]
          omega
      | succ index =>
          simp only [List.getElem?_cons_succ] at found
          have rest := ih found
          simp only [List.set_cons_succ, List.map_cons, List.sum_cons]
          omega

theorem pending_replace {backend : Backend} {index : Nat} {old : Call}
    (found : backend.calls[index]? = some old) (new : Call) (store : Filesystem)
    (user : Username) :
    (backend.replace index new store).pending user + old.owed user =
      backend.pending user + new.owed user :=
  sum_map_set (Call.owed user) found new

theorem room_replace {backend : Backend} {index : Nat} {old new : Call} {store : Filesystem}
    (room : backend.Room) (found : backend.calls[index]? = some old)
    (quotas : store.quotas = backend.store.quotas)
    (less : ∀ user, new.owed user ≤ old.owed user) :
    (backend.replace index new store).Room := by
  intro user
  have before := room user
  have change := pending_replace found new store user
  have within := less user
  have same : store.quotaOf user = backend.store.quotaOf user := by
    rw [quotaOf, quotas, quotaOf]
  have after : (backend.replace index new store).store = store := rfl
  rw [after, same]
  omega

theorem room_check {backend : Backend} {index : Nat} {call : Call} {job : Job} {user : Username}
    (room : backend.Room) (roomy : backend.Roomy (.advance index))
    (found : backend.calls[index]? = some call) (running : call.job = some job)
    (stage : job.stage = .check user)
    (admitted : backend.store.admits user job.message.size) :
    (backend.replace index { call with job := some { job with stage := .count user } }
      backend.store).Room := by
  intro other
  have fits := roomy call job user found running stage admitted
  have before := room other
  have change := pending_replace found
    { call with job := some { job with stage := .count user } } backend.store other
  have idle : call.owed other = 0 := by
    simp [Call.owed, running, Job.owed, stage]
  have owes : ({ call with job := some { job with stage := .count user } } : Call).owed other =
      if user = other then job.message.size else 0 := rfl
  rw [idle, owes] at change
  have after : (backend.replace index { call with job := some { job with stage := .count user } }
    backend.store).store = backend.store := rfl
  rw [after]
  by_cases same : user = other
  · subst same
    rw [if_pos rfl] at change
    omega
  · rw [if_neg same] at change
    omega

theorem room_charge {backend : Backend} {index : Nat} {call : Call} {job : Job} {user : Username}
    {store : Filesystem} (room : backend.Room) (found : backend.calls[index]? = some call)
    (running : call.job = some job) (stage : job.stage = .charge user)
    (charged : store = (Filesystem.charge user job.message.size backend.store).2) :
    (backend.replace index { call with job := some { job with stage := .unlock } } store).Room := by
  intro other
  have owner := room user
  have before := room other
  have change := pending_replace found
    { call with job := some { job with stage := .unlock } } store other
  have owed : ∀ who, call.owed who = if user = who then job.message.size else 0 := by
    intro who
    simp [Call.owed, running, Job.owed, stage]
  have paid : ({ call with job := some { job with stage := .unlock } } : Call).owed other = 0 := rfl
  rw [owed, paid] at change
  have after : (backend.replace index { call with job := some { job with stage := .unlock } }
    store).store = store := rfl
  rw [after]
  have quota : store.quotaOf other = if other = user then
      { backend.store.quotaOf user with
        used := (backend.store.quotaOf user).used + UInt64.ofNat job.message.size }
      else backend.store.quotaOf other := by
    rw [charged]
    by_cases same : other = user
    · subst same
      rw [if_pos rfl, quotaOf]
      exact congrArg (Option.getD · _) (AList.lookup_insert _)
    · rw [if_neg same, quotaOf]
      exact congrArg (Option.getD · _) (AList.lookup_insert_ne same)
  by_cases same : other = user
  · subst same
    rw [if_pos rfl] at change quota
    rw [quota]
    have limit := UInt64.toNat_lt_size (backend.store.quotaOf other).limit
    have size : job.message.size < UInt64.size := by omega
    have sum : ((backend.store.quotaOf other).used + UInt64.ofNat job.message.size).toNat =
        (backend.store.quotaOf other).used.toNat + job.message.size := by
      simp only [UInt64.toNat_add, UInt64.toNat_ofNat']
      rw [Nat.mod_eq_of_lt size]
      exact Nat.mod_eq_of_lt (show _ < UInt64.size by omega)
    rw [sum]
    dsimp only
    omega
  · rw [if_neg (Ne.symm same)] at change
    rw [quota, if_neg same]
    omega

theorem room_advance {backend : Backend} {index : Nat} {call : Call} (room : backend.Room)
    (roomy : backend.Roomy (.advance index)) (found : backend.calls[index]? = some call) :
    (backend.advance host index call).Room := by
  rw [Backend.advance]
  cases running : call.job with
  | none =>
      dsimp only
      cases call.waiting with
      | nil => exact room
      | cons id ids =>
          dsimp only
          cases backend.store.messages.lookup id with
          | none =>
              apply room_replace room found rfl
              intro user
              simp [Call.owed, running]
          | some message =>
              apply room_replace room found rfl
              intro user
              simp [Call.owed, Job.owed]
  | some job =>
      have failed : ∀ user, call.failed.owed user ≤ call.owed user := by
        intro user
        exact Nat.zero_le _
      dsimp only
      cases stage : job.stage with
      | lookup =>
          dsimp only
          cases present : backend.store.folder job.mailbox with
          | none =>
              rw [section_missing stage present]
              exact room_replace room found rfl failed
          | some folder =>
              rw [section_found stage present]
              apply room_replace room found rfl
              intro user
              exact Nat.zero_le _
      | check user =>
          dsimp only
          by_cases admitted : backend.store.admits user job.message.size
          · rw [section_admitted stage admitted]
            exact room_check room roomy found running stage admitted
          · rw [section_refused stage admitted]
            exact room_replace room found rfl failed
      | lock user counter =>
          dsimp only
          split
          · exact room
          · apply room_replace room found rfl
            intro other
            simp [Call.owed, Job.owed, running, stage]
      | charge user =>
          dsimp only
          rw [section_charged stage]
          exact room_charge room found running stage rfl
      | unlock =>
          dsimp only
          rw [section_unlocked stage]
          apply room_replace room found rfl
          intro other
          exact Nat.zero_le _
      | count user =>
          dsimp only
          rw [section_counted stage]
          apply room_replace room found rfl
          intro other
          simp [Call.owed, Job.owed, running, stage]
      | write user counter =>
          dsimp only
          rw [section_written stage]
          apply room_replace room found rfl
          intro other
          simp [Call.owed, Job.owed, running, stage]
      | remember user =>
          dsimp only
          rw [section_remembered stage]
          apply room_replace room found rfl
          intro other
          simp [Call.owed, Job.owed, running, stage]

theorem room_start {backend : Backend} {call : Call} (room : backend.Room)
    (idle : ∀ user, call.owed user = 0) :
    (⟨backend.store, backend.calls ++ [call]⟩ : Backend).Room := by
  intro user
  have before := room user
  have same : (⟨backend.store, backend.calls ++ [call]⟩ : Backend).pending user =
      backend.pending user := by
    simp [Backend.pending, idle user]
  rw [same]
  exact before

theorem room_step {backend : Backend} {event : Event} (roomy : backend.Roomy event)
    (room : backend.Room) : (backend.step host event).Room := by
  cases event with
  | append id message => exact room_start room fun _ => rfl
  | copy ids dest => exact room_start room fun _ => rfl
  | advance index =>
      rw [Backend.step]
      cases found : backend.calls[index]? with
      | none => exact room
      | some call => exact room_advance room roomy found
  | abort index =>
      rw [Backend.step]
      cases found : backend.calls[index]? with
      | none => exact room
      | some call =>
          dsimp only
          split
          · exact room_replace room found rfl fun _ => Nat.zero_le _
          · exact room_replace room found rfl fun _ => Nat.zero_le _
          · exact room

/-- In every interleaving whose checks leave room for the deliveries under way, no
user's recorded usage ever exceeds the limit. -/
theorem usage_within_limit (host : Host) {start : Backend} (idle : start.calls = [])
    (within : ∀ user, (start.store.quotaOf user).used ≤ (start.store.quotaOf user).limit)
    {events : List Event}
    (roomy : ∀ done event later, events = done ++ event :: later →
      (start.run host done).Roomy event)
    {done : List Event} (part : done <+: events) (user : Username) :
    ((start.run host done).store.quotaOf user).used ≤
      ((start.run host done).store.quotaOf user).limit := by
  have initially : start.Room := by
    intro other
    have bound := UInt64.le_iff_toNat_le.mp (within other)
    rw [Backend.pending, idle, List.map_nil, List.sum_nil]
    omega
  have room : (start.run host done).Room :=
    Machine.foldl_keeps Backend.Room (fun _ _ => room_step) roomy initially part
  have owner := room user
  rw [UInt64.le_iff_toNat_le]
  omega

def smallQuota : Backend :=
  ⟨{ freshStore with quotas := AList.insert aliceUser ⟨0, 3⟩ ∅ }, []⟩

theorem smallQuota_within (user : Username) :
    (smallQuota.store.quotaOf user).used ≤ (smallQuota.store.quotaOf user).limit := by
  by_cases same : user = aliceUser
  · subst same
    decide
  · have absent : smallQuota.store.quotas.lookup user = none :=
      (AList.lookup_insert_ne same).trans rfl
    rw [quotaOf, absent]
    decide

def oneAppend : List Event := [.append inboxId (noteFromAlice []), .advance 0, .advance 0]

theorem one_append_within_limit : smallQuota.calls = [] ∧
    ((smallQuota.run plainHost oneAppend).store.quotaOf aliceUser).used ≤
      ((smallQuota.run plainHost oneAppend).store.quotaOf aliceUser).limit := by
  refine ⟨rfl, usage_within_limit plainHost rfl smallQuota_within ?_ (List.prefix_refl _) _⟩
  intro done event later split
  match done, split with
  | [], split =>
      cases split
      trivial
  | [_], split =>
      cases split
      intro call job user found running stage
      cases found
      cases running
      cases stage
  | [_, _], split =>
      cases split
      intro call job user found running stage _
      cases found
      cases running
      cases stage
      decide
  | _ :: _ :: _ :: _, split => simp [oneAppend] at split

def twoAppends : List Event :=
  [.append inboxId (noteFromAlice []), .append inboxId (noteFromAlice []), .advance 0, .advance 0,
    .advance 1, .advance 1] ++ List.replicate 6 (.advance 0) ++ List.replicate 6 (.advance 1)

theorem two_appends_exceed_limit : smallQuota.calls = [] ∧
    (smallQuota.store.quotaOf aliceUser).used ≤ (smallQuota.store.quotaOf aliceUser).limit ∧
    ¬((smallQuota.run plainHost twoAppends).store.quotaOf aliceUser).used ≤
      ((smallQuota.run plainHost twoAppends).store.quotaOf aliceUser).limit := by
  refine ⟨rfl, by decide, ?_⟩
  decide

end Filesystem

end Rusmes
