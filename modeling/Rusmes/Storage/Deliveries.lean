import Rusmes.Storage.Interleaving

/-!
What appends and copies that run at the same time leave in the mailboxes. Each call writes under
a number of its own, so no file takes the name of another one.
-/

namespace Rusmes

open WireText

namespace Filesystem

/-- The number a call has drawn and not written under yet. -/
def Call.drawn (call : Call) : Option Nat :=
  call.job.bind fun job =>
    match job.stage with
    | .lock _ counter | .write _ counter => some counter
    | _ => none

def Backend.drawn (backend : Backend) (index : Nat) : Option Nat :=
  backend.calls[index]?.bind Call.drawn

/-- The deliveries made between the two stores, each a file at the end of its mailbox. -/
def Grown (before after : Filesystem) : Prop :=
  ∃ made, after.history = before.history ++ made ∧
    ∀ id folder, before.folder id = some folder → ∃ added : List MailFile,
      after.folder id = some { folder with new := folder.new ++ added } ∧
        added.map (fun file => UInt32.ofNat file.delivery.counter) =
          (made.filter fun delivery => delivery.1 = id).map Prod.snd

theorem Grown.refl (store : Filesystem) : Grown store store :=
  ⟨[], by simp, fun _ _ found => ⟨[], by simpa using found, rfl⟩⟩

theorem Grown.trans {first second third : Filesystem} (one : Grown first second)
    (other : Grown second third) : Grown first third := by
  obtain ⟨made, history, grows⟩ := one
  obtain ⟨more, later, grow⟩ := other
  refine ⟨made ++ more, by rw [later, history, List.append_assoc], ?_⟩
  intro id folder found
  obtain ⟨added, held, same⟩ := grows id folder found
  obtain ⟨last, holds, equal⟩ := grow id _ held
  refine ⟨added ++ last, by rw [holds, List.append_assoc], ?_⟩
  rw [List.map_append, same, equal, List.filter_append, List.map_append]

/-- The files and the numbers drawn are told apart by their numbers. -/
structure Apart (store : Filesystem) (drawn : Nat → Option Nat) : Prop where
  files : ∀ id folder, store.folder id = some folder → folder.Numbered store.deliveryCounter
  bounded : ∀ index counter, drawn index = some counter → counter ≤ store.deliveryCounter
  unwritten : ∀ index counter, drawn index = some counter → ∀ id folder,
    store.folder id = some folder → ∀ file ∈ folder.files, file.delivery.counter ≠ counter
  once : ∀ first second counter, drawn first = some counter → drawn second = some counter →
    first = second

section Steps

variable {store after : Filesystem} {drawn next : Nat → Option Nat}

/-- The files stay, and numbers are given back or are new. -/
theorem Apart.draws (apart : Apart store drawn) (folders : after.folders = store.folders)
    (grows : store.deliveryCounter ≤ after.deliveryCounter)
    (known : ∀ index counter, next index = some counter → drawn index = some counter ∨
      store.deliveryCounter < counter ∧ counter ≤ after.deliveryCounter)
    (once : ∀ first second counter, next first = some counter → next second = some counter →
      store.deliveryCounter < counter → first = second) : Apart after next := by
  have folder : ∀ id, after.folder id = store.folder id := fun id => by
    rw [Filesystem.folder, folders, Filesystem.folder]
  constructor
  · intro id found held
    rw [folder] at held
    exact (apart.files id found held).mono grows
  · intro index counter held
    rcases known index counter held with earlier | new
    · exact Nat.le_trans (apart.bounded index counter earlier) grows
    · exact new.2
  · intro index counter held id found inside file member
    rw [folder] at inside
    rcases known index counter held with earlier | new
    · exact apart.unwritten index counter earlier id found inside file member
    · have bound := (apart.files id found inside).bounded file member
      omega
  · intro first second counter one other
    by_cases new : store.deliveryCounter < counter
    · exact once first second counter one other new
    · rcases known first counter one with early | late
      · rcases known second counter other with earlier | later
        · exact apart.once first second counter early earlier
        · exact absurd later.1 new
      · exact absurd late.1 new

theorem Apart.count (apart : Apart store drawn) (folders : after.folders = store.folders)
    (counter : after.deliveryCounter = store.deliveryCounter + 1) {index : Nat}
    (draws : next index = some (store.deliveryCounter + 1))
    (others : ∀ other, other ≠ index → next other = drawn other) : Apart after next := by
  have away : ∀ other number, next other = some number → store.deliveryCounter < number →
      other = index := by
    intro other number held new
    by_contra different
    rw [others other different] at held
    exact Nat.not_le_of_lt new (apart.bounded other number held)
  refine apart.draws folders (by omega) (fun other number held => ?_) fun first second number one
    other new => (away first number one new).trans (away second number other new).symm
  by_cases here : other = index
  · rw [here, draws, Option.some.injEq] at held
    exact .inr (by omega)
  · exact .inl (others other here ▸ held)

/-- The file is put behind those of its mailbox, under a name of its own. -/
theorem Apart.deliver (host : Host) (apart : Apart store drawn) {index counter : Nat}
    {id : MailboxId} {message : Mail} (held : drawn index = some counter)
    (written : after = (Filesystem.deliver host id counter message store).2)
    (done : next index = none) (others : ∀ other, other ≠ index → next other = drawn other) :
    Apart after next ∧ Grown store after := by
  let file : MailFile :=
    { name := MaildirFilename.generate host.hostname (host.pid store.moment) counter
        (host.clock store.moment)
      data := serializeMessageToBytes message
      delivery := ⟨counter, message.size⟩ }
  have placed : ∀ folder, store.folder id = some folder →
      placeFile file folder.new = folder.new ++ [file] ∧
        ({ folder with new := placeFile file folder.new } : Folder).Numbered
          store.deliveryCounter := fun folder found =>
    place_numbered (apart.files id folder found) (apart.bounded index counter held)
      (MaildirFilename.numbered_generate _ _ _ _) (apart.unwritten index counter held id folder found)
  have counters : after.deliveryCounter = store.deliveryCounter := by rw [written]; rfl
  have history : after.history = store.history ++ [(id, UInt32.ofNat counter)] := by
    rw [written]
    rfl
  have folders : ∀ other, after.folder other = if other = id then
      (store.folder other).map fun folder => { folder with new := placeFile file folder.new }
      else store.folder other := by
    intro other
    have adjusted : after.folder other = (Table.adjust id (fun folder : Folder =>
        { folder with new := placeFile file folder.new }) store.folders).lookup other := by
      rw [written]
      rfl
    rw [adjusted, Table.lookup_adjust, Filesystem.folder]
  have known : ∀ other number, next other = some number →
      drawn other = some number ∧ number ≠ counter := by
    intro other number has
    by_cases here : other = index
    · rw [here, done] at has
      cases has
    · rw [others other here] at has
      refine ⟨has, ?_⟩
      rintro rfl
      exact here (apart.once other index number has held)
  refine ⟨⟨?_, ?_, ?_, ?_⟩, [(id, UInt32.ofNat counter)], history, ?_⟩
  · intro other folder found
    rw [counters]
    rw [folders] at found
    split at found
    · rename_i here
      obtain ⟨before, there, rfl⟩ := Option.map_eq_some_iff.mp found
      exact (placed before (here ▸ there)).2
    · exact apart.files other folder found
  · intro other number has
    rw [counters]
    exact apart.bounded other number (known other number has).1
  · intro other number has place folder found one member
    obtain ⟨earlier, different⟩ := known other number has
    rw [folders] at found
    split at found
    · rename_i here
      obtain ⟨before, there, rfl⟩ := Option.map_eq_some_iff.mp found
      rw [(placed before (here ▸ there)).1, Folder.files, List.append_assoc] at member
      rcases List.mem_append.mp member with first | rest
      · exact apart.unwritten other number earlier place before there one
          (List.mem_append_left _ first)
      · rcases List.mem_cons.mp rest with rfl | last
        · exact different.symm
        · exact apart.unwritten other number earlier place before there one
            (List.mem_append_right _ last)
    · exact apart.unwritten other number earlier place folder found one member
  · intro first second number one other
    exact apart.once first second number (known first number one).1 (known second number other).1
  · intro other folder found
    by_cases here : other = id
    · refine ⟨[file], ?_, by simp [here, file]⟩
      rw [folders, if_pos here, found, Option.map_some, (placed folder (here ▸ found)).1]
    · refine ⟨[], ?_, by simp [Ne.symm here]⟩
      rw [folders, if_neg here, found, List.append_nil]

end Steps

section Runs

variable {host : Host} {backend : Backend}

end Runs

end Filesystem

end Rusmes
