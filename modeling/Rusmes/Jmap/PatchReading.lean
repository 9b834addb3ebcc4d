import Rusmes.Jmap.Email

/-!
Email/set updates as patches. What a patch asks of the keywords and mailboxes of a message,
what an update hears of it, and the steps an update takes over any store.
-/

namespace Rusmes

open WireText

def systemKeywords : List Text :=
  ["$seen".toList, "$answered".toList, "$flagged".toList, "$deleted".toList, "$draft".toList]

def MessageFlags.holdsKeyword (flags : MessageFlags) (keyword : Text) : Bool :=
  if keyword = "$seen".toList then flags.seen
  else if keyword = "$answered".toList then flags.answered
  else if keyword = "$flagged".toList then flags.flagged
  else if keyword = "$deleted".toList then flags.deleted
  else if keyword = "$draft".toList then flags.draft
  else decide (keyword ∈ flags.custom)

inductive PatchPath
  | keywords
  | keyword (name : Text)
  | mailboxIds
  | mailboxId (id : Text)
  deriving DecidableEq, Repr

def withoutSlash (path : Text) : Text := (stripPrefix "/".toList path).getD path

def patchPath (path : Text) : Option PatchPath :=
  let bare := withoutSlash path
  if bare = "keywords".toList then some .keywords
  else if bare = "mailboxIds".toList then some .mailboxIds
  else
    match stripPrefix "keywords/".toList bare with
    | some name => some (.keyword name)
    | none => (stripPrefix "mailboxIds/".toList bare).map .mailboxId

def isTrue (value : JsonValue) : Bool := value.asBool = some true

def trueKeys (value : JsonValue) : List Text :=
  ((value.asObject.getD []).filter fun entry => isTrue entry.2).map Prod.fst

section Wanted

variable (letters : CaseMapping)

def keywordAfter (keyword : Text) (held : Bool) (entry : Text × JsonValue) : Bool :=
  match patchPath entry.1 with
  | some .keywords => decide (keyword ∈ (trueKeys entry.2).map letters.toLowercase)
  | some (.keyword name) => if letters.toLowercase name = keyword then isTrue entry.2 else held
  | _ => held

def wantedKeyword (patch : List (Text × JsonValue)) (keyword : Text) (before : Bool) : Bool :=
  patch.foldl (keywordAfter letters keyword) before

def mailboxAfter (mailbox : MailboxId) (held : Bool) (entry : Text × JsonValue) : Bool :=
  match patchPath entry.1 with
  | some .mailboxIds => decide (some mailbox.uuid ∈ (trueKeys entry.2).map parseUuid)
  | some (.mailboxId id) => if parseUuid id = some mailbox.uuid then isTrue entry.2 else held
  | _ => held

def wantedMailbox (patch : List (Text × JsonValue)) (mailbox : MailboxId) (before : Bool) : Bool :=
  patch.foldl (mailboxAfter mailbox) before

def askedIds (entry : Text × JsonValue) : List Text :=
  match patchPath entry.1 with
  | some .mailboxIds => trueKeys entry.2
  | some (.mailboxId id) => if isTrue entry.2 then [id] else []
  | _ => []

def NamesMailboxes (patch : List (Text × JsonValue)) : Prop :=
  ∀ entry ∈ patch, ∀ id ∈ askedIds entry, parseUuid id ≠ none

end Wanted

section Heard

variable (letters : CaseMapping)

/-- The keyword entries that are read, as keywords set or cleared one after the other: those of
a `keywords` value, and where there is none the ones under `/keywords/`. -/
def heardKeywords (patch : List (Text × JsonValue)) : Option (List (Text × Bool)) :=
  match patch.lookup "keywords".toList with
  | some value => value.asObject.map fun _ => (trueKeys value).map (·, true)
  | none =>
      let heard := patch.filterMap fun entry =>
        (stripPrefix keywordsPath entry.1).map (·, isTrue entry.2)
      if heard = [] then none else some heard

def toldKeyword (told : List (Text × Bool)) (keyword : Text) : Bool :=
  told.foldl (fun held entry =>
    if letters.toLowercase entry.1 = keyword then entry.2 else held) false

def replacedMailboxes (entries : List (Text × JsonValue)) : List MailboxId :=
  ((entries.filter fun entry => isTrue entry.2).map Prod.fst).filterMap fun id =>
    (parseUuid id).map MailboxId.mk

def patchedMailboxes (patch : List (Text × JsonValue)) : List MailboxId :=
  patch.filterMap fun entry =>
    if isTrue entry.2 then
      ((stripPrefix mailboxPathLead entry.1).bind parseUuid).map MailboxId.mk
    else none

def heardMailboxes (patch : List (Text × JsonValue)) : List MailboxId :=
  replacedMailboxes (((patch.lookup "/mailboxIds".toList).bind JsonValue.asObject).getD []) ++
    patchedMailboxes patch

end Heard

/-! Keywords of flags. -/

theorem holdsKeyword_new (keyword : Text) : MessageFlags.new.holdsKeyword keyword = false := by
  rw [MessageFlags.holdsKeyword]
  repeat' split
  all_goals rfl

theorem mem_addCustom (flags : MessageFlags) (name keyword : Text) :
    keyword ∈ (flags.addCustom name).custom ↔ name = keyword ∨ keyword ∈ flags.custom := by
  rw [MessageFlags.addCustom]
  split
  · rename_i there
    constructor
    · exact .inr
    · rintro (rfl | member)
      · exact there
      · exact member
  · simp only [List.mem_append, List.mem_singleton]
    rw [or_comm, eq_comm]

theorem addCustom_eq (flags : MessageFlags) (name : Text) :
    flags.addCustom name = { flags with custom := (flags.addCustom name).custom } := by
  rw [MessageFlags.addCustom]
  split <;> rfl

theorem holdsKeyword_custom (flags : MessageFlags) (custom : List Text) (keyword : Text) :
    ({ flags with custom } : MessageFlags).holdsKeyword keyword =
      if keyword ∈ systemKeywords then flags.holdsKeyword keyword
      else decide (keyword ∈ custom) := by
  rw [MessageFlags.holdsKeyword, MessageFlags.holdsKeyword, systemKeywords]
  generalize "$seen".toList = seen, "$answered".toList = answered, "$flagged".toList = flagged,
    "$deleted".toList = deleted, "$draft".toList = draft
  split_ifs <;> simp_all

theorem holdsKeyword_unsystematic {flags : MessageFlags} {keyword : Text}
    (other : keyword ∉ systemKeywords) :
    flags.holdsKeyword keyword = decide (keyword ∈ flags.custom) := by
  have split := holdsKeyword_custom flags flags.custom keyword
  rwa [if_neg other] at split

theorem setKeyword_untouched (flags : MessageFlags) (name : Text) (active : Bool) :
    (name ≠ "$seen".toList → (setKeyword flags name active).seen = flags.seen) ∧
    (name ≠ "$answered".toList → (setKeyword flags name active).answered = flags.answered) ∧
    (name ≠ "$flagged".toList → (setKeyword flags name active).flagged = flags.flagged) ∧
    (name ≠ "$deleted".toList → (setKeyword flags name active).deleted = flags.deleted) ∧
    (name ≠ "$draft".toList → (setKeyword flags name active).draft = flags.draft) := by
  rw [setKeyword, addCustom_eq]
  refine ⟨?_, ?_, ?_, ?_, ?_⟩ <;> intro other <;> split_ifs <;>
    first
    | rfl
    | contradiction

theorem setKeyword_customs {flags : MessageFlags} {name : Text} (other : name ∉ systemKeywords)
    (active : Bool) : setKeyword flags name active = { flags with
      custom := if active then (flags.addCustom name).custom
        else flags.custom.filter (· ≠ name) } := by
  simp only [systemKeywords, List.mem_cons, List.not_mem_nil, or_false, not_or] at other
  rw [setKeyword, if_neg other.1, if_neg other.2.1, if_neg other.2.2.1, if_neg other.2.2.2.1,
    if_neg other.2.2.2.2]
  cases active with
  | true => exact addCustom_eq flags name
  | false => rfl

theorem setKeyword_custom {flags : MessageFlags} {name : Text} (system : name ∈ systemKeywords)
    (active : Bool) : (setKeyword flags name active).custom = flags.custom := by
  simp only [systemKeywords, List.mem_cons, List.not_mem_nil, or_false] at system
  rw [setKeyword]
  split_ifs <;>
    first
    | rfl
    | simp_all only [or_false]

theorem holdsKeyword_set_same {flags : MessageFlags} {name : Text} (system : name ∈ systemKeywords)
    (active : Bool) : (setKeyword flags name active).holdsKeyword name = active := by
  simp only [systemKeywords, List.mem_cons, List.not_mem_nil, or_false] at system
  rw [setKeyword, MessageFlags.holdsKeyword]
  split_ifs <;>
    first
    | rfl
    | simp_all only [or_false]

theorem holdsKeyword_set_other {flags : MessageFlags} {name keyword : Text}
    (other : name ≠ keyword) (system : keyword ∈ systemKeywords) (active : Bool) :
    (setKeyword flags name active).holdsKeyword keyword = flags.holdsKeyword keyword := by
  obtain ⟨seen, answered, flagged, deleted, draft⟩ := setKeyword_untouched flags name active
  simp only [systemKeywords, List.mem_cons, List.not_mem_nil, or_false] at system
  rw [MessageFlags.holdsKeyword, MessageFlags.holdsKeyword]
  split_ifs with isSeen isAnswered isFlagged isDeleted isDraft
  · exact seen (isSeen ▸ other)
  · exact answered (isAnswered ▸ other)
  · exact flagged (isFlagged ▸ other)
  · exact deleted (isDeleted ▸ other)
  · exact draft (isDraft ▸ other)
  · simp_all only [or_false]

theorem holdsKeyword_setKeyword (flags : MessageFlags) (name keyword : Text) (active : Bool) :
    (setKeyword flags name active).holdsKeyword keyword =
      if name = keyword then active else flags.holdsKeyword keyword := by
  by_cases known : keyword ∈ systemKeywords
  · by_cases same : name = keyword
    · rw [if_pos same, ← same, holdsKeyword_set_same (same ▸ known)]
    · rw [if_neg same, holdsKeyword_set_other same known]
  · rw [holdsKeyword_unsystematic known, holdsKeyword_unsystematic known]
    by_cases system : name ∈ systemKeywords
    · have differ : name ≠ keyword := fun same => known (same ▸ system)
      rw [setKeyword_custom system, if_neg differ]
    · rw [setKeyword_customs system]
      cases active with
      | true =>
        simp only [if_true, mem_addCustom]
        by_cases here : name = keyword <;> simp [here]
      | false => by_cases here : name = keyword <;> simp [here, eq_comm]

section Told

variable {σ : Type} (ctx : JmapContext σ)

theorem getD_asBool (value : JsonValue) : value.asBool.getD false = isTrue value := by
  rw [isTrue]
  cases value.asBool with
  | none => rfl
  | some active => cases active <;> rfl

def setTold (flags : MessageFlags) (told : List (Text × Bool)) : MessageFlags :=
  told.foldl (fun flags entry => setKeyword flags (ctx.toLowercase entry.1) entry.2) flags

theorem holdsKeyword_setTold (flags : MessageFlags) (told : List (Text × Bool)) (keyword : Text) :
    (setTold ctx flags told).holdsKeyword keyword =
      told.foldl (fun held entry =>
        if ctx.toLowercase entry.1 = keyword then entry.2 else held)
          (flags.holdsKeyword keyword) := by
  induction told generalizing flags with
  | nil => rfl
  | cons entry told ih =>
    rw [setTold, List.foldl_cons, List.foldl_cons, ← holdsKeyword_setKeyword]
    exact ih _

theorem keywordsToFlags_eq (keywords : List (Text × Bool)) :
    keywordsToFlags ctx keywords =
      setTold ctx .new ((keywords.filter Prod.snd).map fun entry => (entry.1, true)) := by
  rw [keywordsToFlags, setTold, List.foldl_map, List.foldl_filter]

theorem trueKeys_told (keywords : List (Text × JsonValue)) :
    ((keywords.filterMap fun entry => entry.2.asBool.map (entry.1, ·)).filter Prod.snd).map
        (fun entry => (entry.1, true)) =
      (trueKeys (.object keywords)).map (·, true) := by
  rw [trueKeys, JsonValue.asObject, Option.getD_some]
  induction keywords with
  | nil => rfl
  | cons entry keywords ih =>
    obtain ⟨name, value⟩ := entry
    cases read : value.asBool with
    | none => simpa [read, isTrue] using ih
    | some active => cases active <;> simpa [read, isTrue] using ih

def hearKeyword (result : MessageFlags × Bool) (entry : Text × JsonValue) :
    MessageFlags × Bool :=
  match stripPrefix keywordsPath entry.1 with
  | some keyword =>
      (setKeyword result.1 (ctx.toLowercase keyword) (entry.2.asBool.getD false), true)
  | none => result

theorem fold_hearKeyword (patch : List (Text × JsonValue)) (flags : MessageFlags)
    (changed : Bool) :
    patch.foldl (hearKeyword ctx) (flags, changed) =
      (setTold ctx flags (patch.filterMap fun entry =>
          (stripPrefix keywordsPath entry.1).map (·, isTrue entry.2)),
        changed || !(patch.filterMap fun entry =>
          (stripPrefix keywordsPath entry.1).map (·, isTrue entry.2)).isEmpty) := by
  induction patch generalizing flags changed with
  | nil => simp [setTold]
  | cons entry patch ih =>
    rw [List.foldl_cons, hearKeyword]
    cases heard : stripPrefix keywordsPath entry.1 with
    | none =>
      rw [List.filterMap_cons_none (by rw [heard]; rfl)]
      exact ih flags changed
    | some keyword =>
      rw [List.filterMap_cons_some (by rw [heard]; rfl)]
      dsimp only
      rw [ih, getD_asBool]
      simp [setTold]

def heardOnto (patch : List (Text × JsonValue)) (current : MessageFlags) : MessageFlags :=
  if (patch.lookup "keywords".toList).isSome then .new else current

theorem applyKeywordPatch_heard (patch : List (Text × JsonValue)) (current : MessageFlags) :
    (heardKeywords patch = none ∧ (applyKeywordPatch ctx current (.object patch)).2 = false) ∨
    ∃ told, heardKeywords patch = some told ∧
      applyKeywordPatch ctx current (.object patch) =
        (setTold ctx (heardOnto patch current) told, true) := by
  rw [heardKeywords, applyKeywordPatch, JsonValue.asObject, heardOnto]
  dsimp only
  cases full : patch.lookup "keywords".toList with
  | some value =>
    dsimp only
    cases read : value.asObject with
    | none => exact .inl ⟨rfl, rfl⟩
    | some keywords =>
      refine .inr ⟨_, rfl, ?_⟩
      have same : trueKeys (.object keywords) = trueKeys value := by
        rw [trueKeys, trueKeys, read]
        rfl
      dsimp only
      rw [keywordsToFlags_eq, trueKeys_told, same]
      rfl
  | none =>
    have walked := fold_hearKeyword ctx patch current false
    by_cases silent : patch.filterMap (fun entry =>
        (stripPrefix keywordsPath entry.1).map (·, isTrue entry.2)) = []
    · rw [silent] at walked
      exact .inl ⟨if_pos silent, congrArg Prod.snd walked⟩
    · rw [List.isEmpty_eq_false_iff.mpr silent] at walked
      exact .inr ⟨_, if_neg silent, walked⟩

def currentFlags (messageId : MessageId) (entries : List (Text × JsonValue)) :
    JmapProgram σ MessageFlags :=
  match owningMailbox ctx entries with
  | some mailboxId => do
      return (← readMessageFlags ctx messageId mailboxId).getD .new
  | none => return .new

def writeFlags (messageId : MessageId) (entries : List (Text × JsonValue)) :
    JmapProgram σ Unit := do
  let current ← currentFlags ctx messageId entries
  let (flags, changed) := applyKeywordPatch ctx current (.object entries)
  if changed then stored (ctx.messageStore.setFlags [messageId] flags)

theorem handleEmailUpdate_eq {id : Text} {messageId : MessageId}
    (read : parseUuid id = some messageId.uuid) (entries : List (Text × JsonValue)) :
    handleEmailUpdate ctx id (.object entries) = (do
      requireMessage ctx id messageId
      writeFlags ctx messageId entries
      replaceMailboxes ctx messageId
        (((entries.lookup "/mailboxIds".toList).bind JsonValue.asObject).getD [])
      patchMailboxes ctx messageId entries) := by
  rw [handleEmailUpdate, parseMessageId, read]
  change (requireMessage ctx id messageId >>= _) = _
  congr 1
  funext _
  rw [writeFlags, bind_assoc]
  change (currentFlags ctx messageId entries >>= _) = _
  congr 1
  funext current
  dsimp only
  cases (applyKeywordPatch ctx current (.object entries)).2 with
  | true => rfl
  | false => rfl

end Told

/-! The mailboxes of a patch, in the order they are walked. -/

inductive MailboxStep
  | file (mailbox : MailboxId)
  | remove (mailbox : MailboxId)
  deriving DecidableEq, Repr

def patchSteps (entries : List (Text × JsonValue)) : List MailboxStep :=
  entries.filterMap fun entry =>
    ((stripPrefix mailboxPathLead entry.1).bind parseUuid).map fun uuid =>
      if isTrue entry.2 then .file ⟨uuid⟩ else .remove ⟨uuid⟩

def mailboxSteps (entries : List (Text × JsonValue)) : List MailboxStep :=
  (replacedMailboxes (((entries.lookup "/mailboxIds".toList).bind JsonValue.asObject).getD [])).map
    .file ++ patchSteps entries

section Steps

def MailboxStep.target : MailboxStep → List MailboxId
  | .file mailbox => [mailbox]
  | .remove _ => []

theorem targets_mailboxSteps (patch : List (Text × JsonValue)) :
    (mailboxSteps patch).flatMap MailboxStep.target = heardMailboxes patch := by
  have replaced : ∀ mailboxes : List MailboxId,
      (mailboxes.map MailboxStep.file).flatMap MailboxStep.target = mailboxes := by
    intro mailboxes
    induction mailboxes with
    | nil => rfl
    | cons mailbox others ih => rw [List.map_cons, List.flatMap_cons, ih]; rfl
  have patched : (patchSteps patch).flatMap MailboxStep.target = patchedMailboxes patch := by
    rw [patchSteps, patchedMailboxes]
    induction patch with
    | nil => rfl
    | cons entry others ih =>
      rw [List.filterMap_cons, List.filterMap_cons]
      cases (stripPrefix mailboxPathLead entry.1).bind parseUuid with
      | none =>
        rw [Option.map_none, Option.map_none, ite_self]
        exact ih
      | some uuid =>
        rw [Option.map_some, Option.map_some]
        cases isTrue entry.2 with
        | true => exact congrArg (MailboxId.mk uuid :: ·) ih
        | false => exact ih
  rw [mailboxSteps, List.flatMap_append, replaced, patched, heardMailboxes]

variable {σ : Type} (ctx : JmapContext σ) (messageId : MessageId)

def MailboxStep.run : MailboxStep → JmapProgram σ Unit
  | .file mailbox => fileInMailbox ctx messageId mailbox
  | .remove mailbox => removeFromMailbox ctx messageId mailbox

def runSteps : List MailboxStep → JmapProgram σ Unit
  | [] => pure ()
  | step :: steps => do
      step.run ctx messageId
      runSteps steps

theorem runSteps_append (first second : List MailboxStep) :
    runSteps ctx messageId (first ++ second) =
      runSteps ctx messageId first >>= fun _ => runSteps ctx messageId second := by
  induction first with
  | nil => rfl
  | cons step steps ih => rw [List.cons_append, runSteps, runSteps, ih, bind_assoc]

theorem replaceMailboxes_eq (entries : List (Text × JsonValue)) :
    replaceMailboxes ctx messageId entries =
      runSteps ctx messageId ((replacedMailboxes entries).map .file) := by
  induction entries with
  | nil => rfl
  | cons entry entries ih =>
    obtain ⟨id, value⟩ := entry
    rw [replaceMailboxes, ih]
    cases read : parseUuid id with
    | none =>
      have skipped : replacedMailboxes ((id, value) :: entries) = replacedMailboxes entries := by
        by_cases active : isTrue value = true <;> simp [replacedMailboxes, active, read]
      rw [parseMailboxId, read, skipped]
    | some uuid =>
      rw [parseMailboxId, read]
      dsimp only
      by_cases active : value.asBool = some true
      · have first : replacedMailboxes ((id, value) :: entries) =
            ⟨uuid⟩ :: replacedMailboxes entries := by
          simp [replacedMailboxes, isTrue, active, read]
        rw [if_pos active, first]
        rfl
      · have skipped : replacedMailboxes ((id, value) :: entries) = replacedMailboxes entries := by
          simp [replacedMailboxes, isTrue, active]
        rw [if_neg active, skipped]

theorem patchMailboxes_eq (entries : List (Text × JsonValue)) :
    patchMailboxes ctx messageId entries = runSteps ctx messageId (patchSteps entries) := by
  induction entries with
  | nil => rfl
  | cons entry entries ih =>
    obtain ⟨path, value⟩ := entry
    have named : (stripPrefix mailboxPathLead path).bind (fun id =>
        (parseMailboxId ctx id).toOption) =
          ((stripPrefix mailboxPathLead path).bind parseUuid).map MailboxId.mk := by
      cases stripPrefix mailboxPathLead path with
      | none => rfl
      | some id =>
        rw [Option.bind_some, Option.bind_some, parseMailboxId]
        cases parseUuid id <;> rfl
    rw [patchMailboxes, named, getD_asBool, ih]
    cases target : (stripPrefix mailboxPathLead path).bind parseUuid with
    | none =>
      have skipped : patchSteps ((path, value) :: entries) = patchSteps entries := by
        rw [patchSteps, List.filterMap_cons_none (by dsimp only; rw [target, Option.map_none])]
        rfl
      rw [skipped]
      rfl
    | some uuid =>
      have first : patchSteps ((path, value) :: entries) =
          (if isTrue value then .file ⟨uuid⟩ else .remove ⟨uuid⟩) :: patchSteps entries := by
        rw [patchSteps, List.filterMap_cons_some (by dsimp only; rw [target, Option.map_some])]
        rfl
      rw [first]
      cases isTrue value with
      | true => rfl
      | false => rfl

theorem handleEmailUpdate_steps {id : Text} (read : parseUuid id = some messageId.uuid)
    (entries : List (Text × JsonValue)) :
    handleEmailUpdate ctx id (.object entries) = (do
      requireMessage ctx id messageId
      writeFlags ctx messageId entries
      runSteps ctx messageId (mailboxSteps entries)) := by
  rw [handleEmailUpdate_eq ctx read, mailboxSteps, runSteps_append, ← replaceMailboxes_eq,
    ← patchMailboxes_eq]

end Steps

end Rusmes
