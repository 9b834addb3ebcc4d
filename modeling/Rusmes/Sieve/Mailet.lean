import Mathlib.Data.Set.Basic
import Rusmes.Core.Processor
import Rusmes.Sieve.Interpreter

/-!
The Sieve mailet of `mailets/sieve.rs`: one script is chosen and executed for a mail, and
its actions are left on the mail as attributes.
-/

namespace Rusmes

open WireText

structure SieveMailet where
  userScripts : Table Text SieveScript
  globalScript : Option SieveScript
  usersValid : ∀ user script, userScripts.lookup user = some script → script.validate = .ok ()
  globalValid : ∀ script, globalScript = some script → script.validate = .ok ()

theorem validate_inserted {scripts : Table Text SieveScript} {user : Text} {script : SieveScript}
    (valid : script.validate = .ok ())
    (others : ∀ user script, scripts.lookup user = some script → script.validate = .ok ()) :
    ∀ name found, (scripts.insert user script).lookup name = some found →
      found.validate = .ok () := by
  intro name found present
  by_cases same : name = user
  · rw [same, AList.lookup_insert, Option.some.injEq] at present
    rwa [← present]
  · rw [AList.lookup_insert_ne same] at present
    exact others name found present

namespace SieveMailet

def new : SieveMailet where
  userScripts := ∅
  globalScript := none
  usersValid _ _ found := by cases found
  globalValid _ found := by cases found

def addUserScript (mailet : SieveMailet) (user : Text) (script : SieveScript) :
    Except String SieveMailet :=
  match valid : script.validate with
  | .error error => .error error
  | .ok () => .ok { mailet with
      userScripts := mailet.userScripts.insert user script
      usersValid := validate_inserted valid mailet.usersValid }

def setGlobalScript (mailet : SieveMailet) (script : SieveScript) : Except String SieveMailet :=
  match valid : script.validate with
  | .error error => .error error
  | .ok () => .ok { mailet with
      globalScript := some script
      globalValid := fun found same => by rwa [← Option.some.inj same] }

def getScriptForUser (mailet : SieveMailet) (user : Text) : Option SieveScript :=
  mailet.userScripts.lookup user

def extractUser (mail : Mail) : Option Text :=
  mail.recipients.head?.map MailAddress.localPart

def scriptFor (mailet : SieveMailet) (user : Text) : Option SieveScript :=
  (mailet.getScriptForUser user).or mailet.globalScript

def chosenScript (mailet : SieveMailet) (mail : Mail) : Option SieveScript :=
  match extractUser mail with
  | some user => mailet.scriptFor user
  | none => mailet.globalScript

end SieveMailet

def sieveAction : Text := "sieve.action".toList

def sieveMailbox : Text := "sieve.mailbox".toList

def sieveRedirectTo : Text := "sieve.redirect_to".toList

def applyActions : Mail → List SieveAction → MailetAction × Mail
  | mail, [] => (.continue, mail)
  | mail, .keep :: actions | mail, .implicitKeep :: actions =>
      applyActions (mail.setAttribute sieveAction (.string "keep".toList)) actions
  | mail, .fileinto mailbox :: actions =>
      applyActions ((mail.setAttribute sieveAction (.string "fileinto".toList)).setAttribute
        sieveMailbox (.string mailbox)) actions
  | mail, .redirect address :: actions =>
      applyActions ((mail.setAttribute sieveAction (.string "redirect".toList)).setAttribute
        sieveRedirectTo (.string address)) actions
  | mail, .discard :: _ => (.drop, mail)

def SieveMailet.service (letters : CaseMapping) (mailet : SieveMailet) (mail : Mail) :
    Except String MailetAction × Mail :=
  match mailet.chosenScript mail with
  | some script =>
      match execute letters mail script with
      | .ok actions =>
          let (action, mail) := applyActions mail actions
          (.ok action, mail)
      | .error error => (.error ("Sieve execution error: " ++ error), mail)
  | none => (.ok .continue, mail)

inductive Destination
  | inbox
  | mailbox (name : Text)
  | address (text : Text)
  deriving DecidableEq, Repr

def destination : SieveAction → Option Destination
  | .keep | .implicitKeep => some .inbox
  | .fileinto mailbox => some (.mailbox mailbox)
  | .redirect address => some (.address address)
  | .discard => none

def Mail.records (mail : Mail) : Destination → Prop
  | .inbox => mail.getAttribute sieveAction = some (.string "keep".toList)
  | .mailbox name => mail.getAttribute sieveMailbox = some (.string name)
  | .address text => mail.getAttribute sieveRedirectTo = some (.string text)

inductive Outcome
  | dropped
  | recorded (destinations : Set Destination)

def outcome (run : Except String MailetAction × Mail) : Outcome :=
  match run.1 with
  | .ok .drop => .dropped
  | _ => .recorded {place | run.2.records place}

def Outcome.Represents (result : Outcome) (place : Destination) : Prop :=
  ∃ destinations, result = .recorded destinations ∧ place ∈ destinations

structure Decides (letters : CaseMapping) (mailet : SieveMailet) (mail : Mail)
    (recipient : MailAddress) : Prop where
  own : ∀ (other : SieveMailet) (recipients : List MailAddress),
    recipients.Perm mail.recipients →
    other.scriptFor recipient.localPart = mailet.scriptFor recipient.localPart →
      outcome (other.service letters { mail with recipients }) =
        outcome (mailet.service letters mail)
  represented : ∀ script actions, mailet.chosenScript mail = some script →
    execute letters mail script = .ok actions →
      ∀ action ∈ actions, ∀ place, destination action = some place →
        (outcome (mailet.service letters mail)).Represents place
  drops : outcome (mailet.service letters mail) = .dropped →
    ∀ script actions, mailet.chosenScript mail = some script →
      execute letters mail script = .ok actions → ∀ action ∈ actions, destination action = none

structure Recordable (actions : List SieveAction) : Prop where
  discards : .discard ∈ actions → ∀ action ∈ actions, action = .discard
  keeps : ∀ action ∈ actions, destination action = some .inbox →
    ∀ last, actions.getLast? = some last → destination last = some .inbox
  files : ∀ one other, .fileinto one ∈ actions → .fileinto other ∈ actions → one = other
  redirects : ∀ one other, .redirect one ∈ actions → .redirect other ∈ actions → one = other

/-! What a list of actions writes. -/

theorem getAttribute_setAttribute (mail : Mail) (key name : Text) (value : AttributeValue) :
    (mail.setAttribute key value).getAttribute name =
      if name = key then some value else mail.getAttribute name := by
  by_cases same : name = key
  · rw [if_pos same, same]
    exact AList.lookup_insert _
  · rw [if_neg same]
    exact AList.lookup_insert_ne same

def written (key : Text) : SieveAction → Option AttributeValue
  | .keep | .implicitKeep => if key = sieveAction then some (.string "keep".toList) else none
  | .fileinto mailbox =>
      if key = sieveMailbox then some (.string mailbox)
      else if key = sieveAction then some (.string "fileinto".toList) else none
  | .redirect address =>
      if key = sieveRedirectTo then some (.string address)
      else if key = sieveAction then some (.string "redirect".toList) else none
  | .discard => none

section Applying

variable {mail : Mail} {action : SieveAction} {actions : List SieveAction}

theorem applyActions_cons (mail : Mail) (actions : List SieveAction) (kept : action ≠ .discard) :
    ∃ next, applyActions mail (action :: actions) = applyActions next actions ∧
      ∀ key, next.getAttribute key = (written key action).or (mail.getAttribute key) := by
  cases action with
  | keep | implicitKeep =>
      refine ⟨_, rfl, fun key => ?_⟩
      rw [getAttribute_setAttribute, written]
      split <;> rfl
  | fileinto mailbox =>
      refine ⟨_, rfl, fun key => ?_⟩
      rw [getAttribute_setAttribute, getAttribute_setAttribute, written]
      split
      · rfl
      · split <;> rfl
  | redirect address =>
      refine ⟨_, rfl, fun key => ?_⟩
      rw [getAttribute_setAttribute, getAttribute_setAttribute, written]
      split
      · rfl
      · split <;> rfl
  | discard => exact absurd rfl kept

theorem applyActions_drop (mail : Mail) (actions : List SieveAction) :
    (applyActions mail actions).1 = if .discard ∈ actions then .drop else .continue := by
  induction actions generalizing mail with
  | nil => rfl
  | cons action actions ih =>
      by_cases discards : action = .discard
      · rw [discards, if_pos List.mem_cons_self]
        rfl
      · obtain ⟨next, same, _⟩ := applyActions_cons mail actions discards
        rw [same, ih]
        simp only [List.mem_cons, Ne.symm discards, false_or]

theorem applyActions_getAttribute (kept : .discard ∉ actions) (key : Text) :
    (applyActions mail actions).2.getAttribute key =
      ((actions.filterMap (written key)).getLast?).or (mail.getAttribute key) := by
  induction actions generalizing mail with
  | nil => rfl
  | cons action actions ih =>
      rw [List.mem_cons, not_or] at kept
      obtain ⟨next, same, reads⟩ := applyActions_cons mail actions (Ne.symm kept.1)
      rw [same, ih kept.2, reads, List.filterMap_cons]
      cases written key action with
      | none => rfl
      | some value =>
          rw [List.getLast?_cons]
          cases (actions.filterMap (written key)).getLast? with
          | none => rfl
          | some _ => rfl

theorem applyActions_recipients (mail : Mail) (recipients : List MailAddress)
    (actions : List SieveAction) :
    applyActions { mail with recipients } actions =
      ((applyActions mail actions).1, { (applyActions mail actions).2 with recipients }) := by
  induction actions generalizing mail with
  | nil => rfl
  | cons action actions ih =>
      cases action with
      | keep | implicitKeep => exact ih (mail.setAttribute sieveAction (.string "keep".toList))
      | fileinto mailbox =>
          exact ih ((mail.setAttribute sieveAction (.string "fileinto".toList)).setAttribute
            sieveMailbox (.string mailbox))
      | redirect address =>
          exact ih ((mail.setAttribute sieveAction (.string "redirect".toList)).setAttribute
            sieveRedirectTo (.string address))
      | discard => rfl

def applied (mail : Mail) (actions : List SieveAction) : Outcome :=
  outcome (.ok (applyActions mail actions).1, (applyActions mail actions).2)

theorem applied_recipients (mail : Mail) (recipients : List MailAddress)
    (actions : List SieveAction) :
    applied { mail with recipients } actions = applied mail actions := by
  rw [applied, applyActions_recipients]
  rfl

theorem applied_dropped (discards : .discard ∈ actions) : applied mail actions = .dropped := by
  rw [applied, applyActions_drop, if_pos discards]
  rfl

theorem applied_recorded (kept : .discard ∉ actions) :
    applied mail actions = .recorded {place | (applyActions mail actions).2.records place} := by
  rw [applied, applyActions_drop, if_neg kept]
  rfl

theorem represents_iff (kept : .discard ∉ actions) {place : Destination} :
    (applied mail actions).Represents place ↔ (applyActions mail actions).2.records place := by
  rw [applied_recorded kept]
  constructor
  · rintro ⟨_, same, member⟩
    cases same
    exact member
  · intro recorded
    exact ⟨_, rfl, recorded⟩

theorem getAttribute_agreed (kept : .discard ∉ actions) {key : Text} {value : AttributeValue}
    (member : action ∈ actions) (writes : written key action = some value)
    (agreed : ∀ other ∈ actions, ∀ final, written key other = some final → final = value) :
    (applyActions mail actions).2.getAttribute key = some value := by
  rw [applyActions_getAttribute kept]
  have inside : value ∈ actions.filterMap (written key) :=
    List.mem_filterMap.mpr ⟨action, member, writes⟩
  cases shape : (actions.filterMap (written key)).getLast? with
  | none =>
      rw [List.getLast?_eq_none_iff.mp shape] at inside
      cases inside
  | some final =>
      obtain ⟨source, inList, wrote⟩ := List.mem_filterMap.mp (List.mem_of_getLast? shape)
      rw [Option.some_or, agreed source inList final wrote]

theorem destination_eq_none : destination action = none ↔ action = .discard := by
  cases action <;> simp [destination]

theorem keys_differ : sieveAction ≠ sieveMailbox ∧ sieveAction ≠ sieveRedirectTo ∧
    sieveMailbox ≠ sieveRedirectTo := by
  decide

theorem names_differ : "fileinto".toList ≠ "keep".toList ∧ "redirect".toList ≠ "keep".toList := by
  decide

theorem written_sieveAction : written sieveAction action = some (.string "keep".toList) ↔
    destination action = some .inbox := by
  cases action with
  | keep | implicitKeep => rw [written, if_pos rfl, destination, eq_self, eq_self]
  | fileinto mailbox =>
      rw [written, if_neg keys_differ.1, if_pos rfl, destination, Option.some.injEq,
        AttributeValue.string.injEq]
      exact iff_of_false names_differ.1 (by simp)
  | redirect address =>
      rw [written, if_neg keys_differ.2.1, if_pos rfl, destination, Option.some.injEq,
        AttributeValue.string.injEq]
      exact iff_of_false names_differ.2 (by simp)
  | discard => exact iff_of_false (by simp [written]) (by simp [destination])

theorem written_sieveMailbox {value : AttributeValue} :
    written sieveMailbox action = some value ↔
      ∃ name, action = .fileinto name ∧ value = .string name := by
  cases action with
  | keep | implicitKeep =>
      rw [written, if_neg keys_differ.1.symm]
      exact iff_of_false (by simp) (by simp)
  | fileinto mailbox =>
      rw [written, if_pos rfl, Option.some.injEq]
      constructor
      · intro same
        exact ⟨mailbox, rfl, same.symm⟩
      · rintro ⟨name, same, named⟩
        rw [named, SieveAction.fileinto.inj same]
  | redirect address =>
      rw [written, if_neg keys_differ.2.2, if_neg keys_differ.1.symm]
      exact iff_of_false (by simp) (by simp)
  | discard => exact iff_of_false (by simp [written]) (by simp)

theorem written_sieveRedirectTo {value : AttributeValue} :
    written sieveRedirectTo action = some value ↔
      ∃ text, action = .redirect text ∧ value = .string text := by
  cases action with
  | keep | implicitKeep =>
      rw [written, if_neg keys_differ.2.1.symm]
      exact iff_of_false (by simp) (by simp)
  | fileinto mailbox =>
      rw [written, if_neg keys_differ.2.2.symm, if_neg keys_differ.2.1.symm]
      exact iff_of_false (by simp) (by simp)
  | redirect address =>
      rw [written, if_pos rfl, Option.some.injEq]
      constructor
      · intro same
        exact ⟨address, rfl, same.symm⟩
      · rintro ⟨text, same, named⟩
        rw [named, SieveAction.redirect.inj same]
  | discard => exact iff_of_false (by simp [written]) (by simp)

theorem written_action_isSome (kept : action ≠ .discard) :
    ∃ value, written sieveAction action = some value := by
  cases action with
  | keep | implicitKeep => exact ⟨_, by rw [written, if_pos rfl]⟩
  | fileinto _ => exact ⟨_, by rw [written, if_neg keys_differ.1, if_pos rfl]⟩
  | redirect _ => exact ⟨_, by rw [written, if_neg keys_differ.2.1, if_pos rfl]⟩
  | discard => exact absurd rfl kept

theorem records_inbox (kept : .discard ∉ actions) {last : SieveAction}
    (final : actions.getLast? = some last) :
    (applyActions mail actions).2.records .inbox ↔ destination last = some .inbox := by
  obtain ⟨before, shape⟩ := List.getLast?_eq_some_iff.mp final
  have lastKept : last ≠ .discard := by
    intro same
    exact kept (same ▸ List.mem_of_getLast? final)
  obtain ⟨value, writes⟩ := written_action_isSome lastKept
  have written : (actions.filterMap (written sieveAction)).getLast? = some value := by
    rw [shape, List.filterMap_append, List.filterMap_cons, writes, List.filterMap_nil,
      List.getLast?_append, List.getLast?_singleton, Option.some_or]
  rw [Mail.records, applyActions_getAttribute kept, written, Option.some_or, ← writes,
    written_sieveAction]

/-- Each destination of a list is still recorded after it exactly when no action takes
away what another recorded. -/
theorem represented_iff (mail : Mail) (actions : List SieveAction) :
    (∀ action ∈ actions, ∀ place, destination action = some place →
        (applied mail actions).Represents place) ↔ Recordable actions := by
  by_cases discards : .discard ∈ actions
  · have lost : ∀ place, ¬(applied mail actions).Represents place := by
      rintro place ⟨_, same, _⟩
      rw [applied_dropped discards] at same
      cases same
    constructor
    · intro represented
      have alone : ∀ action ∈ actions, action = .discard := by
        intro action member
        rw [← destination_eq_none]
        cases place : destination action with
        | none => rfl
        | some place' => exact absurd (represented action member place' place) (lost place')
      refine ⟨fun _ => alone, fun action member inbox => ?_, fun one _ file => ?_,
        fun one _ redirect => ?_⟩
      · rw [alone action member] at inbox
        cases inbox
      · cases alone _ file
      · cases alone _ redirect
    · intro recordable action member place reaches
      rw [recordable.discards discards action member] at reaches
      cases reaches
  · simp only [represents_iff discards]
    constructor
    · intro recorded
      refine ⟨fun member => absurd member discards, fun action member inbox last final => ?_,
        fun one other file second => ?_, fun one other redirect second => ?_⟩
      · exact (records_inbox discards final).mp (recorded action member .inbox inbox)
      · have first := recorded _ file (.mailbox one) rfl
        have later := recorded _ second (.mailbox other) rfl
        rw [Mail.records] at first later
        rw [first, Option.some.injEq, AttributeValue.string.injEq] at later
        exact later
      · have first := recorded _ redirect (.address one) rfl
        have later := recorded _ second (.address other) rfl
        rw [Mail.records] at first later
        rw [first, Option.some.injEq, AttributeValue.string.injEq] at later
        exact later
    · intro recordable action member place reaches
      cases place with
      | inbox =>
          obtain ⟨last, final⟩ : ∃ last, actions.getLast? = some last :=
            ⟨_, List.getLast?_eq_some_getLast (List.ne_nil_of_mem member)⟩
          exact (records_inbox discards final).mpr
            (recordable.keeps action member reaches last final)
      | mailbox name =>
          have files : action = .fileinto name := by
            cases action <;> simp_all [destination]
          refine getAttribute_agreed discards member
            (written_sieveMailbox.mpr ⟨name, files, rfl⟩) fun other inside final wrote => ?_
          obtain ⟨second, same, named⟩ := written_sieveMailbox.mp wrote
          rw [named, recordable.files second name (same ▸ inside) (files ▸ member)]
      | address text =>
          have redirects : action = .redirect text := by
            cases action <;> simp_all [destination]
          refine getAttribute_agreed discards member
            (written_sieveRedirectTo.mpr ⟨text, redirects, rfl⟩) fun other inside final wrote => ?_
          obtain ⟨second, same, named⟩ := written_sieveRedirectTo.mp wrote
          rw [named, recordable.redirects second text (same ▸ inside) (redirects ▸ member)]

end Applying

section Service

variable {letters : CaseMapping} {mailet : SieveMailet} {mail : Mail}

theorem outcome_service {script : SieveScript} {actions : List SieveAction}
    (chosen : mailet.chosenScript mail = some script)
    (run : execute letters mail script = .ok actions) :
    outcome (mailet.service letters mail) = applied mail actions := by
  rw [SieveMailet.service, chosen]
  simp only [run]
  rfl

theorem outcome_service_none (unscripted : mailet.chosenScript mail = none) :
    outcome (mailet.service letters mail) = .recorded {place | mail.records place} := by
  rw [SieveMailet.service, unscripted]
  rfl

theorem outcome_first {first : MailAddress} {others : List MailAddress} {script : SieveScript}
    {actions : List SieveAction} (scripted : mailet.scriptFor first.localPart = some script)
    (run : execute letters { mail with recipients := [first] } script = .ok actions) :
    outcome (mailet.service letters { mail with recipients := first :: others }) =
      applied mail actions := by
  have tested : SameTested { mail with recipients := first :: others }
      { mail with recipients := [first] } := ⟨rfl, rfl, rfl⟩
  have chosen : mailet.chosenScript { mail with recipients := first :: others } = some script :=
    scripted
  rw [outcome_service chosen ((execute_congr tested script).trans run), applied_recipients]

theorem outcome_first_none {first : MailAddress} {others : List MailAddress}
    (unscripted : mailet.scriptFor first.localPart = none) :
    outcome (mailet.service letters { mail with recipients := first :: others }) =
      .recorded {place | mail.records place} :=
  outcome_service_none unscripted

def SieveMailet.override (mailet : SieveMailet) (user : Text) (script : SieveScript)
    (valid : script.validate = .ok ()) : SieveMailet :=
  { mailet with
    userScripts := mailet.userScripts.insert user script
    usersValid := validate_inserted valid mailet.usersValid }

theorem scriptFor_override {user : Text} {script : SieveScript}
    (valid : script.validate = .ok ()) :
    (mailet.override user script valid).scriptFor user = some script := by
  rw [SieveMailet.scriptFor, SieveMailet.getScriptForUser, SieveMailet.override]
  change (AList.lookup user (mailet.userScripts.insert user script)).or _ = _
  rw [AList.lookup_insert, Option.some_or]

theorem scriptFor_override_ne {user name : Text} {script : SieveScript}
    (valid : script.validate = .ok ()) (other : name ≠ user) :
    (mailet.override user script valid).scriptFor name = mailet.scriptFor name := by
  rw [SieveMailet.scriptFor, SieveMailet.getScriptForUser, SieveMailet.override]
  change (AList.lookup name (mailet.userScripts.insert user script)).or _ = _
  rw [AList.lookup_insert_ne other]
  rfl

theorem overridden (letters : CaseMapping) (mailet : SieveMailet) (mail : Mail) (decided : Outcome)
    (first : MailAddress) (others : List MailAddress) : ∃ script valid,
      outcome ((mailet.override first.localPart script valid).service letters
        { mail with recipients := first :: others }) ≠ decided := by
  cases decided with
  | dropped =>
      have run : execute letters { mail with recipients := [first] } ⟨[.keep], []⟩ =
        .ok [.keep] := rfl
      refine ⟨⟨[.keep], []⟩, rfl, ?_⟩
      rw [outcome_first (scriptFor_override rfl) run, applied_recorded (by simp)]
      exact Outcome.noConfusion
  | recorded destinations =>
      have run : execute letters { mail with recipients := [first] } ⟨[.discard], []⟩ =
        .ok [.discard] := rfl
      refine ⟨⟨[.discard], []⟩, rfl, ?_⟩
      rw [outcome_first (scriptFor_override rfl) run, applied_dropped List.mem_cons_self]
      exact Outcome.noConfusion

theorem Decides.of_head {first : MailAddress} (decides : Decides letters mailet mail first)
    (head : mail.recipients.head? = some first) :
    (∀ recipient ∈ mail.recipients, recipient.localPart = first.localPart) ∧
      ∀ script actions, mailet.scriptFor first.localPart = some script →
        execute letters mail script = .ok actions → Recordable actions ∧
          ∀ recipient ∈ mail.recipients, ∀ others,
            execute letters { mail with recipients := [recipient] } script = .ok others →
              applied mail others = applied mail actions := by
  have moved : ∀ recipient ∈ mail.recipients,
      (recipient :: mail.recipients.erase recipient).Perm mail.recipients :=
    fun recipient member => (List.perm_cons_erase member).symm
  have users : ∀ recipient ∈ mail.recipients, recipient.localPart = first.localPart := by
    intro recipient member
    by_contra differ
    obtain ⟨script, valid, otherwise⟩ := overridden letters mailet mail
      (outcome (mailet.service letters mail)) recipient (mail.recipients.erase recipient)
    exact otherwise (decides.own _ _ (moved recipient member)
      (scriptFor_override_ne valid (Ne.symm differ)))
  refine ⟨users, fun script actions scripted run => ?_⟩
  have chosen : mailet.chosenScript mail = some script := by
    rw [SieveMailet.chosenScript, SieveMailet.extractUser, head]
    exact scripted
  constructor
  · rw [← represented_iff mail actions]
    have represented := decides.represented script actions chosen run
    rwa [outcome_service chosen run] at represented
  · intro recipient member others ran
    have same := decides.own mailet _ (moved recipient member) rfl
    rwa [outcome_first ((users recipient member).symm ▸ scripted) ran,
      outcome_service chosen run] at same

/-- A mailet decides for each recipient of a mail as it should, exactly when the
recipients are of one user, whose actions take nothing away from each other and come to
the same whichever of the addresses is the first. -/
theorem service_decides_iff (letters : CaseMapping) (mailet : SieveMailet) (mail : Mail) :
    (∀ recipient ∈ mail.recipients, Decides letters mailet mail recipient) ↔
      ∀ first, mail.recipients.head? = some first →
        (∀ recipient ∈ mail.recipients, recipient.localPart = first.localPart) ∧
          ∀ script actions, mailet.scriptFor first.localPart = some script →
            execute letters mail script = .ok actions → Recordable actions ∧
              ∀ recipient ∈ mail.recipients, ∀ others,
                execute letters { mail with recipients := [recipient] } script = .ok others →
                  applied mail others = applied mail actions := by
  constructor
  · intro decides first head
    exact (decides first (List.mem_of_head? head)).of_head head
  · intro condition recipient member
    obtain ⟨first, head⟩ : ∃ first, mail.recipients.head? = some first :=
      ⟨_, List.head?_eq_some_head (List.ne_nil_of_mem member)⟩
    obtain ⟨users, condition⟩ := condition first head
    have chosen : mailet.chosenScript mail = mailet.scriptFor first.localPart := by
      rw [SieveMailet.chosenScript, SieveMailet.extractUser, head]
      rfl
    have represented : ∀ script actions, mailet.chosenScript mail = some script →
        execute letters mail script = .ok actions →
          ∀ action ∈ actions, ∀ place, destination action = some place →
            (outcome (mailet.service letters mail)).Represents place := by
      intro script actions scripted run
      rw [outcome_service scripted run]
      exact (represented_iff mail actions).mpr
        (condition script actions (chosen.symm.trans scripted) run).1
    refine ⟨fun other recipients permuted scripts => ?_, represented,
      fun dropped script actions scripted run action inside => ?_⟩
    · cases recipients with
      | nil =>
          rw [permuted.symm.eq_nil] at member
          cases member
      | cons second others =>
          have inside : second ∈ mail.recipients := permuted.subset List.mem_cons_self
          rw [users recipient member, ← users second inside] at scripts
          cases scripted : mailet.scriptFor first.localPart with
          | none =>
              rw [outcome_first_none (by rw [scripts, users second inside, scripted]),
                outcome_service_none (chosen.trans scripted)]
          | some script =>
              have same := (condition script _ scripted (execute_eq letters mail script)).2
                second inside _ (execute_eq letters _ script)
              rw [outcome_first (by rw [scripts, users second inside, scripted])
                (execute_eq letters _ script), same,
                outcome_service (chosen.trans scripted) (execute_eq letters mail script)]
    · cases place : destination action with
      | none => rfl
      | some place' =>
          obtain ⟨destinations, recorded, _⟩ :=
            represented script actions scripted run action inside place' place
          rw [dropped] at recorded
          cases recorded

end Service

/-- Filing a mail after keeping it loses the copy in the inbox. -/
theorem kept_and_filed_loses_inbox :
    let script : SieveScript := ⟨[.keep, .fileinto "Archive".toList], []⟩
    let mailet := SieveMailet.new.override alice.localPart script rfl
    ¬Decides asciiCase mailet (noteFromAlice [alice]) alice := by
  intro script mailet decides
  have recordable := ((decides.of_head rfl).2 script [.keep, .fileinto "Archive".toList] rfl rfl).1
  have inbox := recordable.keeps .keep List.mem_cons_self rfl _ rfl
  cases inbox

end Rusmes
