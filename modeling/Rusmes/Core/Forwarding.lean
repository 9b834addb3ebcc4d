import Mathlib.Data.List.Dedup
import Mathlib.Data.List.Perm.Subperm
import Mathlib.Logic.Relation
import Rusmes.Core.Forward
import Rusmes.Library.Words
import Rusmes.Proto.AddressKeys

/-!
Forwarding again and again: the passes end, nobody is taken off the list, and the list is what
the rules reach, as long as no pass is to add an address twice.
-/

namespace Rusmes

open WireText

namespace ForwardMailet

section Attributes

variable {mail : Mail} {name other : String} {value : Text} {more : List Text}

theorem attributeText_set (text : Text) :
    (mail.setAttribute name.toList (.string text)).attributeText name = some text := by
  rw [Mail.attributeText, Mail.getAttribute, Mail.setAttribute]
  dsimp only
  rw [AList.lookup_insert]
  rfl

theorem getAttribute_set_ne (apart : other ≠ name) (value : AttributeValue) :
    (mail.setAttribute name.toList value).getAttribute other.toList =
      mail.getAttribute other.toList :=
  AList.lookup_insert_ne fun same => apart (String.toList_injective same)

theorem attributeText_set_ne (apart : other ≠ name) (value : AttributeValue) :
    (mail.setAttribute name.toList value).attributeText other = mail.attributeText other :=
  congrArg (Option.bind · AttributeValue.asStr) (getAttribute_set_ne apart value)

theorem attributeText_once_ne (apart : other ≠ name) (value : Option Text) :
    (mail.setAttributeOnce name value).attributeText other = mail.attributeText other := by
  unfold Mail.setAttributeOnce
  split
  · exact attributeText_set_ne apart _
  · rfl

theorem attributeText_extend_ne (apart : other ≠ name) (more : List Text) :
    (mail.extendAttribute name more).attributeText other = mail.attributeText other :=
  attributeText_set_ne apart _

theorem once_recipients (value : Option Text) :
    (mail.setAttributeOnce name value).recipients = mail.recipients := by
  unfold Mail.setAttributeOnce
  split <;> rfl

theorem once_sender (value : Option Text) :
    (mail.setAttributeOnce name value).sender = mail.sender := by
  unfold Mail.setAttributeOnce
  split <;> rfl

end Attributes

section Headers

variable (mailet : ForwardMailet) (now : Text) (mail : Mail) (forwardTo : List MailAddress)

theorem marked_recipients :
    (mailet.addForwardingHeaders now mail forwardTo).recipients = mail.recipients := by
  simp only [addForwardingHeaders, once_recipients, Mail.extendAttribute, Mail.setAttribute]

theorem marked_sender :
    (mailet.addForwardingHeaders now mail forwardTo).sender = mail.sender := by
  simp only [addForwardingHeaders, once_sender, Mail.extendAttribute, Mail.setAttribute]

theorem marked_to :
    (mailet.addForwardingHeaders now mail forwardTo).attributeText "header.X-Forwarded-To" =
      some (joinWith ", ".toList ((mail.attributeText "header.X-Forwarded-To").toList ++
        forwardTo.map MailAddress.asString)) := by
  rw [addForwardingHeaders]
  rw [attributeText_once_ne (by decide), Mail.extendAttribute, attributeText_set,
    attributeText_extend_ne (by decide), attributeText_once_ne (by decide),
    attributeText_once_ne (by decide), attributeText_set_ne (by decide)]

theorem marked_count :
    (mailet.addForwardingHeaders now mail forwardTo).attributeText "header.X-Forwarded-Count" =
      some (decimal (getHopCount mail + 1).toNat) := by
  rw [addForwardingHeaders]
  rw [attributeText_once_ne (by decide), attributeText_extend_ne (by decide),
    attributeText_extend_ne (by decide), attributeText_once_ne (by decide),
    attributeText_once_ne (by decide), attributeText_set]

theorem marked_from (unsent : mail.sender = none) :
    (mailet.addForwardingHeaders now mail forwardTo).attributeText "header.X-Forwarded-From" =
      mail.attributeText "header.X-Forwarded-From" := by
  have nobody : ∀ mail : Mail, mail.setAttributeOnce "header.X-Forwarded-From" none = mail := by
    intro mail
    unfold Mail.setAttributeOnce
    split
    · contradiction
    · rfl
  rw [addForwardingHeaders]
  rw [attributeText_once_ne (by decide), attributeText_extend_ne (by decide),
    attributeText_extend_ne (by decide), attributeText_once_ne (by decide), unsent,
    Option.map_none, nobody, attributeText_set_ne (by decide)]

end Headers

section Pass

variable (mailet : ForwardMailet) (now : Text) (mail : Mail)

def targets : List MailAddress := mail.recipients.flatMap mailet.forwardAddresses

def Still : Prop := mailet.maxHops ≤ getHopCount mail ∨ mailet.forwardsToAdd mail = []

/-- While passes are left, a target that is not stopped is named once, and not yet a recipient. -/
def FreshTargets : Prop :=
  getHopCount mail < mailet.maxHops → ∀ target ∈ mailet.targets mail, stops mail target = false →
    (mailet.targets mail).count target = 1 ∧ target ∉ mail.recipients

theorem forwardsToAdd_eq : mailet.forwardsToAdd mail =
    (mailet.targets mail).filter fun target => !stops mail target := by
  rw [forwardsToAdd, targets, List.filter_flatMap]

variable {mailet now mail}

theorem mem_forwardsToAdd {target : MailAddress} : target ∈ mailet.forwardsToAdd mail ↔
    target ∈ mailet.targets mail ∧ stops mail target = false := by
  rw [forwardsToAdd_eq, List.mem_filter, Bool.not_eq_true']

theorem mem_targets {target : MailAddress} : target ∈ mailet.targets mail ↔
    ∃ recipient ∈ mail.recipients, target ∈ mailet.forwardAddresses recipient :=
  List.mem_flatMap

theorem freshTargets_iff : mailet.FreshTargets mail ↔
    (getHopCount mail < mailet.maxHops → (mailet.forwardsToAdd mail).Nodup ∧
      ∀ target ∈ mailet.forwardsToAdd mail, target ∉ mail.recipients) := by
  rw [FreshTargets]
  refine imp_congr_right fun _ => ?_
  constructor
  · intro fresh
    constructor
    · rw [List.nodup_iff_count_le_one]
      intro target
      by_cases among : target ∈ mailet.forwardsToAdd mail
      · obtain ⟨named, free⟩ := mem_forwardsToAdd.mp among
        have once := (fresh target named free).1
        rw [forwardsToAdd_eq]
        exact (List.filter_sublist.count_le target).trans once.le
      · rw [List.count_eq_zero_of_not_mem among]
        exact Nat.zero_le 1
    · intro target among
      obtain ⟨named, free⟩ := mem_forwardsToAdd.mp among
      exact (fresh target named free).2
  · rintro ⟨distinct, apart⟩ target named free
    have among := mem_forwardsToAdd.mpr ⟨named, free⟩
    refine ⟨?_, apart target among⟩
    have once := List.count_eq_one_of_mem distinct among
    rw [forwardsToAdd_eq, List.count_filter (by rw [free]; rfl)] at once
    exact once

theorem service_still (still : mailet.Still mail) : (mailet.service now mail).2 = mail := by
  rw [service]
  by_cases done : mailet.maxHops ≤ getHopCount mail
  · rw [if_pos done]
  · rw [if_neg done, if_pos (still.resolve_left done)]

theorem service_moves (moves : ¬mailet.Still mail) : (mailet.service now mail).2 =
    { mailet.addForwardingHeaders now mail (mailet.forwardsToAdd mail) with
      recipients := mail.recipients ++ mailet.forwardsToAdd mail } := by
  rw [Still, not_or] at moves
  rw [service, if_neg moves.1, if_neg moves.2, ← mailet.marked_recipients now mail]

theorem hops_moves (moves : ¬mailet.Still mail) :
    (getHopCount (mailet.service now mail).2).toNat = (getHopCount mail).toNat + 1 := by
  have count : (mailet.service now mail).2.attributeText "header.X-Forwarded-Count" =
      some (decimal (getHopCount mail + 1).toNat) := by
    rw [service_moves moves]
    exact mailet.marked_count now mail _
  have left : getHopCount mail < mailet.maxHops :=
    UInt32.not_le.mp fun done => moves (Or.inl done)
  have bound := UInt32.lt_iff_toNat_lt.mp left
  have size := mailet.maxHops.toNat_lt_size
  rw [getHopCount, count]
  dsimp only
  rw [parseU32_decimal (getHopCount mail + 1).toNat_lt_size]
  change (UInt32.ofNat (getHopCount mail + 1).toNat).toNat = _
  rw [UInt32.ofNat_toNat, UInt32.toNat_add]
  have one : (1 : UInt32).toNat = 1 := rfl
  have same : UInt32.size = 2 ^ 32 := rfl
  omega

end Pass

/-! Runs. -/

def run (mailet : ForwardMailet) (now : Nat → Text) (mail : Mail) : Nat → Mail
  | 0 => mail
  | count + 1 => (mailet.service (now count) (run mailet now mail count)).2

def distinctTargets (mailet : ForwardMailet) : List MailAddress :=
  (mailet.forwardRules.entries.flatMap (·.2)).dedup

def Forwards (mailet : ForwardMailet) (recipient target : MailAddress) : Prop :=
  target ∈ mailet.forwardAddresses recipient

/-- Forwarding a mail again and again keeps the list of recipients without repetition, and ends. -/
structure SettlesWell (mailet : ForwardMailet) (now : Nat → Text) (mail : Mail) : Prop where
  distinct : ∀ count, (mailet.run now mail count).recipients.Nodup
  kept : ∀ count, (mailet.run now mail count).recipients <+:
    (mailet.run now mail (count + 1)).recipients
  noted : ∀ count, ∃ forwarded : List MailAddress, forwarded.Nodup ∧
    (mailet.run now mail count).attributeText "header.X-Forwarded-To" =
      if forwarded = [] then none
      else some (joinWith ", ".toList (forwarded.map MailAddress.asString))
  hops : ∀ count, getHopCount (mailet.run now mail count) ≤ mailet.maxHops
  ends : ∃ count ≤ mailet.maxHops.toNat, ∀ later, count ≤ later →
    mailet.run now mail later = mailet.run now mail count
  closed : mail.sender = none → mailet.distinctTargets.length < mailet.maxHops.toNat →
    ∀ count, mailet.maxHops.toNat ≤ count → ∀ address,
      address ∈ (mailet.run now mail count).recipients ↔
        ∃ recipient ∈ mail.recipients, Relation.ReflTransGen mailet.Forwards recipient address

def Unmarked (mail : Mail) : Prop :=
  ∀ name ∈ ["To", "From", "Count", "Date", "By", "For"],
    mail.getAttribute ("header.X-Forwarded-" ++ name).toList = none

structure Chain (mailet : ForwardMailet) (original : List MailAddress) (mail : Mail)
    (forwarded : List MailAddress) : Prop where
  recipients : mail.recipients = original ++ forwarded
  noted : mail.attributeText "header.X-Forwarded-To" =
    if forwarded = [] then none
    else some (joinWith ", ".toList (forwarded.map MailAddress.asString))
  hops : getHopCount mail ≤ mailet.maxHops
  passes : (getHopCount mail).toNat ≤ forwarded.length
  sources : ∀ target ∈ forwarded, ∃ recipient ∈ mail.recipients, mailet.Forwards recipient target
  reached : ∀ address ∈ mail.recipients, ∃ recipient ∈ original,
    Relation.ReflTransGen mailet.Forwards recipient address

section Runs

variable {mailet : ForwardMailet} {now : Nat → Text} {mail : Mail}
  {original forwarded : List MailAddress}

theorem attributeText_unmarked (unmarked : Unmarked mail) {name : String}
    (listed : name ∈ ["To", "From", "Count", "Date", "By", "For"]) :
    mail.attributeText ("header.X-Forwarded-" ++ name) = none := by
  rw [Mail.attributeText, unmarked name listed]
  rfl

theorem Chain.start (unmarked : Unmarked mail) : Chain mailet mail.recipients mail [] := by
  have uncounted : getHopCount mail = 0 := by
    have absent : mail.attributeText "header.X-Forwarded-Count" = none :=
      @attributeText_unmarked _ unmarked "Count" (by simp)
    rw [getHopCount, absent]
  refine ⟨(List.append_nil _).symm, ?_, ?_, ?_, ?_, ?_⟩
  · rw [if_pos rfl]
    exact @attributeText_unmarked _ unmarked "To" (by simp)
  · rw [uncounted]
    exact UInt32.le_iff_toNat_le.mpr (Nat.zero_le _)
  · rw [uncounted]
    exact le_rfl
  · intro target none
    cases none
  · intro address member
    exact ⟨address, member, .refl⟩

theorem joinWith_joined {parts more : List Text} (nonempty : parts ≠ []) (separator : Text) :
    joinWith separator (joinWith separator parts :: more) = joinWith separator (parts ++ more) := by
  induction parts with
  | nil => exact absurd rfl nonempty
  | cons part parts ih =>
      cases parts with
      | nil => rfl
      | cons second parts =>
          rw [joinWith_cons_cons, ← List.append_assoc, joinWith_first, ih (List.cons_ne_nil _ _)]
          rfl

theorem Chain.moves (chain : Chain mailet original mail forwarded) (moves : ¬mailet.Still mail)
    (now : Text) :
    Chain mailet original (mailet.service now mail).2 (forwarded ++ mailet.forwardsToAdd mail) := by
  have count := @hops_moves mailet now mail moves
  obtain ⟨left, added⟩ := not_or.mp moves
  have bound := UInt32.lt_iff_toNat_lt.mp (UInt32.not_le.mp left)
  have same := @service_moves mailet now mail moves
  have recipients : (mailet.service now mail).2.recipients =
      mail.recipients ++ mailet.forwardsToAdd mail := by rw [same]
  have named : ∀ target ∈ mailet.forwardsToAdd mail,
      ∃ recipient ∈ mail.recipients, mailet.Forwards recipient target := fun target among =>
    mem_targets.mp (mem_forwardsToAdd.mp among).1
  refine ⟨?_, ?_, ?_, ?_, ?_, ?_⟩
  · rw [recipients, chain.recipients, List.append_assoc]
  · have noted : (mailet.service now mail).2.attributeText "header.X-Forwarded-To" =
        some (joinWith ", ".toList ((mail.attributeText "header.X-Forwarded-To").toList ++
          (mailet.forwardsToAdd mail).map MailAddress.asString)) := by
      rw [same]
      exact mailet.marked_to now mail _
    rw [noted, chain.noted, if_neg (List.append_ne_nil_of_right_ne_nil _ added), List.map_append]
    by_cases first : forwarded = []
    · rw [if_pos first, first]
      rfl
    · rw [if_neg first]
      exact congrArg Option.some (joinWith_joined (by simpa using first) _)
  · rw [UInt32.le_iff_toNat_le, count]
    exact bound
  · have more := List.length_pos_of_ne_nil added
    have passes := chain.passes
    rw [count, List.length_append]
    omega
  · intro target among
    rw [recipients]
    rcases List.mem_append.mp among with old | new
    · obtain ⟨recipient, member, forwards⟩ := chain.sources target old
      exact ⟨recipient, List.mem_append_left _ member, forwards⟩
    · obtain ⟨recipient, member, forwards⟩ := named target new
      exact ⟨recipient, List.mem_append_left _ member, forwards⟩
  · intro address member
    rw [recipients] at member
    rcases List.mem_append.mp member with old | new
    · exact chain.reached address old
    · obtain ⟨recipient, inside, forwards⟩ := named address new
      obtain ⟨first, origin, path⟩ := chain.reached recipient inside
      exact ⟨first, origin, path.tail forwards⟩

theorem run_succ (count : Nat) : mailet.run now mail (count + 1) =
    (mailet.service (now count) (mailet.run now mail count)).2 := rfl

theorem Chain.run (unmarked : Unmarked mail) (count : Nat) :
    ∃ forwarded, Chain mailet mail.recipients (mailet.run now mail count) forwarded := by
  induction count with
  | zero => exact ⟨[], .start unmarked⟩
  | succ count ih =>
      obtain ⟨forwarded, chain⟩ := ih
      rw [run_succ]
      by_cases still : mailet.Still (mailet.run now mail count)
      · rw [service_still still]
        exact ⟨forwarded, chain⟩
      · exact ⟨_, chain.moves still _⟩

theorem run_still {first : Nat} (still : mailet.Still (mailet.run now mail first)) {count : Nat}
    (later : first ≤ count) : mailet.run now mail count = mailet.run now mail first := by
  induction count, later using Nat.le_induction with
  | base => rfl
  | succ count _ ih => rw [run_succ, service_still (by rwa [ih]), ih]

theorem run_hops (unmarked : Unmarked mail) (count : Nat) :
    (∃ first ≤ count, mailet.Still (mailet.run now mail first)) ∨
      (getHopCount (mailet.run now mail count)).toNat = count := by
  induction count with
  | zero =>
      right
      have uncounted : getHopCount mail = 0 := by
        have absent : mail.attributeText "header.X-Forwarded-Count" = none :=
          @attributeText_unmarked _ unmarked "Count" (by simp)
        rw [getHopCount, absent]
      rw [ForwardMailet.run, uncounted]
      rfl
  | succ count ih =>
      rcases ih with ⟨first, early, still⟩ | counted
      · exact Or.inl ⟨first, by omega, still⟩
      · by_cases still : mailet.Still (mailet.run now mail count)
        · exact Or.inl ⟨count, by omega, still⟩
        · right
          rw [run_succ, hops_moves still, counted]

theorem run_ends (unmarked : Unmarked mail) :
    ∃ first ≤ mailet.maxHops.toNat, mailet.Still (mailet.run now mail first) := by
  rcases @run_hops mailet now mail unmarked mailet.maxHops.toNat with ended | counted
  · exact ended
  · exact ⟨_, le_rfl, Or.inl (UInt32.le_iff_toNat_le.mpr counted.ge)⟩

theorem nodup_service (distinct : mail.recipients.Nodup) (now : Text) :
    (mailet.service now mail).2.recipients.Nodup ↔ mailet.FreshTargets mail := by
  rw [freshTargets_iff]
  by_cases still : mailet.Still mail
  · rw [service_still still]
    refine ⟨fun _ left => ?_, fun _ => distinct⟩
    have nothing := still.resolve_left (UInt32.not_le.mpr left)
    rw [nothing]
    exact ⟨List.nodup_nil, fun target among => absurd among List.not_mem_nil⟩
  · have left : getHopCount mail < mailet.maxHops := UInt32.not_le.mp fun done => still (.inl done)
    rw [service_moves still]
    dsimp only
    rw [List.nodup_append]
    constructor
    · rintro ⟨-, added, apart⟩ -
      exact ⟨added, fun target among member => apart target member target among rfl⟩
    · intro fresh
      obtain ⟨added, apart⟩ := fresh left
      refine ⟨distinct, added, ?_⟩
      rintro target member other among rfl
      exact apart target among member

theorem run_distinct (distinct : mail.recipients.Nodup)
    (fresh : ∀ count, mailet.FreshTargets (mailet.run now mail count)) (count : Nat) :
    (mailet.run now mail count).recipients.Nodup := by
  induction count with
  | zero => exact distinct
  | succ count ih => exact (nodup_service ih (now count)).mpr (fresh count)

/-! What is reached. -/

theorem forwards_listed {recipient target : MailAddress}
    (forwards : mailet.Forwards recipient target) : target ∈ mailet.distinctTargets := by
  have listed : ∀ key, target ∈ (mailet.forwardRules.lookup key).getD [] →
      target ∈ mailet.distinctTargets := by
    intro key member
    cases found : mailet.forwardRules.lookup key with
    | none =>
        rw [found] at member
        cases member
    | some addresses =>
        rw [found] at member
        rw [distinctTargets, List.mem_dedup, List.mem_flatMap]
        exact ⟨⟨key, addresses⟩, AList.mem_lookup_iff.mp found, member⟩
  rcases List.mem_append.mp forwards with own | domain
  · exact listed _ own
  · exact listed _ domain

theorem Chain.length_le (chain : Chain mailet original mail forwarded)
    (distinct : mail.recipients.Nodup) : forwarded.length ≤ mailet.distinctTargets.length := by
  have apart : forwarded.Nodup := by
    rw [chain.recipients] at distinct
    exact (List.nodup_append.mp distinct).2.1
  refine (apart.subperm fun target among => ?_).length_le
  obtain ⟨recipient, -, forwards⟩ := chain.sources target among
  exact forwards_listed forwards

def readChain (mail : Mail) : List Text :=
  (mail.attributeText "header.X-Forwarded-To").elim [] fun addrs => (splitOn ',' addrs).map trim

theorem stops_iff (unsent : mail.attributeText "header.X-Forwarded-From" = none)
    (target : MailAddress) : stops mail target = true ↔ target.asString ∈ readChain mail := by
  rw [stops, checkForwardingLoop, detectCircularPattern, unsent, readChain]
  cases mail.attributeText "header.X-Forwarded-To" with
  | none => simp
  | some addrs => simp [List.length_pos_iff_exists_mem]

theorem readChain_plain {text : Text} (read : text ∈ readChain mail) :
    ',' ∉ text ∧ trim text = text := by
  rw [readChain] at read
  cases noted : mail.attributeText "header.X-Forwarded-To" with
  | none =>
      rw [noted] at read
      cases read
  | some addrs =>
      rw [noted] at read
      obtain ⟨part, among, rfl⟩ := List.mem_map.mp read
      exact ⟨fun comma => splitOn_whole among (mem_trim comma), trim_trim part⟩

theorem readChain_eq (chain : Chain mailet original mail forwarded)
    (plain : ∀ target ∈ forwarded, ',' ∉ target.asString ∧ trim target.asString = target.asString) :
    readChain mail = forwarded.map MailAddress.asString := by
  rw [readChain, chain.noted]
  cases forwarded with
  | nil => rfl
  | cons first others =>
      have whole : ∀ other ∈ others.map MailAddress.asString, ',' ∉ other := by
        intro other member
        obtain ⟨target, among, rfl⟩ := List.mem_map.mp member
        exact (plain target (List.mem_cons_of_mem _ among)).1
      rw [if_neg (List.cons_ne_nil _ _), Option.elim_some, List.map_cons,
        splitOn_listed (plain first List.mem_cons_self).1 whole, List.map_cons, List.map_map,
        (plain first List.mem_cons_self).2]
      refine congrArg (first.asString :: ·) ?_
      rw [List.map_map]
      apply List.map_congr_left
      intro target among
      change trim (' ' :: target.asString) = target.asString
      rw [trim_cons_blank (by decide)]
      exact (plain target (List.mem_cons_of_mem _ among)).2

theorem Chain.closed (chain : Chain mailet original mail forwarded)
    (unsent : mail.attributeText "header.X-Forwarded-From" = none)
    (nothing : mailet.forwardsToAdd mail = []) (address : MailAddress) :
    address ∈ mail.recipients ↔
      ∃ recipient ∈ original, Relation.ReflTransGen mailet.Forwards recipient address := by
  have known : ∀ target ∈ mailet.targets mail, target.asString ∈ readChain mail := by
    intro target named
    rw [← stops_iff unsent]
    by_contra free
    have among := mem_forwardsToAdd.mpr ⟨named, Bool.not_eq_true _ ▸ free⟩
    rw [nothing] at among
    cases among
  have plain : ∀ target ∈ forwarded,
      ',' ∉ target.asString ∧ trim target.asString = target.asString := by
    intro target among
    exact readChain_plain (known target (mem_targets.mpr (chain.sources target among)))
  have step : ∀ recipient target, recipient ∈ mail.recipients →
      mailet.Forwards recipient target → target ∈ mail.recipients := by
    intro recipient target member forwards
    have read := known target (mem_targets.mpr ⟨recipient, member, forwards⟩)
    rw [readChain_eq chain plain] at read
    obtain ⟨same, among, equal⟩ := List.mem_map.mp read
    rw [chain.recipients, ← MailAddress.asString_injective equal]
    exact List.mem_append_right _ among
  constructor
  · exact chain.reached address
  · rintro ⟨recipient, origin, path⟩
    induction path with
    | refl =>
        rw [chain.recipients]
        exact List.mem_append_left _ origin
    | tail _ forwards ih => exact step _ _ ih forwards

theorem run_unsent (unmarked : Unmarked mail) (unsent : mail.sender = none) (count : Nat) :
    (mailet.run now mail count).sender = none ∧
      (mailet.run now mail count).attributeText "header.X-Forwarded-From" = none := by
  induction count with
  | zero => exact ⟨unsent, @attributeText_unmarked _ unmarked "From" (by simp)⟩
  | succ count ih =>
      rw [run_succ]
      by_cases still : mailet.Still (mailet.run now mail count)
      · rw [service_still still]
        exact ih
      · rw [service_moves still]
        exact ⟨(mailet.marked_sender _ _ _).trans ih.1, (mailet.marked_from _ _ _ ih.1).trans ih.2⟩

/-- Calls settle as they should exactly if each of them finds fresh targets. -/
theorem settles_iff (distinct : mail.recipients.Nodup) (unmarked : Unmarked mail) :
    mailet.SettlesWell now mail ↔ ∀ count, mailet.FreshTargets (mailet.run now mail count) := by
  constructor
  · intro settles count
    exact (nodup_service (settles.distinct count) (now count)).mp (settles.distinct (count + 1))
  · intro fresh
    have apart := run_distinct distinct fresh
    refine ⟨apart, ?_, ?_, ?_, ?_, ?_⟩
    · intro count
      rw [run_succ]
      by_cases still : mailet.Still (mailet.run now mail count)
      · rw [service_still still]
      · rw [service_moves still]
        exact List.prefix_append _ _
    · intro count
      obtain ⟨forwarded, chain⟩ := @Chain.run mailet now mail unmarked count
      refine ⟨forwarded, ?_, chain.noted⟩
      have whole := apart count
      rw [chain.recipients] at whole
      exact (List.nodup_append.mp whole).2.1
    · intro count
      obtain ⟨forwarded, chain⟩ := @Chain.run mailet now mail unmarked count
      exact chain.hops
    · obtain ⟨first, early, still⟩ := @run_ends mailet now mail unmarked
      exact ⟨first, early, fun later after => run_still still after⟩
    · intro unsent few count late address
      obtain ⟨first, early, still⟩ := @run_ends mailet now mail unmarked
      rw [run_still still (early.trans late)]
      obtain ⟨forwarded, chain⟩ := @Chain.run mailet now mail unmarked first
      have short := chain.length_le (apart first)
      have left : getHopCount (mailet.run now mail first) < mailet.maxHops := by
        rw [UInt32.lt_iff_toNat_lt]
        have passes := chain.passes
        omega
      exact chain.closed (run_unsent unmarked unsent first).2
        (still.resolve_left (UInt32.not_le.mpr left)) address

end Runs

def unsent (recipients : List MailAddress) : Mail :=
  Mail.new ⟨0⟩ ⟨0⟩ none recipients ⟨∅, .small []⟩ none none

theorem unsent_unmarked (recipients : List MailAddress) : Unmarked (unsent recipients) :=
  fun _ _ => rfl

def forwarder (key : Text) (target : MailAddress) : ForwardMailet :=
  ⟨AList.insert key [target] ∅, 10, "localhost".toList⟩

/-- Alice's mail goes to Bob too. -/
theorem alice_settles :
    SettlesWell (forwarder alice.asString bob) (fun _ => []) (unsent [alice]) := by
  refine (settles_iff (List.nodup_singleton _) (unsent_unmarked _)).mpr fun count => ?_
  have nothing : forwardsToAdd (forwarder alice.asString bob)
      (run (forwarder alice.asString bob) (fun _ => []) (unsent [alice]) 1) = [] := by
    decide +kernel
  rcases Nat.eq_zero_or_pos count with rfl | later
  · have only : targets (forwarder alice.asString bob) (unsent [alice]) = [bob] := by
      decide +kernel
    intro _ target named _
    change target ∈ targets (forwarder alice.asString bob) (unsent [alice]) at named
    rw [only] at named
    rw [List.mem_singleton.mp named]
    exact ⟨by decide +kernel, by decide +kernel⟩
  · rw [run_still (Or.inr nothing) later, freshTargets_iff, nothing]
    exact fun _ => ⟨List.nodup_nil, fun _ among => absurd among List.not_mem_nil⟩

def everyone : ForwardMailet :=
  forwarder "*@example.com".toList
    ⟨"list".toList, exampleCom, by decide, by decide, by decide, by simp⟩

/-- Two recipients of one domain forward to the same address, which is listed twice. -/
theorem forwarded_twice : (unsent [alice, bob]).recipients.Nodup ∧ Unmarked (unsent [alice, bob]) ∧
    ¬SettlesWell everyone (fun _ => []) (unsent [alice, bob]) := by
  refine ⟨by decide, unsent_unmarked _, fun settles => ?_⟩
  exact absurd (settles.distinct 1) (by decide +kernel)

end ForwardMailet

end Rusmes
