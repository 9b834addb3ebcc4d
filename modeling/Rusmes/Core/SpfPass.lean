import Rusmes.Core.Spf

/-!
An SPF evaluation that passes: the includes that were followed, and the mechanism at their end
that covers the client.
-/

namespace Rusmes

open WireText

section Pass

variable (ctx : SpfContext) (senderIp : IpAddr)

def AddressCovers (domain : Text) (bits : Option Nat) : Prop :=
  match senderIp with
  | .v4 _ => ∃ records, ctx.ipv4Lookup domain = .ok records ∧
      ∃ record ∈ records, (IpNetwork.v4 record (bits.getD 32)).contains senderIp = true
  | .v6 _ => ∃ records, ctx.ipv6Lookup domain = .ok records ∧
      ∃ record ∈ records, (IpNetwork.v6 record (bits.getD 128)).contains senderIp = true

def Covers (senderDomain : Text) : SpfMechanism → Prop
  | .a domain bits => AddressCovers ctx senderIp (domain.getD senderDomain) bits
  | .mx domain bits => ∃ hosts, ctx.mxLookup (domain.getD senderDomain) = .ok hosts ∧
      ∃ host ∈ hosts, AddressCovers ctx senderIp (host.rdropWhile (· = '.')) bits
  | .ip4 network => network.contains senderIp = true
  | .ip6 network => network.contains senderIp = true
  | .include _ => False
  | .all => True
  | .exists domain => ∃ records, ctx.ipv4Lookup domain = .ok records ∧ records ≠ []
  | .ptr _ => False

def Silent (includes : Text → Nat → SpfResult × Nat) (senderDomain : Text) :
    List (SpfQualifier × SpfMechanism) → Nat → Nat → Prop
  | [], lookupCount, after => lookupCount = after
  | (_, mechanism) :: mechanisms, lookupCount, after => ∃ middle,
      mechanismMatches ctx senderIp includes senderDomain mechanism lookupCount = (false, middle) ∧
        Silent includes senderDomain mechanisms middle after

inductive PassChain : Nat → Text → Nat → List Text → Prop
  | covers {levels lookupCount middle : Nat} {domain record : Text} {mechanism : SpfMechanism}
      {before after : List (SpfQualifier × SpfMechanism)}
      (found : lookupSpfRecord ctx domain = .ok (some record))
      (parsed : parseSpfRecord ctx record = .ok (before ++ (.pass, mechanism) :: after))
      (unmatched : Silent ctx senderIp (evaluateWithin ctx senderIp levels) domain before
        lookupCount middle)
      (covers : Covers ctx senderIp domain mechanism) :
      PassChain (levels + 1) domain lookupCount [domain]
  | follows {levels lookupCount middle : Nat} {domain record next : Text} {chain : List Text}
      {before after : List (SpfQualifier × SpfMechanism)}
      (found : lookupSpfRecord ctx domain = .ok (some record))
      (parsed : parseSpfRecord ctx record = .ok (before ++ (.pass, .include next) :: after))
      (unmatched : Silent ctx senderIp (evaluateWithin ctx senderIp levels) domain before
        lookupCount middle)
      (rest : PassChain levels next middle chain) :
      PassChain (levels + 1) domain lookupCount (domain :: chain)

end Pass

section Matches

variable {ctx : SpfContext} {senderIp : IpAddr} {domain : Text} {bits : Option Nat}
  {lookupCount : Nat}

theorem anyContains_true {width : Nat} {network : BitVec width → Nat → IpNetwork} {bits : Nat}
    {records : List (BitVec width)}
    (found : anyContains senderIp network bits records = .ok true) :
    ∃ record ∈ records, (network record bits).contains senderIp = true := by
  induction records with
  | nil => cases found
  | cons record records ih =>
      rw [anyContains] at found
      split at found
      · cases found
      · split at found
        · rename_i inside
          exact ⟨record, List.mem_cons_self, inside⟩
        · obtain ⟨other, member, inside⟩ := ih found
          exact ⟨other, List.mem_cons_of_mem _ member, inside⟩

theorem unwrap_true {answer : Except Text Bool × Nat} (said : (unwrapOrFalse answer).1 = true) :
    answer.1 = .ok true := by
  obtain ⟨outcome, count⟩ := answer
  cases outcome with
  | error error => cases said
  | ok value =>
      cases value with
      | false => cases said
      | true => rfl

theorem bind_contains {width : Nat} {network : BitVec width → Nat → IpNetwork} {bits : Nat}
    {lookup : Except Text (List (BitVec width))}
    (found : lookup.bind (anyContains senderIp network bits) = .ok true) :
    ∃ records, lookup = .ok records ∧
      ∃ record ∈ records, (network record bits).contains senderIp = true := by
  cases lookup with
  | error error => cases found
  | ok records => exact ⟨records, rfl, anyContains_true found⟩

theorem checkAMechanism_true
    (found : (checkAMechanism ctx senderIp domain bits lookupCount).1 = .ok true) :
    AddressCovers ctx senderIp domain bits := by
  unfold checkAMechanism at found
  dsimp only at found
  split at found
  · cases found
  · cases senderIp with
    | v4 address => exact bind_contains found
    | v6 address => exact bind_contains found

theorem checkHosts_true {hosts : List Text}
    (found : (checkHosts ctx senderIp bits hosts lookupCount).1 = true) :
    ∃ host ∈ hosts, AddressCovers ctx senderIp (host.rdropWhile (· = '.')) bits := by
  induction hosts generalizing lookupCount with
  | nil => cases found
  | cons host hosts ih =>
      rw [checkHosts] at found
      split at found
      · rename_i here
        exact ⟨host, List.mem_cons_self, checkAMechanism_true (unwrap_true here)⟩
      · obtain ⟨other, member, covers⟩ := ih found
        exact ⟨other, List.mem_cons_of_mem _ member, covers⟩

theorem checkMxMechanism_true
    (found : (checkMxMechanism ctx senderIp domain bits lookupCount).1 = .ok true) :
    ∃ hosts, ctx.mxLookup domain = .ok hosts ∧
      ∃ host ∈ hosts, AddressCovers ctx senderIp (host.rdropWhile (· = '.')) bits := by
  rw [checkMxMechanism] at found
  split at found
  · cases found
  · split at found
    · cases found
    · rename_i hosts answered
      exact ⟨hosts, answered, checkHosts_true (Except.ok.inj found)⟩

theorem checkExists_true (found : (checkExists ctx domain lookupCount).1 = .ok true) :
    ∃ records, ctx.ipv4Lookup domain = .ok records ∧ records ≠ [] := by
  rw [checkExists] at found
  split at found
  · cases found
  · split at found
    · rename_i records answered
      refine ⟨records, answered, ?_⟩
      rintro rfl
      cases found
    · cases found

theorem mechanismMatches_true {includes : Text → Nat → SpfResult × Nat} {senderDomain : Text}
    {mechanism : SpfMechanism}
    (said : (mechanismMatches ctx senderIp includes senderDomain mechanism lookupCount).1 = true) :
    Covers ctx senderIp senderDomain mechanism ∨
      ∃ next, mechanism = .include next ∧ (includes next lookupCount).1 = .pass := by
  cases mechanism with
  | a domain bits => exact Or.inl (checkAMechanism_true (unwrap_true said))
  | mx domain bits => exact Or.inl (checkMxMechanism_true (unwrap_true said))
  | ip4 network => exact Or.inl said
  | ip6 network => exact Or.inl said
  | «include» domain => exact Or.inr ⟨domain, rfl, of_decide_eq_true said⟩
  | all => exact Or.inl trivial
  | «exists» domain => exact Or.inl (checkExists_true (unwrap_true said))
  | ptr domain => cases said

end Matches

section Chains

variable {ctx : SpfContext} {senderIp : IpAddr}

theorem evaluateMechanisms_pass {includes : Text → Nat → SpfResult × Nat} {senderDomain : Text}
    {mechanisms : List (SpfQualifier × SpfMechanism)} {lookupCount : Nat}
    (passed : (evaluateMechanisms ctx senderIp includes senderDomain mechanisms lookupCount).1 =
      .pass) :
    ∃ before mechanism after middle, mechanisms = before ++ (.pass, mechanism) :: after ∧
      Silent ctx senderIp includes senderDomain before lookupCount middle ∧
      (mechanismMatches ctx senderIp includes senderDomain mechanism middle).1 = true := by
  induction mechanisms generalizing lookupCount with
  | nil => cases passed
  | cons entry mechanisms ih =>
      obtain ⟨qualifier, mechanism⟩ := entry
      rw [evaluateMechanisms] at passed
      split at passed
      · rename_i said
        have plus : qualifier = .pass := by
          cases qualifier with
          | pass => rfl
          | fail => cases passed
          | softFail => cases passed
          | neutral => cases passed
        subst plus
        exact ⟨[], mechanism, mechanisms, lookupCount, rfl, rfl, said⟩
      · rename_i silent
        obtain ⟨before, other, after, middle, rfl, unmatched, said⟩ := ih passed
        refine ⟨(qualifier, mechanism) :: before, other, after, middle, rfl,
          ⟨_, ?_, unmatched⟩, said⟩
        rw [Bool.not_eq_true] at silent
        exact Prod.ext silent rfl

theorem passChain_of_pass {levels lookupCount : Nat} {domain : Text}
    (passed : (evaluateWithin ctx senderIp levels domain lookupCount).1 = .pass) :
    ∃ chain, PassChain ctx senderIp levels domain lookupCount chain := by
  induction levels generalizing domain lookupCount with
  | zero => cases passed
  | succ levels ih =>
      rw [evaluateWithin, evaluateRecord] at passed
      split at passed
      · rename_i record found
        split at passed
        · rename_i mechanisms parsed
          obtain ⟨before, mechanism, after, middle, rfl, unmatched, said⟩ :=
            evaluateMechanisms_pass passed
          rcases mechanismMatches_true said with covers | ⟨next, rfl, included⟩
          · exact ⟨[domain], .covers found parsed unmatched covers⟩
          · obtain ⟨chain, rest⟩ := ih included
            exact ⟨domain :: chain, .follows found parsed unmatched rest⟩
        · cases passed
      · cases passed
      · cases passed

theorem PassChain.bounds {levels lookupCount : Nat} {domain : Text} {chain : List Text}
    (passes : PassChain ctx senderIp levels domain lookupCount chain) :
    chain.head? = some domain ∧ chain.length ≤ levels := by
  induction passes with
  | covers => simp
  | follows _ _ _ _ ih =>
      refine ⟨rfl, ?_⟩
      rw [List.length_cons]
      omega

theorem evaluateSpfInternal_unique {evaluate : Text → Nat → Nat → SpfResult × Nat}
    (recursion : ∀ domain lookupCount depth, evaluate domain lookupCount depth =
      if 10 < depth then (.permError, lookupCount)
      else evaluateRecord ctx senderIp (fun domain count => evaluate domain count (depth + 1))
        domain lookupCount) :
    ∀ domain lookupCount depth,
      evaluate domain lookupCount depth = evaluateSpfInternal ctx senderIp domain lookupCount depth := by
  suffices each : ∀ left depth, left + depth = 11 ∨ (left = 0 ∧ 10 < depth) →
      (fun domain count => evaluate domain count depth) =
        fun domain count => evaluateSpfInternal ctx senderIp domain count depth by
    intro domain lookupCount depth
    exact congrFun (congrFun (each (11 - depth) depth (by omega)) domain) lookupCount
  intro left
  induction left with
  | zero =>
      intro depth deep
      funext domain count
      rw [recursion, evaluateSpfInternal_eq, if_pos (by omega), if_pos (by omega)]
  | succ left ih =>
      intro depth level
      funext domain count
      rw [recursion, evaluateSpfInternal_eq, ih (depth + 1) (by omega)]

/-- Every evaluation ends, and one that passes followed a chain of includes, at most eleven
domains long, to a mechanism that covers the client. -/
theorem spf_pass_sound (ctx : SpfContext) (senderIp : IpAddr) :
    (∀ evaluate : Text → Nat → Nat → SpfResult × Nat,
      (∀ domain lookupCount depth, evaluate domain lookupCount depth =
        if 10 < depth then (.permError, lookupCount)
        else evaluateRecord ctx senderIp (fun domain count => evaluate domain count (depth + 1))
          domain lookupCount) ↔
      ∀ domain lookupCount depth, evaluate domain lookupCount depth =
        evaluateSpfInternal ctx senderIp domain lookupCount depth) ∧
    ∀ domain lookupCount, (evaluateSpfInternal ctx senderIp domain lookupCount 0).1 = .pass →
      ∃ chain, chain.head? = some domain ∧ chain.length ≤ 11 ∧
        PassChain ctx senderIp 11 domain lookupCount chain := by
  refine ⟨fun evaluate => ⟨evaluateSpfInternal_unique, fun same => ?_⟩, ?_⟩
  · intro domain lookupCount depth
    rw [same, evaluateSpfInternal_eq]
    simp only [same]
  · intro domain lookupCount passed
    obtain ⟨chain, passes⟩ := passChain_of_pass passed
    exact ⟨chain, passes.bounds.1, passes.bounds.2, passes⟩

end Chains

def textZone (records : List (Text × Text)) : SpfContext where
  txtLookup domain := .ok ((records.filter (·.1 = domain)).map fun record => [encodeUtf8 record.2])
  ipv4Lookup _ := .error "no records found".toList
  ipv6Lookup _ := .error "no records found".toList
  mxLookup _ := .error "no records found".toList
  parseIpv4Addr text := if text = "192.0.2.1".toList then some 0xC0000201#32 else none
  parseIpv6Addr _ := none
  parseIpv4Network _ := none
  parseIpv6Network _ := none

def relayClient : IpAddr := .v4 0xC0000201#32

def includedZone : SpfContext :=
  textZone [("example.com".toList, "v=spf1 mx include:relay.example.com -all".toList),
    ("relay.example.com".toList, "v=spf1 ip4:192.0.2.1 -all".toList)]

theorem relay_passes : ∃ chain, chain.head? = some "example.com".toList ∧ chain.length ≤ 11 ∧
    PassChain includedZone relayClient 11 "example.com".toList 0 chain :=
  (spf_pass_sound includedZone relayClient).2 _ 0 (by decide +kernel)

end Rusmes
