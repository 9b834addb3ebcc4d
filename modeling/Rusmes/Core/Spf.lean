import Mathlib.Data.List.Infix
import Rusmes.Library.WireText
import Rusmes.Smtp.Network

/-!
The SPF check of `spf_check.rs`. What the name server answers and how an address or a network
in CIDR notation is read are parameters.
-/

namespace Rusmes

open WireText

inductive SpfMechanism
  | a (domain : Option Text) (bits : Option Nat)
  | mx (domain : Option Text) (bits : Option Nat)
  | ip4 (network : IpNetwork)
  | ip6 (network : IpNetwork)
  | «include» (domain : Text)
  | all
  | «exists» (domain : Text)
  | ptr (domain : Option Text)
  deriving DecidableEq, Repr

inductive SpfQualifier
  | pass
  | fail
  | softFail
  | neutral
  deriving DecidableEq, Repr

inductive SpfResult
  | pass
  | fail
  | softFail
  | neutral
  | tempError
  | permError
  | none
  deriving DecidableEq, Repr

def SpfQualifier.result : SpfQualifier → SpfResult
  | .pass => .pass
  | .fail => .fail
  | .softFail => .softFail
  | .neutral => .neutral

/-- The resolver and the readers of addresses and networks. An answer is a list of records or
the text of an error. -/
structure SpfContext where
  txtLookup : Text → Except Text (List (List Octets))
  ipv4Lookup : Text → Except Text (List (BitVec 32))
  ipv6Lookup : Text → Except Text (List (BitVec 128))
  mxLookup : Text → Except Text (List Text)
  parseIpv4Addr : Text → Option (BitVec 32)
  parseIpv6Addr : Text → Option (BitVec 128)
  parseIpv4Network : Text → Option (BitVec 32 × Nat)
  parseIpv6Network : Text → Option (BitVec 128 × Nat)

def noRecordsFound (error : Text) : Bool := "no records found".toList <:+: error

def parseU8 (text : Text) : Option Nat := (parseUsize text).filter (· < 256)

def parseQualifier (text : Text) : SpfQualifier × Text :=
  match text with
  | '+' :: rest => (.pass, rest)
  | '-' :: rest => (.fail, rest)
  | '~' :: rest => (.softFail, rest)
  | '?' :: rest => (.neutral, rest)
  | _ => (.pass, text)

def parseDomainAndPrefix (text : Text) : Option (Option Text × Option Nat) :=
  match text with
  | [] => some (none, none)
  | ':' :: rest =>
      match splitOnce '/' rest with
      | some (domain, bits) => (parseU8 bits).map fun bits => (some domain, some bits)
      | none => some (some rest, none)
  | '/' :: bits => (parseU8 bits).map fun bits => (none, some bits)
  | _ => none

/-- Parsing what stands behind a qualifier; the text of an error is only logged. -/
def parseMechanism (ctx : SpfContext) (text : Text) : Option SpfMechanism :=
  if text = "all".toList then some .all
  else if let some domain := stripPrefix "include:".toList text then some (.include domain)
  else if let some network := stripPrefix "ip4:".toList text then
    if '/' ∈ network then (ctx.parseIpv4Network network).map fun (address, bits) =>
      .ip4 (.v4 address bits)
    else (ctx.parseIpv4Addr network).map fun address => .ip4 (.v4 address 32)
  else if let some network := stripPrefix "ip6:".toList text then
    if '/' ∈ network then (ctx.parseIpv6Network network).map fun (address, bits) =>
      .ip6 (.v6 address bits)
    else (ctx.parseIpv6Addr network).map fun address => .ip6 (.v6 address 128)
  else if let some domain := stripPrefix "exists:".toList text then some (.exists domain)
  else if "a:".toList <+: text ∨ "a/".toList <+: text ∨ text = ['a'] then
    (parseDomainAndPrefix (text.drop 1)).map fun (domain, bits) => .a domain bits
  else if "mx:".toList <+: text ∨ "mx/".toList <+: text ∨ text = "mx".toList then
    (parseDomainAndPrefix (text.drop 2)).map fun (domain, bits) => .mx domain bits
  else if "ptr:".toList <+: text ∨ text = "ptr".toList then
    some (.ptr (if 4 < text.length then some (text.drop 4) else none))
  else none

def recordTerms (record : Text) : List Text := (splitWhitespace record).drop 1

def isModifier (term : Text) : Bool :=
  '=' ∈ term && !("ip4:".toList <+: term) && !("ip6:".toList <+: term)

def parseTerm (ctx : SpfContext) (term : Text) : Option (SpfQualifier × SpfMechanism) :=
  let (qualifier, mechanism) := parseQualifier term
  (parseMechanism ctx mechanism).map fun mechanism => (qualifier, mechanism)

/-- Modifiers and what cannot be parsed are left out; the result is never an error. -/
def parseSpfRecord (ctx : SpfContext) (record : Text) :
    Except Text (List (SpfQualifier × SpfMechanism)) :=
  .ok ((recordTerms record).filterMap fun term =>
    if isModifier term then none else parseTerm ctx term)

section Lookups

variable (ctx : SpfContext) (senderIp : IpAddr)

def lookupSpfRecord (domain : Text) : Except Text (Option Text) :=
  match ctx.txtLookup domain with
  | .ok records => .ok ((records.map fun strings => strings.flatMap decodeLossy).find?
      fun text => "v=spf1".toList <+: text)
  | .error error =>
      if noRecordsFound error then .ok none else .error ("DNS lookup error: ".toList ++ error)

/-- The first of the networks of the records that has the address; a prefix that is too long
for a network is an error. -/
def anyContains {width : Nat} (network : BitVec width → Nat → IpNetwork) (bits : Nat) :
    List (BitVec width) → Except Text Bool
  | [] => .ok false
  | record :: records =>
      if width < bits then .error "invalid prefix".toList
      else if (network record bits).contains senderIp then .ok true
      else anyContains network bits records

def checkAMechanism (domain : Text) (bits : Option Nat) (lookupCount : Nat) :
    Except Text Bool × Nat :=
  let lookupCount := lookupCount + 1
  if 10 < lookupCount then (.error "Too many DNS lookups".toList, lookupCount)
  else
    (match senderIp with
      | .v4 _ => (ctx.ipv4Lookup domain).bind (anyContains senderIp .v4 (bits.getD 32))
      | .v6 _ => (ctx.ipv6Lookup domain).bind (anyContains senderIp .v6 (bits.getD 128)),
      lookupCount)

def unwrapOrFalse (answer : Except Text Bool × Nat) : Bool × Nat :=
  (answer.1.toOption.getD false, answer.2)

def checkHosts (bits : Option Nat) : List Text → Nat → Bool × Nat
  | [], lookupCount => (false, lookupCount)
  | host :: hosts, lookupCount =>
      let answer := unwrapOrFalse (checkAMechanism ctx senderIp
        (host.rdropWhile (· = '.')) bits lookupCount)
      if answer.1 then (true, answer.2) else checkHosts bits hosts answer.2

def checkMxMechanism (domain : Text) (bits : Option Nat) (lookupCount : Nat) :
    Except Text Bool × Nat :=
  let lookupCount := lookupCount + 1
  if 10 < lookupCount then (.error "Too many DNS lookups".toList, lookupCount)
  else
    match ctx.mxLookup domain with
    | .error error => (.error error, lookupCount)
    | .ok hosts =>
        let answer := checkHosts ctx senderIp bits hosts lookupCount
        (.ok answer.1, answer.2)

def checkExists (domain : Text) (lookupCount : Nat) : Except Text Bool × Nat :=
  let lookupCount := lookupCount + 1
  if 10 < lookupCount then (.error "Too many DNS lookups".toList, lookupCount)
  else
    match ctx.ipv4Lookup domain with
    | .ok records => (.ok (0 < records.length), lookupCount)
    | .error _ => (.ok false, lookupCount)

end Lookups

section Evaluation

variable (ctx : SpfContext) (senderIp : IpAddr)

/-- Whether a mechanism of a record matches; `includes` is the evaluation of another domain. -/
def mechanismMatches (includes : Text → Nat → SpfResult × Nat) (senderDomain : Text)
    (mechanism : SpfMechanism) (lookupCount : Nat) : Bool × Nat :=
  match mechanism with
  | .a domain bits =>
      unwrapOrFalse (checkAMechanism ctx senderIp (domain.getD senderDomain) bits lookupCount)
  | .mx domain bits =>
      unwrapOrFalse (checkMxMechanism ctx senderIp (domain.getD senderDomain) bits lookupCount)
  | .ip4 network => (network.contains senderIp, lookupCount)
  | .ip6 network => (network.contains senderIp, lookupCount)
  | .include domain =>
      let (result, lookupCount) := includes domain lookupCount
      (result = .pass, lookupCount)
  | .exists domain => unwrapOrFalse (checkExists ctx domain lookupCount)
  | .ptr _ => (false, lookupCount)
  | .all => (true, lookupCount)

def evaluateMechanisms (includes : Text → Nat → SpfResult × Nat) (senderDomain : Text) :
    List (SpfQualifier × SpfMechanism) → Nat → SpfResult × Nat
  | [], lookupCount => (.neutral, lookupCount)
  | (qualifier, mechanism) :: mechanisms, lookupCount =>
      let answer := mechanismMatches ctx senderIp includes senderDomain mechanism lookupCount
      if answer.1 then (qualifier.result, answer.2)
      else evaluateMechanisms includes senderDomain mechanisms answer.2

def evaluateRecord (includes : Text → Nat → SpfResult × Nat) (senderDomain : Text)
    (lookupCount : Nat) : SpfResult × Nat :=
  match lookupSpfRecord ctx senderDomain with
  | .ok (some record) =>
      match parseSpfRecord ctx record with
      | .ok mechanisms => evaluateMechanisms ctx senderIp includes senderDomain mechanisms lookupCount
      | .error _ => (.permError, lookupCount)
  | .ok none => (.none, lookupCount)
  | .error _ => (.tempError, lookupCount)

def evaluateWithin : Nat → Text → Nat → SpfResult × Nat
  | 0 => fun _ lookupCount => (.permError, lookupCount)
  | levels + 1 => evaluateRecord ctx senderIp (evaluateWithin levels)

def evaluateSpfInternal (senderDomain : Text) (lookupCount recursionDepth : Nat) :
    SpfResult × Nat :=
  evaluateWithin ctx senderIp (11 - recursionDepth) senderDomain lookupCount

theorem evaluateSpfInternal_eq (senderDomain : Text) (lookupCount recursionDepth : Nat) :
    evaluateSpfInternal ctx senderIp senderDomain lookupCount recursionDepth =
      if 10 < recursionDepth then (.permError, lookupCount)
      else evaluateRecord ctx senderIp
        (fun domain count => evaluateSpfInternal ctx senderIp domain count (recursionDepth + 1))
        senderDomain lookupCount := by
  rw [evaluateSpfInternal]
  split
  · have none : 11 - recursionDepth = 0 := by omega
    rw [none]
    rfl
  · have level : 11 - recursionDepth = (11 - (recursionDepth + 1)) + 1 := by omega
    rw [level]
    rfl

end Evaluation

end Rusmes
