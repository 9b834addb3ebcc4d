import Rusmes.Core.RateLimit
import Rusmes.Smtp.AddressText

/-!
When two keys of the rate limiter share a bucket. An address is told from its text, but
the text of an IPv6 address can go on after a colon, and so can a sender.
-/

namespace Rusmes

open WireText

namespace RateLimitKey

theorem toKeyString_ip (addr : IpAddr) :
    (ip addr).toKeyString = "ip:".toList ++ addr.display := rfl

theorem toKeyString_sender (addr : Text) :
    (sender addr).toKeyString = "sender:".toList ++ addr := rfl

theorem toKeyString_pair (addr : IpAddr) (name : Text) :
    (ipAndSender addr name).toKeyString =
      "ip+sender:".toList ++ (addr.display ++ ':' :: name) :=
  List.append_assoc _ _ _

end RateLimitKey

/-- The text of the other address goes on after a colon, with what the sender begins with
up to the other sender. -/
def Continues (addr : IpAddr) (sender : Text) (other : IpAddr) (otherSender : Text) : Prop :=
  ∃ more, other.display = addr.display ++ ':' :: more ∧ sender = more ++ ':' :: otherSender

inductive RateLimitKey.Clash : RateLimitKey → RateLimitKey → Prop
  | longer {addr other : IpAddr} {sender otherSender : Text} :
      Continues addr sender other otherSender →
      Clash (.ipAndSender addr sender) (.ipAndSender other otherSender)
  | shorter {addr other : IpAddr} {sender otherSender : Text} :
      Continues addr sender other otherSender →
      Clash (.ipAndSender other otherSender) (.ipAndSender addr sender)

theorem Continues.written {addr other : IpAddr} {sender otherSender : Text}
    (continues : Continues addr sender other otherSender) :
    addr.display ++ ':' :: sender = other.display ++ ':' :: otherSender ∧ addr ≠ other := by
  obtain ⟨more, text, rfl⟩ := continues
  refine ⟨by rw [text]; simp, ?_⟩
  rintro rfl
  have lengths := congrArg List.length text
  rw [List.length_append, List.length_cons] at lengths
  omega

theorem pairs_written {addr other : IpAddr} {sender otherSender : Text}
    (same : addr.display ++ ':' :: sender = other.display ++ ':' :: otherSender) :
    (addr = other ∧ sender = otherSender) ∨ Continues addr sender other otherSender ∨
      Continues other otherSender addr sender := by
  have cut {short long : IpAddr} {front behind more : Text} (text : long.display = short.display ++ more)
      (rest : ':' :: front = more ++ ':' :: behind) :
      (short = long ∧ front = behind) ∨ Continues short front long behind := by
    cases more with
    | nil =>
        rw [List.append_nil] at text
        exact Or.inl ⟨(IpAddr.display_injective text).symm, (List.cons.inj rest).2⟩
    | cons first more =>
        obtain ⟨rfl, front⟩ := List.cons.inj rest
        exact Or.inr ⟨more, text, front⟩
  rcases List.append_eq_append_iff.mp same with ⟨more, text, rest⟩ | ⟨more, text, rest⟩
  · rcases cut text rest with equal | continues
    · exact Or.inl equal
    · exact Or.inr (Or.inl continues)
  · rcases cut text rest with ⟨addresses, senders⟩ | continues
    · exact Or.inl ⟨addresses.symm, senders.symm⟩
    · exact Or.inr (Or.inr continues)

theorem RateLimitKey.Clash.shared {first second : RateLimitKey} (clash : Clash first second) :
    first.toKeyString = second.toKeyString ∧ first ≠ second := by
  have pair {addr other : IpAddr} {sender otherSender : Text}
      (continues : Continues addr sender other otherSender) :
      (RateLimitKey.ipAndSender addr sender).toKeyString =
          (RateLimitKey.ipAndSender other otherSender).toKeyString ∧
        RateLimitKey.ipAndSender addr sender ≠ .ipAndSender other otherSender := by
    obtain ⟨written, different⟩ := continues.written
    refine ⟨?_, fun same => different (RateLimitKey.ipAndSender.inj same).1⟩
    rw [toKeyString_pair, toKeyString_pair, written]
  cases clash with
  | longer continues => exact pair continues
  | shorter continues => exact ⟨(pair continues).1.symm, (pair continues).2.symm⟩

theorem RateLimitKey.same_or_clash {first second : RateLimitKey}
    (same : first.toKeyString = second.toKeyString) : first = second ∨ Clash first second := by
  -- The words before the first colon tell the three kinds of keys apart.
  cases first with
  | ip addr =>
      rw [toKeyString_ip] at same
      cases second with
      | ip other =>
          rw [toKeyString_ip] at same
          rw [IpAddr.display_injective (List.append_cancel_left same)]
          exact Or.inl rfl
      | sender name =>
          rw [toKeyString_sender] at same
          simp at same
      | ipAndSender other name =>
          rw [toKeyString_pair] at same
          simp at same
  | sender name =>
      rw [toKeyString_sender] at same
      cases second with
      | ip addr =>
          rw [toKeyString_ip] at same
          simp at same
      | sender other =>
          rw [toKeyString_sender] at same
          rw [List.append_cancel_left same]
          exact Or.inl rfl
      | ipAndSender other name =>
          rw [toKeyString_pair] at same
          simp at same
  | ipAndSender addr name =>
      rw [toKeyString_pair] at same
      cases second with
      | ip other =>
          rw [toKeyString_ip] at same
          simp at same
      | sender other =>
          rw [toKeyString_sender] at same
          simp at same
      | ipAndSender other otherName =>
          rw [toKeyString_pair] at same
          rcases pairs_written (List.append_cancel_left same) with ⟨rfl, rfl⟩ | continues | continues
          · exact Or.inl rfl
          · exact Or.inr (.longer continues)
          · exact Or.inr (.shorter continues)

/-- Two keys written alike are the same exactly if they are not pairs that can be cut at
different colons. -/
theorem RateLimitKey.toKeyString_injective_iff (first second : RateLimitKey) :
    (first.toKeyString = second.toKeyString → first = second) ↔ ¬ Clash first second := by
  constructor
  · intro injective clash
    exact clash.shared.2 (injective clash.shared.1)
  · intro apart same
    exact (RateLimitKey.same_or_clash same).resolve_right apart

def loopbackKey : RateLimitKey := .ipAndSender (.v6 1) "2:bob@example.com".toList

def neighbourKey : RateLimitKey := .ipAndSender (.v6 0x10002) "bob@example.com".toList

def oneAMinute : RateLimitConfig where
  maxConnectionsPerIp := 1
  maxMessagesPerWindow := 1
  windowDuration := 60000000000

/-- After the message of one the message of the other is refused. -/
theorem neighbourKey_shares_bucket :
    loopbackKey.toKeyString = neighbourKey.toKeyString ∧ loopbackKey ≠ neighbourKey ∧
      (allowMessageKeyed oneAMinute neighbourKey 0 ∅).1 = true ∧
      (allowMessageKeyed oneAMinute neighbourKey 0
        (allowMessageKeyed oneAMinute loopbackKey 0 ∅).2).1 = false := by
  decide +kernel

end Rusmes
