import Rusmes.Library.Splitting
import Rusmes.Proto.Address

/-!
The text of a mail address is read back as that address, by the parser that made it, so
it can stand for the address as a key.
-/

namespace Rusmes

open WireText

theorem Domain.at_free (domain : Domain) : '@' ∉ domain.asStr := by
  intro member
  have allowed := domain.allowed '@' member
  revert allowed
  decide

theorem Domain.eq_of_text_iff (first second : Domain) :
    first = second ↔ first.text = second.text := by
  cases first
  cases second
  rw [mk.injEq]

theorem Domain.new_of_text (domain : Domain) : Domain.new domain.asStr = .ok domain := by
  have fits : ¬(domain.asStr = [] ∨ octetLength domain.asStr > 255) :=
    not_or.mpr ⟨domain.nonempty, Nat.not_lt.mpr domain.bounded⟩
  have allowed : ¬¬domain.asStr.all domainCharacter = true := by
    rw [not_not, List.all_eq_true]
    exact domain.allowed
  have dotless : ¬(domain.asStr.head? = some '.' ∨ domain.asStr.getLast? = some '.') :=
    not_or.mpr ⟨domain.noLeadingDot, domain.noTrailingDot⟩
  rw [Domain.new, dif_neg fits, dif_neg allowed, dif_neg dotless]
  dsimp only
  rw [Except.ok.injEq, eq_of_text_iff]
  exact domain.lowercase

namespace MailAddress

theorem rsplitOnce_asString (address : MailAddress) :
    rsplitOnce '@' address.asString = some (address.localPart, address.domain.asStr) :=
  rsplitOnce_append address.domain.at_free address.localPart

theorem asString_injective : Function.Injective asString := by
  intro first second same
  have parts : some (first.localPart, first.domain.asStr) =
      some (second.localPart, second.domain.asStr) := by
    rw [← rsplitOnce_asString, ← rsplitOnce_asString, same]
  rw [Option.some.injEq, Prod.mk.injEq] at parts
  have domains := (Domain.eq_of_text_iff _ _).mpr parts.2
  have made := second.newSmtputf8_of_parts
  rw [← parts.1, ← domains, first.newSmtputf8_of_parts] at made
  exact Except.ok.inj made

theorem fromStrSmtputf8_asString (address : MailAddress) :
    fromStrSmtputf8 address.asString = .ok address := by
  rw [fromStrSmtputf8, rsplitOnce_asString]
  dsimp only
  rw [Domain.new_of_text]
  exact address.newSmtputf8_of_parts

theorem fromStr_asString {text : Text} {address : MailAddress}
    (parsed : fromStr text = .ok address) : fromStr address.asString = .ok address := by
  rw [fromStr] at parsed
  cases cut : rsplitOnce '@' text with
  | none =>
      rw [cut] at parsed
      cases parsed
  | some parts =>
      rw [cut] at parsed
      dsimp only at parsed
      cases named : Domain.new parts.2 with
      | error error =>
          rw [named] at parsed
          cases parsed
      | ok domain =>
          rw [named] at parsed
          have made := new_parts parsed
          rw [fromStr, rsplitOnce_asString]
          dsimp only
          rw [Domain.new_of_text, made.1, made.2]
          exact parsed

/-- Both parsers read back what they made, and the text tells all their addresses apart. -/
theorem asString_reparsed :
    (∀ text address, fromStr text = .ok address → fromStr address.asString = .ok address) ∧
      (∀ text address, fromStrSmtputf8 text = .ok address →
        fromStrSmtputf8 address.asString = .ok address) ∧
      ∀ firstText secondText first second,
        (fromStr firstText = .ok first ∨ fromStrSmtputf8 firstText = .ok first) →
        (fromStr secondText = .ok second ∨ fromStrSmtputf8 secondText = .ok second) →
        first.asString = second.asString → first = second := by
  refine ⟨?_, ?_, ?_⟩
  · intro text address parsed
    exact fromStr_asString parsed
  · intro text address _
    exact address.fromStrSmtputf8_asString
  · intro firstText secondText first second _ _ same
    exact asString_injective same

theorem alice_reparsed : fromStr alice.asString = .ok alice :=
  asString_reparsed.1 "alice@EXAMPLE.com".toList alice (by rfl)

end MailAddress

end Rusmes
