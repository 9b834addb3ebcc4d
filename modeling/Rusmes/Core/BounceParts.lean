import Rusmes.Core.Bounce
import Rusmes.Library.Markers
import Rusmes.Proto.Scanner
import Rusmes.Proto.Uuid

/-!
The parts of a bounce: without the boundary in its texts, the multipart body is split into the
parts it was made of.
-/

namespace Rusmes

open WireText

section Split

variable (letters : CaseMapping) (boundary : Text)

end Split

def boundaryMarker : Text := "--".toList ++ dsnBoundary

def reportKeys : List Text :=
  "smtp.remote_mta".toList :: "message.body".toList ::
    originalHeaderNames.map fun name => "header.".toList ++ name

/-- No text of the report has the boundary. -/
structure Unmarked (mailet : BounceMailet) (mail : Mail) (errorMessage : Text) : Prop where
  reportingMta : ¬boundaryMarker <:+: mailet.reportingMta
  errorMessage : ¬boundaryMarker <:+: errorMessage
  recipients : ∀ recipient ∈ mail.recipients, ¬boundaryMarker <:+: recipient.asString
  attributes : ∀ key ∈ reportKeys, ∀ text, mail.textAttribute key = some text →
    ¬boundaryMarker <:+: text

/-! Texts without the boundary. -/

/-- Lines without the boundary, the last with its end. -/
def CleanLines (text : Text) : Prop :=
  ¬boundaryMarker <:+: text ∧ (text = [] ∨ text.getLast? = some '\n')

theorem boundaryMarker_spelled : boundaryMarker = ['-', '-', 'r', 'u', 's', 'm', 'e', 's', '-', 'd',
    's', 'n', '-', 'b', 'o', 'u', 'n', 'd', 'a', 'r', 'y', '-', '7', 'b', '3', 'a', '9', 'f', '1',
    'e'] := by
  delta boundaryMarker dsnBoundary
  simp only [String.reduceToList, List.cons_append, List.nil_append]

theorem boundaryMarker_facts :
    '\n' ∉ boundaryMarker ∧ ' ' ∉ boundaryMarker ∧ boundaryMarker ≠ [] ∧
      ∀ character ∈ boundaryMarker, character.toNat < 128 := by
  rw [boundaryMarker_spelled]
  decide

theorem boundaryMarker_letters :
    '-' ∈ boundaryMarker ∧ 'r' ∈ boundaryMarker ∧ '.' ∉ boundaryMarker ∧
      startMarker dsnBoundary = encodeUtf8 boundaryMarker ∧ 10 ∉ startMarker dsnBoundary := by
  have same : dsnBoundary = boundaryMarker.drop 2 := rfl
  rw [same, boundaryMarker_spelled]
  decide

theorem CleanLines.append {first second : Text} (one : CleanLines first)
    (other : CleanLines second) : CleanLines (first ++ second) := by
  rcases one.2 with rfl | ended
  · exact other
  · obtain ⟨front, rfl⟩ := List.getLast?_eq_some_iff.mp ended
    refine ⟨?_, ?_⟩
    · rw [List.append_assoc, List.singleton_append,
        infix_append_cons boundaryMarker_facts.1 boundaryMarker_facts.2.2.1]
      rintro (inside | inside)
      · exact one.1 (inside.trans (List.prefix_append _ _).isInfix)
      · exact other.1 inside
    · right
      rcases other.2 with rfl | last
      · rwa [List.append_nil]
      · rw [List.getLast?_append, last]
        rfl

theorem CleanLines.apart {text : Text} (clean : CleanLines text) :
    Apart (startMarker dsnBoundary) (encodeUtf8 text) := by
  have marker := boundaryMarker_letters.2.2.2.1
  have nonempty : startMarker dsnBoundary ≠ [] := List.cons_ne_nil _ _
  rcases clean.2 with rfl | ended
  · exact apart_nil nonempty
  · obtain ⟨front, rfl⟩ := List.getLast?_eq_some_iff.mp ended
    refine apart_of_ended boundaryMarker_letters.2.2.2.2 nonempty ?_ fun inside => clean.1 ?_
    · rw [encodeUtf8_append]
      exact List.getLast?_concat
    · rw [marker] at inside
      exact infix_of_encoded boundaryMarker_facts.2.2.2 inside

section Clean

variable (dates : DateFormat) (clock : Nat → Nat) {mailet : BounceMailet} {mail : Mail}
  (errorCode : SmtpStatusCode) {errorMessage : Text}

end Clean

section Parts

variable (letters : CaseMapping)

end Parts

end Rusmes
