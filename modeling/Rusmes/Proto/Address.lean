import Rusmes.Library.WireText

/-!
Mail addresses, domains and user names. The constructors validate as the
source's do; the structures keep what a successful validation established, so
a malformed address cannot be built.
-/

namespace Rusmes

open WireText

inductive MailError
  | invalidAddress (message : String)
  | invalidDomain (message : String)
  | invalidUsername (message : String)
  | nonAsciiLocalPartRequiresSmtputf8
  deriving DecidableEq, Repr

def domainCharacter (character : Char) : Bool :=
  character.isAlphanum || character = '.' || character = '-'

structure Domain where
  text : Text
  nonempty : text ≠ []
  bounded : octetLength text ≤ 255
  allowed : ∀ character ∈ text, domainCharacter character
  lowercase : text.map Char.toLower = text
  noLeadingDot : text.head? ≠ some '.'
  noTrailingDot : text.getLast? ≠ some '.'
  deriving DecidableEq, Repr

theorem domainCharacter_ascii {character : Char} (ok : domainCharacter character = true) :
    character.toNat < 128 := by
  delta domainCharacter Char.isAlphanum Char.isAlpha Char.isUpper Char.isLower Char.isDigit at ok
  simp only [Bool.or_eq_true, Bool.and_eq_true, decide_eq_true_eq,
    UInt32.le_iff_toNat_le] at ok
  have code : character.toNat = character.val.toNat := rfl
  rcases ok with ((((⟨_, upper⟩ | ⟨_, upper⟩) | ⟨_, upper⟩) | rfl) | rfl)
  · simp at upper; omega
  · simp at upper; omega
  · simp at upper; omega
  · decide
  · decide

theorem domainCharacter_toLower_code : ∀ code < 128,
    domainCharacter (Char.ofNat code) = true →
      domainCharacter (Char.ofNat code).toLower = true ∧
      (Char.ofNat code).toLower.toLower = (Char.ofNat code).toLower ∧
      ((Char.ofNat code).toLower = '.' → Char.ofNat code = '.') := by
  decide

theorem domainCharacter_toLower {character : Char} (ok : domainCharacter character = true) :
    domainCharacter character.toLower = true ∧ character.toLower.toLower = character.toLower ∧
      (character.toLower = '.' → character = '.') := by
  have facts := domainCharacter_toLower_code character.toNat (domainCharacter_ascii ok)
  rw [Char.ofNat_toNat] at facts
  exact facts ok

theorem domainText_octetLength_toLower {text : Text}
    (allowed : ∀ character ∈ text, domainCharacter character) :
    octetLength (text.map Char.toLower) = octetLength text := by
  rw [octetLength_ascii, octetLength_ascii, List.length_map]
  · exact fun character member => domainCharacter_ascii (allowed character member)
  · intro character member
    obtain ⟨source, sourceMember, rfl⟩ := List.mem_map.mp member
    exact domainCharacter_ascii (domainCharacter_toLower (allowed source sourceMember)).1

def Domain.new (domain : Text) : Except MailError Domain :=
  if size : domain = [] ∨ octetLength domain > 255 then
    .error (.invalidDomain s!"Domain length must be 1-255 characters, got {octetLength domain}")
  else if characters : ¬domain.all domainCharacter then
    .error (.invalidDomain "Domain contains invalid characters")
  else if dots : domain.head? = some '.' ∨ domain.getLast? = some '.' then
    .error (.invalidDomain "Domain cannot start or end with '.'")
  else
    have allowed : ∀ character ∈ domain, domainCharacter character := by
      simpa [List.all_eq_true] using characters
    .ok {
      text := domain.map Char.toLower
      nonempty := by simpa using fun empty => size (Or.inl empty)
      bounded := by
        rw [domainText_octetLength_toLower allowed]
        omega
      allowed := by
        intro character member
        obtain ⟨source, sourceMember, rfl⟩ := List.mem_map.mp member
        exact (domainCharacter_toLower (allowed source sourceMember)).1
      lowercase := by
        simp only [List.map_map, List.map_inj_left, Function.comp_apply]
        exact fun source member => (domainCharacter_toLower (allowed source member)).2.1
      noLeadingDot := by
        intro leading
        rw [List.head?_map, Option.map_eq_some_iff] at leading
        obtain ⟨source, head, lower⟩ := leading
        have same := (domainCharacter_toLower (allowed source (List.mem_of_head? head))).2.2 lower
        exact dots (Or.inl (same ▸ head))
      noTrailingDot := by
        intro trailing
        rw [List.getLast?_map, Option.map_eq_some_iff] at trailing
        obtain ⟨source, last, lower⟩ := trailing
        have same :=
          (domainCharacter_toLower (allowed source (List.mem_of_getLast? last))).2.2 lower
        exact dots (Or.inr (same ▸ last))
    }

def Domain.asStr (domain : Domain) : Text :=
  domain.text

structure MailAddress where
  localPart : Text
  domain : Domain
  nonempty : localPart ≠ []
  bounded : octetLength localPart ≤ 64
  noAt : '@' ∉ localPart
  noControl : ∀ character ∈ localPart,
    0x20 ≤ character.toNat ∧ ¬(0x7F ≤ character.toNat ∧ character.toNat ≤ 0x9F)
  deriving DecidableEq, Repr

theorem printable_of_ascii {text : Text}
    (printable : ∀ octet ∈ encodeUtf8 text, ¬(octet < 0x20 ∨ octet = 0x7F))
    (ascii : hasNonAscii text = false) : ∀ character ∈ text,
      0x20 ≤ character.toNat ∧ ¬(0x7F ≤ character.toNat ∧ character.toNat ≤ 0x9F) := by
  intro character member
  have small := hasNonAscii_eq_false.mp ascii character member
  have octet := printable _ ((ascii_mem_encodeUtf8 small text).mpr member)
  simp only [not_or, UInt8.lt_iff_toNat_lt, ← UInt8.toNat_inj, UInt8.toNat_ofNat'] at octet
  have space : (0x20 : UInt8).toNat = 32 := rfl
  have delete : (0x7F : UInt8).toNat = 127 := rfl
  omega

/-- `MailAddress::new`: the local part must be printable ASCII. -/
def MailAddress.new (localPart : Text) (domain : Domain) : Except MailError MailAddress :=
  if size : localPart = [] ∨ octetLength localPart > 64 then
    .error (.invalidAddress
      s!"Local part length must be 1-64 characters, got {octetLength localPart}")
  else if atSign : '@' ∈ localPart then
    .error (.invalidAddress "Local part cannot contain '@'")
  else if control : (encodeUtf8 localPart).any (fun octet => octet < 0x20 || octet = 0x7F) then
    .error (.invalidAddress "local-part contains control character")
  else if nonAscii : hasNonAscii localPart then
    .error .nonAsciiLocalPartRequiresSmtputf8
  else
    .ok {
      localPart, domain
      nonempty := fun empty => size (Or.inl empty)
      bounded := by omega
      noAt := atSign
      noControl := printable_of_ascii (by simpa using control) (by simpa using nonAscii)
    }

def upperHex4 (code : Nat) : String :=
  String.ofList (((Nat.toDigits 16 code).map Char.toUpper).leftpad 4 '0')

/-- `MailAddress::new_smtputf8`: any code point but a control character. -/
def MailAddress.newSmtputf8 (localPart : Text) (domain : Domain) : Except MailError MailAddress :=
  if size : localPart = [] ∨ octetLength localPart > 64 then
    .error (.invalidAddress
      s!"local-part octet length must be 1-64, got {octetLength localPart}")
  else if atSign : '@' ∈ localPart then
    .error (.invalidAddress "local-part cannot contain '@'")
  else
    match control : localPart.find? fun character =>
        character.toNat < 0x20 || (0x7F ≤ character.toNat && character.toNat ≤ 0x9F) with
    | some character =>
        .error (.invalidAddress
          s!"local-part contains disallowed control codepoint U+{upperHex4 character.toNat}")
    | none =>
        .ok {
          localPart, domain
          nonempty := fun empty => size (Or.inl empty)
          bounded := by omega
          noAt := atSign
          noControl := by
            intro character member
            have clean := List.find?_eq_none.mp control character member
            simp only [Bool.or_eq_true, Bool.and_eq_true, decide_eq_true_eq, not_or] at clean
            omega
        }

def MailAddress.fromStr (text : Text) : Except MailError MailAddress :=
  match rsplitOnce '@' text with
  | none => .error (.invalidAddress "Missing @ separator")
  | some (localPart, domain) => do
      let domain ← Domain.new domain
      MailAddress.new localPart domain

def MailAddress.fromStrSmtputf8 (text : Text) : Except MailError MailAddress :=
  match rsplitOnce '@' text with
  | none => .error (.invalidAddress "missing '@'")
  | some (localPart, domain) => do
      let domain ← Domain.new domain
      MailAddress.newSmtputf8 localPart domain

theorem MailAddress.newSmtputf8_of_parts (address : MailAddress) :
    newSmtputf8 address.localPart address.domain = .ok address := by
  have fits : ¬ (address.localPart = [] ∨ octetLength address.localPart > 64) :=
    not_or.mpr ⟨address.nonempty, Nat.not_lt.mpr address.bounded⟩
  have printable : address.localPart.find? (fun character =>
      character.toNat < 0x20 || (0x7F ≤ character.toNat && character.toNat ≤ 0x9F)) = none := by
    apply List.find?_eq_none.mpr
    intro character member
    have clean := address.noControl character member
    simp only [Bool.or_eq_true, Bool.and_eq_true, decide_eq_true_eq]
    omega
  rw [newSmtputf8, dif_neg fits, dif_neg address.noAt]
  split
  · rename_i character found
    rw [printable] at found
    cases found
  · rfl

theorem MailAddress.new_parts {localPart : Text} {domain : Domain} {address : MailAddress}
    (made : new localPart domain = .ok address) :
    address.localPart = localPart ∧ address.domain = domain := by
  rw [new] at made
  repeat' split at made
  all_goals cases made
  exact ⟨rfl, rfl⟩

theorem MailAddress.fromStr_smtputf8 {text : Text} {address : MailAddress}
    (parsed : fromStr text = .ok address) : fromStrSmtputf8 text = .ok address := by
  rw [fromStr] at parsed
  rw [fromStrSmtputf8]
  cases parts : rsplitOnce '@' text with
  | none =>
      rw [parts] at parsed
      cases parsed
  | some found =>
      obtain ⟨localPart, name⟩ := found
      rw [parts] at parsed
      dsimp only at parsed ⊢
      cases named : Domain.new name with
      | error error =>
          rw [named] at parsed
          cases parsed
      | ok domain =>
          rw [named] at parsed
          obtain ⟨rfl, rfl⟩ := new_parts parsed
          exact address.newSmtputf8_of_parts

def MailAddress.asString (address : MailAddress) : Text :=
  address.localPart ++ '@' :: address.domain.asStr

structure Username where
  text : Text
  nonempty : text ≠ []
  bounded : octetLength text ≤ 128
  deriving DecidableEq, Repr

def Username.new (username : Text) : Except MailError Username :=
  if size : username = [] ∨ octetLength username > 128 then
    .error (.invalidUsername
      s!"Username length must be 1-128 characters, got {octetLength username}")
  else
    .ok { text := username, nonempty := fun empty => size (Or.inl empty), bounded := by omega }

theorem Username.new_text {name : Text} {username : Username}
    (made : Username.new name = .ok username) : username.text = name := by
  rw [Username.new] at made
  split at made
  · cases made
  · cases made
    rfl

theorem Username.new_of_text (username : Username) : Username.new username.text = .ok username := by
  have fits : ¬(username.text = [] ∨ octetLength username.text > 128) :=
    not_or.mpr ⟨username.nonempty, Nat.not_lt.mpr username.bounded⟩
  rw [Username.new, dif_neg fits]

def exampleCom : Domain where
  text := "example.com".toList
  nonempty := by decide
  bounded := by decide
  allowed := by simp [domainCharacter]
  lowercase := by decide
  noLeadingDot := by decide
  noTrailingDot := by decide

def alice : MailAddress where
  localPart := "alice".toList
  domain := exampleCom
  nonempty := by decide
  bounded := by decide
  noAt := by decide
  noControl := by simp

def aliceUser : Username where
  text := "alice".toList
  nonempty := by decide
  bounded := by decide

def bob : MailAddress where
  localPart := "bob".toList
  domain := exampleCom
  nonempty := by decide
  bounded := by decide
  noAt := by decide
  noControl := by simp

end Rusmes
