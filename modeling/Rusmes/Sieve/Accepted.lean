import Rusmes.Sieve.Parser

/-!
What the parser lets through: numbers with a suffix that no longer fit, and the
extensions of `require` commands inside a block.
-/

namespace Rusmes

open WireText

section Numbers

def numberDigits (input : Text) : Text := (skipWhitespace input).takeWhile Char.isDigit

def numberScale (input : Text) : Nat :=
  match ((skipWhitespace input).dropWhile Char.isDigit).head? with
  | some 'K' => 2 ^ 10
  | some 'M' => 2 ^ 20
  | some 'G' => 2 ^ 30
  | _ => 1

/-- A number is read as it is written, and one too large for an `i64` is refused. -/
structure ReadsExactly (input : Text) : Prop where
  accepted : ∀ number rest, parseNumber input = .ok (number, rest) →
    number = digitsValue (numberDigits input) * numberScale input
  refused : numberDigits input ≠ [] →
    i64Max < digitsValue (numberDigits input) * numberScale input →
      ∃ error, parseNumber input = .error error

theorem suffixMultiplier_scale (input : Text) :
    ((skipWhitespace input).dropWhile Char.isDigit).head?.bind suffixMultiplier =
      if numberScale input = 1 then none else some (numberScale input : Int) := by
  rw [numberScale]
  split
  · rename_i suffix; rw [suffix]; decide
  · rename_i suffix; rw [suffix]; decide
  · rename_i suffix; rw [suffix]; decide
  · rename_i notK notM notG
    rw [if_pos rfl]
    cases suffix : ((skipWhitespace input).dropWhile Char.isDigit).head? with
    | none => rfl
    | some character =>
        rw [Option.bind_some, suffixMultiplier, if_neg, if_neg, if_neg]
        · rintro rfl; exact notG suffix
        · rintro rfl; exact notM suffix
        · rintro rfl; exact notK suffix

theorem one_le_numberScale (input : Text) : 1 ≤ numberScale input := by
  rw [numberScale]
  split <;> omega

theorem parseNumber_eq (input : Text) (some : numberDigits input ≠ []) :
    ∃ rest, parseNumber input =
      if digitsValue (numberDigits input) ≤ i64Max then
        .ok (if numberScale input = 1 then (digitsValue (numberDigits input) : Int)
          else wrappedI64 (digitsValue (numberDigits input) * numberScale input), rest)
      else .error (.failed "Invalid number: number too large to fit in target type") := by
  rw [numberDigits] at some
  rw [parseNumber, if_neg some, suffixMultiplier_scale]
  by_cases plain : numberScale input = 1
  · refine ⟨(skipWhitespace input).dropWhile Char.isDigit, ?_⟩
    rw [if_pos plain, if_pos plain]
    change (parseI64 (numberDigits input)).map _ = _
    rw [parseI64]
    split <;> rfl
  · refine ⟨((skipWhitespace input).dropWhile Char.isDigit).tail, ?_⟩
    rw [if_neg plain, if_neg plain]
    change (parseI64 (numberDigits input)).map _ = _
    rw [parseI64]
    split <;> rfl

theorem wrappedI64_fits {value : Nat} (fits : value ≤ i64Max) :
    wrappedI64 (value : Int) = value := by
  have bound : i64Max = 2 ^ 63 - 1 := rfl
  exact Int.bmod_eq_of_le_mul_two (by omega) (by omega)

/-- Only a suffix can take a number that fits out of range. -/
theorem readsExactly_iff (input : Text) :
    ReadsExactly input ↔
      i64Max < digitsValue (numberDigits input) ∨
        digitsValue (numberDigits input) * numberScale input ≤ i64Max := by
  have scale := one_le_numberScale input
  constructor
  · intro exactly
    by_contra neither
    rw [not_or, Nat.not_lt, Nat.not_le] at neither
    have some : numberDigits input ≠ [] := by
      intro nothing
      have zero : digitsValue (numberDigits input) = 0 := by rw [nothing]; rfl
      rw [zero, Nat.zero_mul] at neither
      omega
    obtain ⟨rest, read⟩ := parseNumber_eq input some
    rw [if_pos neither.1] at read
    obtain ⟨error, refused⟩ := exactly.refused some neither.2
    rw [read] at refused
    cases refused
  · intro within
    constructor
    · intro number rest accepted
      by_cases some : numberDigits input = []
      · rw [numberDigits] at some
        rw [parseNumber, if_pos some] at accepted
        cases accepted
      · obtain ⟨left, read⟩ := parseNumber_eq input some
        rw [read] at accepted
        by_cases fits : digitsValue (numberDigits input) ≤ i64Max
        · rw [if_pos fits] at accepted
          have value := (Prod.mk.inj (Except.ok.inj accepted)).1
          have product := within.resolve_left (Nat.not_lt.mpr fits)
          rw [← value]
          split
          · rename_i plain
            rw [plain]
            omega
          · have wrapped := wrappedI64_fits product
            push_cast at wrapped ⊢
            exact wrapped
        · rw [if_neg fits] at accepted
          cases accepted
    · intro some large
      obtain ⟨left, read⟩ := parseNumber_eq input some
      have unfit := within.resolve_right (Nat.not_le.mpr large)
      rw [if_neg (Nat.not_le.mpr unfit)] at read
      exact ⟨_, read⟩

/-- The largest `i64` of kilobytes is read as a negative number. -/
theorem largest_kilobytes_wrap : ¬ReadsExactly "9223372036854775807K;".toList := by
  intro exactly
  have negative := exactly.accepted (-1024) ";".toList (by decide +kernel)
  have written : (-1024 : Int) ≠ digitsValue (numberDigits "9223372036854775807K;".toList) *
      numberScale "9223372036854775807K;".toList := by decide +kernel
  exact written negative

end Numbers

/-! Extensions. -/

section Extensions

mutual

def SieveCommand.nestedRequires : SieveCommand → List Text
  | .if _ thenCommands elsifBranches elseCommands =>
      blockRequires thenCommands ++ branchRequires elsifBranches ++ elseRequires elseCommands
  | _ => []

def blockRequires : List SieveCommand → List Text
  | [] => []
  | .require extensions :: commands => extensions ++ blockRequires commands
  | command :: commands => command.nestedRequires ++ blockRequires commands

def branchRequires : List (SieveTest × List SieveCommand) → List Text
  | [] => []
  | (_, commands) :: branches => blockRequires commands ++ branchRequires branches

def elseRequires : Option (List SieveCommand) → List Text
  | none => []
  | some commands => blockRequires commands

end

def SieveCommand.ownRequires : SieveCommand → List Text
  | .require extensions => extensions
  | _ => []

theorem mem_blockRequires {extension : Text} {commands : List SieveCommand} :
    extension ∈ blockRequires commands ↔
      extension ∈ commands.flatMap SieveCommand.ownRequires ∨
        extension ∈ commands.flatMap SieveCommand.nestedRequires := by
  induction commands with
  | nil => simp [blockRequires]
  | cons command commands ih =>
      cases command <;>
        simp only [blockRequires, SieveCommand.ownRequires, SieveCommand.nestedRequires,
          List.flatMap_cons, List.mem_append, List.nil_append, ih] <;>
        tauto

theorem addCommand_requires (script : SieveScript) (command : SieveCommand) :
    (script.addCommand command).requires = script.requires ++ command.ownRequires := by
  cases command <;>
    simp [SieveScript.addCommand, SieveCommand.ownRequires]

variable {alphanumeric : Char → Bool}

theorem parseScript_requires {short : Bool} {depth : Nat} : ∀ {steps script input parsed},
    script.requires = script.commands.flatMap SieveCommand.ownRequires →
      parseScript alphanumeric short depth steps script input = .ok parsed →
        parsed.requires = parsed.commands.flatMap SieveCommand.ownRequires := by
  intro steps
  induction steps with
  | zero => intro script input parsed _ run; cases run
  | succ steps ih =>
      intro script input parsed collected run
      rw [parseScript] at run
      split at run
      · cases run
        exact collected
      · cases read : parseSieveCommand alphanumeric depth input with
        | error error =>
            rw [read] at run
            cases run
        | ok pair =>
            rw [read] at run
            refine @ih (script.addCommand pair.1) (skipWhitespace pair.2) parsed ?_ run
            have appended : (script.addCommand pair.1).commands = script.commands ++ [pair.1] := rfl
            rw [addCommand_requires, appended, List.flatMap_append, collected,
              List.flatMap_singleton]

theorem validate_iff (script : SieveScript) :
    script.validate = .ok () ↔
      ∀ extension ∈ script.requires, extension ∈ SieveScript.knownExtensions := by
  rw [SieveScript.validate]
  cases found : script.requires.find? (· ∉ SieveScript.knownExtensions) with
  | none => simpa using found
  | some extension =>
      have unknown := List.find?_some found
      have member := List.mem_of_find?_eq_some found
      constructor
      · intro same
        cases same
      · intro known
        exact absurd (known extension member) (by simpa using unknown)

/-- Validation covers the whole of a script, exactly when it refuses it for what its own
commands require or the blocks require nothing unknown. -/
theorem validate_covers_iff (text : Text) (script : SieveScript)
    (parsed : SieveScript.parse alphanumeric text = .ok script) :
    (script.validate = .ok () → ∀ extension ∈ blockRequires script.commands,
        extension ∈ SieveScript.knownExtensions) ↔
      (∃ extension ∈ script.commands.flatMap SieveCommand.ownRequires,
          extension ∉ SieveScript.knownExtensions) ∨
        ∀ extension ∈ script.commands.flatMap SieveCommand.nestedRequires,
          extension ∈ SieveScript.knownExtensions := by
  have collected := parseScript_requires rfl parsed
  rw [validate_iff, collected]
  constructor
  · intro covers
    by_cases own : ∃ extension ∈ script.commands.flatMap SieveCommand.ownRequires,
        extension ∉ SieveScript.knownExtensions
    · exact .inl own
    · right
      intro extension member
      refine covers ?_ extension (mem_blockRequires.mpr (.inr member))
      intro other declared
      by_contra unknown
      exact own ⟨other, declared, unknown⟩
  · rintro (⟨extension, declared, unknown⟩ | nested) known
    · exact absurd (known extension declared) unknown
    · intro extension member
      rcases mem_blockRequires.mp member with own | inside
      · exact known extension own
      · exact nested extension inside

theorem validate_covers_fileinto :
    let script : SieveScript := ⟨[.require ["fileinto".toList], .keep], ["fileinto".toList]⟩
    (script.validate = .ok () → ∀ extension ∈ blockRequires script.commands,
        extension ∈ SieveScript.knownExtensions) ↔
      (∃ extension ∈ script.commands.flatMap SieveCommand.ownRequires,
          extension ∉ SieveScript.knownExtensions) ∨
        ∀ extension ∈ script.commands.flatMap SieveCommand.nestedRequires,
          extension ∈ SieveScript.knownExtensions :=
  @validate_covers_iff (fun _ => false) "require \"fileinto\"; keep;".toList _ rfl

/-- Nobody looks at what a block requires. -/
theorem unknown_in_block_accepted :
    ∃ script,
      SieveScript.parse (fun _ => false) "if true \x7brequire \"x\";\x7d".toList = .ok script ∧
        script.validate = .ok () ∧
        "x".toList ∈ blockRequires script.commands ∧
        "x".toList ∉ SieveScript.knownExtensions :=
  ⟨⟨[.if .true [.require ["x".toList]] [] none], []⟩, rfl, rfl, by decide, by decide⟩

end Extensions

end Rusmes
