import Rusmes.Library.Words
import Rusmes.Smtp.Bdat
import Rusmes.Smtp.Grammar

/-!
The two readings of a BDAT argument. The one of `bdat.rs` goes through the words, the one
of `parser.rs` is content with a number at the beginning. They meet where the argument is
written plainly.
-/

namespace Rusmes

open WireText Recognizer

inductive BdatWords : Nat → Bool → List Text → Prop
  | size {size : Nat} {number : Text} : parseUsize number = some size → size ≠ 0 →
      BdatWords size false [number]
  | last {size : Nat} {number last : Text} : parseUsize number = some size → size ≠ 0 →
      Spells "LAST" last → BdatWords size true [number, last]

def Numbered (size : Nat) (args tail : Text) : Prop :=
  ∃ blanks digits, args = blanks ++ (digits ++ tail) ∧
    (∀ character ∈ blanks, isSpace character = true) ∧ Run Char.isDigit digits ∧
    parseUsize digits = some size ∧ ∀ first, tail.head? = some first → first.isDigit = false

def MarksLast (tail : Text) : Prop :=
  ∃ gap last more, tail = gap ++ (last ++ more) ∧ Run isSpace gap ∧ Spells "LAST" last

inductive PlainTail : Bool → Text → Prop
  | blank {behind : Text} : (∀ character ∈ behind, isWhitespace character = true) →
      PlainTail false behind
  | last {gap last behind : Text} : Run isSpace gap → Spells "LAST" last →
      (∀ character ∈ behind, isWhitespace character = true) →
      PlainTail true (gap ++ (last ++ behind))

def PlainArguments (size : Nat) (last : Bool) (args : Text) : Prop :=
  size ≠ 0 ∧ ∃ tail, Numbered size args tail ∧ PlainTail last tail

theorem BdatCommand.parse_ok_iff {args : Text} {size : Nat} {last : Bool} :
    BdatCommand.parse args = .ok ⟨size, last⟩ ↔ BdatWords size last (splitWhitespace args) := by
  rw [BdatCommand.parse]
  generalize splitWhitespace args = parts
  constructor
  · intro parsed
    rcases parts with _ | ⟨number, others⟩
    · cases parsed
    simp only [List.head?_cons] at parsed
    split at parsed
    · cases parsed
    rename_i value numbered
    split at parsed
    · cases parsed
    rename_i nonzero
    rcases others with _ | ⟨second, _ | ⟨third, more⟩⟩
    · cases parsed
      exact .size numbered nonzero
    · simp only [List.getElem?_cons_succ, List.getElem?_cons_zero, Option.any_some] at parsed
      cases spelled : eqIgnoreAsciiCase second "LAST".toList with
      | false =>
          rw [spelled] at parsed
          cases parsed
      | true =>
          rw [spelled] at parsed
          cases parsed
          exact .last numbered nonzero spelled
    · simp at parsed
  · rintro (⟨numbered, nonzero⟩ | ⟨numbered, nonzero, spelled⟩)
    · simp [numbered, nonzero]
    · have marked : eqIgnoreAsciiCase _ "LAST".toList = true := spelled
      simp only [List.head?_cons, List.getElem?_cons_succ, List.getElem?_cons_zero,
        Option.any_some, numbered, marked, if_neg nonzero]
      rfl

theorem Spells.last_solid {last : Text} (spelled : Spells "LAST" last) :
    last ≠ [] ∧ ∀ character ∈ last, isWhitespace character = false := by
  refine ⟨?_, spelled.solid (by decide)⟩
  rintro rfl
  cases spelled

theorem marksLast_trimEnd {tail : Text} : MarksLast (trimEnd tail) ↔ MarksLast tail := by
  constructor
  · rintro ⟨gap, last, more, trimmed, run, spelled⟩
    obtain ⟨blanks, whole, -⟩ := trimEnd_whole tail
    exact ⟨gap, last, more ++ blanks, by rw [whole, trimmed]; simp, run, spelled⟩
  · rintro ⟨gap, last, more, rfl, run, spelled⟩
    exact ⟨gap, last, trimEnd more, trimEnd_word spelled.last_solid.1 spelled.last_solid.2 gap more,
      run, spelled⟩

theorem marksLast_recognised {tail left : Text} {found : Option Text}
    (recognised : opt (preceded space1 (tagNoCase "LAST".toList)) tail = some (left, found)) :
    found.isSome = true ↔ MarksLast tail := by
  constructor
  · intro present
    obtain ⟨last, rfl⟩ := Option.isSome_iff_exists.mp present
    cases inside : preceded space1 (tagNoCase "LAST".toList) tail with
    | none =>
        rw [opt, inside] at recognised
        cases recognised
    | some result =>
        rw [opt, inside] at recognised
        cases recognised
        obtain ⟨middle, spaced, marked⟩ := preceded_eq_some.mp inside
        obtain ⟨rfl, run, -⟩ := takeWhile1_run spaced
        obtain ⟨split, spelled⟩ := tagNoCase_eq_some marked
        exact ⟨_, _, _, by rw [split], run, spelled⟩
  · rintro ⟨gap, last, more, rfl, run, spelled⟩
    have letters : Run (fun character => !isWhitespace character) last :=
      ⟨spelled.last_solid.1, fun character member => by simp [spelled.last_solid.2 character member]⟩
    have spaced := run.spaced more letters fun character solid =>
      solid_not_space (by simpa using solid)
    have marked : preceded space1 (tagNoCase "LAST".toList) (gap ++ (last ++ more)) =
        some (more, last) :=
      preceded_eq_some.mpr ⟨_, spaced, tagNoCase_append spelled more⟩
    rw [opt, marked] at recognised
    cases recognised
    rfl

theorem trim_bdat (args : Text) :
    trim ("BDAT ".toList ++ args) = "BDAT".toList ++ trimEnd (' ' :: args) :=
  @trim_word "BDAT".toList (by decide) (by decide) (' ' :: args)

theorem smtpCommand_bdat (smtputf8 : Bool) (text : Text) :
    smtpCommand smtputf8 ("BDAT".toList ++ text) = bdatCommand ("BDAT".toList ++ text) := by
  apply smtpCommand_opened (List.mem_of_getElem? (i := 5) rfl)
  exact tagNoCase_append (Spells.itself "BDAT") text

theorem numbered_of_bdatCommand {args left : Text} {size : Nat} {last : Bool}
    (recognised : bdatCommand ("BDAT".toList ++ trimEnd (' ' :: args)) =
      some (left, .bdat size last)) :
    ∃ tail, Numbered size args tail ∧ (last = true ↔ MarksLast tail) := by
  simp only [bdatCommand, tagNoCase_append (Spells.itself "BDAT"), Option.bind_eq_bind,
    Option.bind_some, Option.bind_eq_some_iff, Prod.exists] at recognised
  obtain ⟨afterBlanks, blanks, spaced, behind, digits, taken, after, found, ended, value, parsed,
    same⟩ := recognised
  cases same
  obtain ⟨split, run, -⟩ := takeWhile1_run spaced
  obtain ⟨rfl, number, stops⟩ := takeWhile1_run taken
  obtain ⟨white, whole, blank⟩ := trimEnd_whole (' ' :: args)
  have written : ' ' :: args = blanks ++ (digits ++ (behind ++ white)) := by
    rw [whole, split]
    simp
  have kept : trimEnd (behind ++ white) = behind := by
    have trimmed := trimEnd_word number.1 (fun _ member => isDigit_solid (number.2 _ member))
      blanks (behind ++ white)
    rw [← written, split] at trimmed
    simpa using trimmed.symm
  obtain ⟨first, blanks, rfl⟩ := List.exists_cons_of_ne_nil run.1
  rw [List.cons_append] at written
  obtain ⟨rfl, rfl⟩ := List.cons.inj written
  have marks := marksLast_recognised ended
  rw [← kept, marksLast_trimEnd] at marks
  refine ⟨behind ++ white, ⟨blanks, digits, rfl, ?_, number, parsed, ?_⟩, marks⟩
  · intro character member
    exact run.2 character (List.mem_cons_of_mem _ member)
  · intro first head
    cases behind with
    | nil =>
        have space := blank first (List.mem_of_mem_head? head)
        exact not_digit_of_not_keyword (not_keyword_of_not_domain (isWhitespace_not_domain space))
    | cons other rest => exact stops first head

theorem Numbered.recognised {size : Nat} {args tail : Text} (numbered : Numbered size args tail) :
    ∃ left last, bdatCommand ("BDAT".toList ++ trimEnd (' ' :: args)) =
      some (left, .bdat size last) ∧ (last = true ↔ MarksLast tail) := by
  obtain ⟨blanks, digits, rfl, spaces, number, parsed, stops⟩ := numbered
  have run : Run isSpace (' ' :: blanks) :=
    ⟨by simp, List.forall_mem_cons.mpr ⟨rfl, spaces⟩⟩
  have trimmed : trimEnd (' ' :: (blanks ++ (digits ++ tail))) =
      (' ' :: blanks) ++ (digits ++ trimEnd tail) :=
    trimEnd_word number.1 (fun _ member => isDigit_solid (number.2 _ member)) (' ' :: blanks) tail
  have spaced := run.spaced (trimEnd tail) number fun _ digit =>
    solid_not_space (isDigit_solid digit)
  have taken : takeWhile1 Char.isDigit (digits ++ trimEnd tail) = some (trimEnd tail, digits) := by
    apply number.taken
    intro first head
    obtain ⟨white, whole, -⟩ := trimEnd_whole tail
    apply stops first
    rw [whole, List.head?_append, head]
    rfl
  obtain ⟨left, found, ended⟩ :=
    opt_some (preceded space1 (tagNoCase "LAST".toList)) (trimEnd tail)
  refine ⟨left, found.isSome, ?_, ?_⟩
  · rw [trimmed]
    simp only [bdatCommand, tagNoCase_append (Spells.itself "BDAT"), spaced, taken, ended, parsed,
      Option.bind_eq_bind, Option.bind_some]
  · rw [marksLast_recognised ended, marksLast_trimEnd]

theorem parseCommand_bdat_iff {args : Text} {size : Nat} {last : Bool} :
    parseCommand ("BDAT ".toList ++ args) = .ok (.bdat size last) ↔
      ∃ tail, Numbered size args tail ∧ (last = true ↔ MarksLast tail) := by
  have read : parseCommand ("BDAT ".toList ++ args) = .ok (.bdat size last) ↔
      ∃ left, bdatCommand ("BDAT".toList ++ trimEnd (' ' :: args)) = some (left, .bdat size last) := by
    rw [← smtpCommand_bdat false, ← trim_bdat]
    exact parseCommandSmtputf8_ok_iff
  rw [read]
  constructor
  · rintro ⟨left, recognised⟩
    exact numbered_of_bdatCommand recognised
  · rintro ⟨tail, numbered, marks⟩
    obtain ⟨left, flag, recognised, flagged⟩ := numbered.recognised
    have same : flag = last := by rw [Bool.eq_iff_iff, flagged, marks]
    exact ⟨left, same ▸ recognised⟩

/-! Where the two meet. -/

theorem PlainTail.marks {last : Bool} {tail : Text} (plain : PlainTail last tail) :
    last = true ↔ MarksLast tail := by
  cases plain with
  | blank white =>
      constructor
      · intro absent
        cases absent
      · rintro ⟨gap, last, more, rfl, -, spelled⟩
        obtain ⟨nonempty, solid⟩ := spelled.last_solid
        obtain ⟨letter, member⟩ := List.exists_mem_of_ne_nil last nonempty
        have blank := white letter (by simp [member])
        rw [solid letter member] at blank
        cases blank
  | last run spelled white => exact ⟨fun _ => ⟨_, _, _, rfl, run, spelled⟩, fun _ => rfl⟩

theorem PlainTail.words {last : Bool} {tail : Text} (plain : PlainTail last tail) :
    (∀ first, tail.head? = some first → isWhitespace first = true) ∧
      (last = false ∧ splitWhitespace tail = [] ∨
        last = true ∧ ∃ word, Spells "LAST" word ∧ splitWhitespace tail = [word]) := by
  cases plain with
  | blank white =>
      refine ⟨fun first head => white first (List.mem_of_mem_head? head), Or.inl ⟨rfl, ?_⟩⟩
      exact splitWhitespace_blank white
  | @last gap word behind run spelled white =>
      have ends : ∀ first, behind.head? = some first → isWhitespace first = true :=
        fun first head => white first (List.mem_of_mem_head? head)
      refine ⟨fun first head => isSpace_whitespace (run.head_append head),
        Or.inr ⟨rfl, word, spelled, ?_⟩⟩
      rw [splitWhitespace_blanks fun character member => isSpace_whitespace (run.2 character member),
        splitWhitespace_word spelled.last_solid.1 spelled.last_solid.2 ends,
        splitWhitespace_blank white]

theorem PlainArguments.words {size : Nat} {last : Bool} {args : Text}
    (plain : PlainArguments size last args) : BdatWords size last (splitWhitespace args) := by
  obtain ⟨nonzero, tail, ⟨blanks, digits, rfl, spaces, number, parsed, -⟩, plainTail⟩ := plain
  obtain ⟨ends, words⟩ := plainTail.words
  rw [splitWhitespace_blanks fun character member => isSpace_whitespace (spaces character member),
    splitWhitespace_word number.1 (fun _ member => isDigit_solid (number.2 _ member)) ends]
  rcases words with ⟨rfl, none⟩ | ⟨rfl, word, spelled, single⟩
  · rw [none]
    exact .size parsed nonzero
  · rw [single]
    exact .last parsed nonzero spelled

theorem parseUsize_number {digits : Text} (number : Run Char.isDigit digits) (more : Text) :
    parseUsize (digits ++ more) =
      if more.all Char.isDigit = true ∧ digitsValue (digits ++ more) < usizeBound then
        some (digitsValue (digits ++ more))
      else none := by
  obtain ⟨first, rest, rfl⟩ := List.exists_cons_of_ne_nil number.1
  have unsigned : ¬ (first :: rest ++ more).head? = some '+' := by
    rintro same
    obtain rfl := Option.some.inj same
    cases number.2 '+' List.mem_cons_self
  have all : (first :: rest).all Char.isDigit = true := List.all_eq_true.mpr number.2
  rw [parseUsize, if_neg unsigned, List.all_append, all, Bool.true_and]
  cases more.all Char.isDigit <;> simp

theorem plainTail_of_marks {tail word : Text} (marks : MarksLast tail)
    (spelled : Spells "LAST" word) (alone : splitWhitespace tail = [word]) : PlainTail true tail := by
  obtain ⟨gap, last, behind, rfl, run, begins⟩ := marks
  obtain ⟨nonempty, solid⟩ := begins.last_solid
  obtain ⟨more, rest, rfl, -, split⟩ := splitWhitespace_opening nonempty solid behind
  rw [splitWhitespace_blanks fun character member => isSpace_whitespace (run.2 character member),
    split] at alone
  obtain ⟨same, none⟩ := List.cons.inj alone
  have short : more = [] := by
    have lengths := congrArg List.length same
    rw [List.length_append, spelled.length, begins.length] at lengths
    exact List.length_eq_zero_iff.mp (by omega)
  subst short
  exact .last run begins (splitWhitespace_eq_nil none)

theorem plainArguments_of_both {size number : Nat} {last : Bool} {args tail : Text}
    (words : BdatWords size last (splitWhitespace args)) (numbered : Numbered number args tail)
    (marks : last = true → MarksLast tail) : PlainArguments size last args := by
  obtain ⟨blanks, digits, rfl, spaces, run, parsed, stops⟩ := numbered
  obtain ⟨more, rest, rfl, -, split⟩ := splitWhitespace_opening run.1
    (fun _ member => isDigit_solid (run.2 _ member)) tail
  rw [splitWhitespace_blanks fun character member => isSpace_whitespace (spaces character member),
    split] at words
  -- The first word goes no further than the number, for no digit follows that.
  have whole {value : Nat} (read : parseUsize (digits ++ more) = some value) : more = [] := by
    cases more with
    | nil => rfl
    | cons first others =>
        rw [parseUsize_number run, List.all_cons, stops first rfl] at read
        simp at read
  generalize behind : splitWhitespace rest = others at words
  cases words with
  | size read nonzero =>
      obtain rfl := whole read
      rw [List.append_nil] at read
      exact ⟨nonzero, rest, ⟨blanks, digits, rfl, spaces, run, read, stops⟩,
        .blank (splitWhitespace_eq_nil behind)⟩
  | last read nonzero spelled =>
      obtain rfl := whole read
      rw [List.append_nil] at read
      exact ⟨nonzero, rest, ⟨blanks, digits, rfl, spaces, run, read, stops⟩,
        plainTail_of_marks (marks rfl) spelled behind⟩

theorem PlainArguments.parsed {size : Nat} {last : Bool} {args : Text}
    (plain : PlainArguments size last args) :
    BdatCommand.parse args = .ok ⟨size, last⟩ ∧
      parseCommand ("BDAT ".toList ++ args) = .ok (.bdat size last) := by
  obtain ⟨nonzero, tail, numbered, plainTail⟩ := plain
  exact ⟨BdatCommand.parse_ok_iff.mpr (PlainArguments.words ⟨nonzero, tail, numbered, plainTail⟩),
    parseCommand_bdat_iff.mpr ⟨tail, numbered, plainTail.marks⟩⟩

theorem BdatWords.number {size : Nat} {last : Bool} {words : List Text}
    (read : BdatWords size last words) : size ≠ 0 ∧ size < usizeBound := by
  have fits {text : Text} {value : Nat} (parsed : parseUsize text = some value) :
      value < usizeBound := by
    simp only [parseUsize, Option.ite_none_left_eq_some, Option.ite_none_right_eq_some,
      Option.some.injEq] at parsed
    exact parsed.2.2 ▸ parsed.2.1
  cases read with
  | size parsed nonzero => exact ⟨nonzero, fits parsed⟩
  | last parsed nonzero spelled => exact ⟨nonzero, fits parsed⟩

theorem BdatCommand.display_plain {command : BdatCommand} (nonzero : command.chunkSize ≠ 0)
    (fits : command.chunkSize < usizeBound) :
    ∃ printed, command.display = "BDAT ".toList ++ printed ∧
      PlainArguments command.chunkSize command.last printed := by
  obtain ⟨size, last⟩ := command
  have run : Run Char.isDigit (decimal size) :=
    ⟨Nat.toDigits_ne_nil, fun _ member => isDigit_decimal member⟩
  have parsed := parseUsize_decimal fits
  cases last with
  | false =>
      refine ⟨decimal size, rfl, nonzero, [], ⟨[], decimal size, by simp, by simp, run, parsed, ?_⟩,
        .blank (by simp)⟩
      intro first head
      cases head
  | true =>
      refine ⟨decimal size ++ " LAST".toList, List.append_assoc _ _ _, nonzero, " LAST".toList,
        ⟨[], decimal size, rfl, by simp, run, parsed, ?_⟩, ?_⟩
      · intro first head
        obtain rfl := Option.some.inj head
        rfl
      · exact @PlainTail.last [' '] "LAST".toList [] ⟨by simp, by simp [isSpace]⟩
          (Spells.itself "LAST") (by simp)

/-- The two readings of an argument are the same, and so are those of what is printed for
it, exactly if the argument is written plainly or neither of them takes it. -/
theorem bdat_parsers_agree_iff (args : Text) :
    ((∀ size last, BdatCommand.parse args = .ok ⟨size, last⟩ ↔
          parseCommand ("BDAT ".toList ++ args) = .ok (.bdat size last)) ∧
        ∀ command, BdatCommand.parse args = .ok command →
          ∃ printed, command.display = "BDAT ".toList ++ printed ∧
            BdatCommand.parse printed = .ok command ∧
            parseCommand command.display = .ok (.bdat command.chunkSize command.last)) ↔
      ((∃ size last, PlainArguments size last args) ∨
        ¬ ((∃ size last, BdatWords size last (splitWhitespace args)) ∨
          ∃ size tail, Numbered size args tail)) := by
  constructor
  · rintro ⟨agree, -⟩
    by_cases taken : (∃ size last, BdatWords size last (splitWhitespace args)) ∨
        ∃ size tail, Numbered size args tail
    · left
      rcases taken with ⟨size, last, words⟩ | ⟨size, tail, numbered⟩
      · obtain ⟨tail, numbered, marks⟩ :=
          parseCommand_bdat_iff.mp ((agree size last).mp (BdatCommand.parse_ok_iff.mpr words))
        exact ⟨size, last, plainArguments_of_both words numbered marks.mp⟩
      · obtain ⟨last, marks⟩ : ∃ last : Bool, last = true ↔ MarksLast tail := by
          by_cases marked : MarksLast tail
          · exact ⟨true, by simp [marked]⟩
          · exact ⟨false, by simp [marked]⟩
        have words := BdatCommand.parse_ok_iff.mp
          ((agree size last).mpr (parseCommand_bdat_iff.mpr ⟨tail, numbered, marks⟩))
        exact ⟨size, last, plainArguments_of_both words numbered marks.mp⟩
    · exact Or.inr taken
  · intro condition
    refine ⟨?_, ?_⟩
    · intro size last
      rcases condition with ⟨value, flag, plain⟩ | neither
      · rw [plain.parsed.1, plain.parsed.2]
        simp
      · constructor
        · intro parsed
          exact absurd (Or.inl ⟨size, last, BdatCommand.parse_ok_iff.mp parsed⟩) neither
        · intro parsed
          obtain ⟨tail, numbered, -⟩ := parseCommand_bdat_iff.mp parsed
          exact absurd (Or.inr ⟨size, tail, numbered⟩) neither
    · intro command parsed
      obtain ⟨nonzero, fits⟩ := (BdatCommand.parse_ok_iff.mp parsed).number
      obtain ⟨printed, shown, plain⟩ := BdatCommand.display_plain nonzero fits
      refine ⟨printed, shown, plain.parsed.1, ?_⟩
      rw [shown]
      exact plain.parsed.2

/-- A chunk of no octets is refused by one and taken by the other. -/
theorem bdat_zero_disagrees :
    BdatCommand.parse "0".toList = .error .zeroChunkSize ∧
      parseCommand ("BDAT ".toList ++ "0".toList) = .ok (.bdat 0 false) := by
  decide +kernel

end Rusmes
