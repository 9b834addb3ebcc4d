import Rusmes.Sieve.Parser

/-!
Edits of a script inside its comments and its strings. The parser goes through the new
text as it went through the old one, and the strings it reads are the edited ones; only
the end of the new text is missed when a character of it takes more than one octet.
-/

namespace Rusmes

open WireText

/-! Edits of a text. -/

def StringMark (character : Char) : Prop := character = '"' ∨ character = '\\'

/-- A comment with its characters replaced, up to its line feed or the end of the text. -/
inductive CommentEdit : Text → Text → Text → Text → Prop
  | ended : CommentEdit [] [] [] []
  | line (rest next : Text) : CommentEdit ('\n' :: rest) ('\n' :: next) rest next
  | inside {old new : Char} {comment edited rest next : Text} (oldInside : old ≠ '\n')
      (newInside : new ≠ '\n') (others : CommentEdit comment edited rest next) :
      CommentEdit (old :: comment) (new :: edited) rest next

/-- The rest of a string with its characters replaced, and the value it has then. -/
inductive StringEdit : Text → Text → Text → Text → Text → Prop
  | close (rest next : Text) : StringEdit ('"' :: rest) ('"' :: next) [] rest next
  | plain {old new : Char} {raw edited value rest next : Text} (oldPlain : ¬StringMark old)
      (newPlain : ¬StringMark new) (others : StringEdit raw edited value rest next) :
      StringEdit (old :: raw) (new :: edited) (new :: value) rest next
  | escaped {old new : Char} {raw edited value rest next : Text}
      (kept : new = old ∨ ¬StringMark new) (others : StringEdit raw edited value rest next) :
      StringEdit ('\\' :: old :: raw) ('\\' :: new :: edited) (new :: value) rest next
  | unescaped {mark old new : Char} {raw edited value rest next : Text}
      (markPlain : ¬StringMark mark) (newPlain : ¬StringMark new)
      (others : StringEdit raw edited value rest next) :
      StringEdit ('\\' :: old :: raw) (mark :: new :: edited) (mark :: new :: value) rest next

/-- A script with characters of its comments and strings replaced. A string is named by
the old text after its quote, and `values` has the value it gets. -/
inductive ScriptEdit (values : Text → Text) : Text → Text → Prop
  | nil : ScriptEdit values [] []
  | code {character : Char} {old new : Text} (noComment : character ≠ '#')
      (noString : character ≠ '"') (others : ScriptEdit values old new) :
      ScriptEdit values (character :: old) (character :: new)
  | comment {old new rest next : Text} (edited : CommentEdit old new rest next)
      (others : ScriptEdit values rest next) : ScriptEdit values ('#' :: old) ('#' :: new)
  | string {old new value rest next : Text} (edited : StringEdit old new value rest next)
      (same : values old = value) (others : ScriptEdit values rest next) :
      ScriptEdit values ('"' :: old) ('"' :: new)

section Texts

variable {values : Text → Text} {old new value rest next : Text}

theorem CommentEdit.length (edited : CommentEdit old new rest next) :
    old.length + next.length = new.length + rest.length := by
  induction edited with
  | ended => rfl
  | line rest next =>
      simp only [List.length_cons]
      omega
  | inside _ _ _ ih =>
      simp only [List.length_cons]
      omega

theorem CommentEdit.skip (edited : CommentEdit old new rest next) :
    skipFrom true old = skipFrom false rest ∧ skipFrom true new = skipFrom false next := by
  induction edited with
  | ended => exact ⟨rfl, rfl⟩
  | line rest next => exact ⟨rfl, rfl⟩
  | inside oldInside newInside _ ih =>
      rw [skipFrom, skipFrom, decide_eq_true oldInside, decide_eq_true newInside]
      exact ih

theorem StringEdit.length (edited : StringEdit old new value rest next) :
    old.length + next.length = new.length + rest.length := by
  induction edited with
  | close rest next =>
      simp only [List.length_cons]
      omega
  | plain _ _ _ ih =>
      simp only [List.length_cons]
      omega
  | escaped _ _ ih =>
      simp only [List.length_cons]
      omega
  | unescaped _ _ _ ih =>
      simp only [List.length_cons]
      omega

theorem stringRest_plain {character : Char} (plain : ¬StringMark character) (input : Text) :
    stringRest false (character :: input) = do
      let (text, input) ← stringRest false input
      return (character :: text, input) := by
  rw [StringMark, not_or] at plain
  rw [stringRest, if_neg plain.2, if_neg plain.1]

theorem StringEdit.read (edited : StringEdit old new value rest next) :
    stringRest false new = .ok (value, next) := by
  induction edited with
  | close rest next => rfl
  | plain _ newPlain _ ih =>
      rw [stringRest_plain newPlain, ih]
      rfl
  | escaped _ _ ih =>
      rw [stringRest, if_pos rfl, stringRest, ih]
      rfl
  | unescaped markPlain newPlain _ ih =>
      rw [stringRest_plain markPlain, stringRest_plain newPlain, ih]
      rfl

theorem StringEdit.same (edited : StringEdit old new value rest next) :
    ∃ was, StringEdit old old was rest rest := by
  induction edited with
  | close rest next => exact ⟨[], .close rest rest⟩
  | plain oldPlain _ _ ih =>
      obtain ⟨was, others⟩ := ih
      exact ⟨_, .plain oldPlain oldPlain others⟩
  | escaped _ _ ih =>
      obtain ⟨was, others⟩ := ih
      exact ⟨_, .escaped (Or.inl rfl) others⟩
  | unescaped _ _ _ ih =>
      obtain ⟨was, others⟩ := ih
      exact ⟨_, .escaped (Or.inl rfl) others⟩

theorem ScriptEdit.length (edited : ScriptEdit values old new) : old.length = new.length := by
  induction edited with
  | nil => rfl
  | code _ _ _ ih => rw [List.length_cons, List.length_cons, ih]
  | comment edited _ ih =>
      have parts := edited.length
      rw [List.length_cons, List.length_cons]
      omega
  | string edited _ _ ih =>
      have parts := edited.length
      rw [List.length_cons, List.length_cons]
      omega

theorem ScriptEdit.head (edited : ScriptEdit values old new) : new.head? = old.head? := by
  cases edited <;> rfl

theorem ScriptEdit.tail (edited : ScriptEdit values old new) {character : Char}
    (starts : old.head? = some character) (noComment : character ≠ '#')
    (noString : character ≠ '"') : ScriptEdit values old.tail new.tail := by
  cases edited with
  | nil => cases starts
  | code _ _ others => exact others
  | comment _ _ => exact absurd (Option.some.inj starts).symm noComment
  | string _ _ _ => exact absurd (Option.some.inj starts).symm noString

theorem skip_comment (input : Text) : skipFrom false ('#' :: input) = skipFrom true input := by
  rw [skipFrom, if_neg (by decide), if_pos rfl]

theorem skip_string (input : Text) : skipFrom false ('"' :: input) = '"' :: input := by
  rw [skipFrom, if_neg (by decide), if_neg (by decide)]

theorem ScriptEdit.skip (edited : ScriptEdit values old new) :
    ScriptEdit values (skipWhitespace old) (skipWhitespace new) := by
  unfold skipWhitespace
  induction edited with
  | nil => exact .nil
  | @code character old new noComment noString others ih =>
      rw [skipFrom, skipFrom]
      by_cases blank : isWhitespace character
      · rw [if_pos blank, if_pos blank]
        exact ih
      · rw [if_neg blank, if_neg blank, if_neg noComment, if_neg noComment]
        exact .code noComment noString others
  | comment edited _ ih =>
      have skips := edited.skip
      rw [skip_comment, skip_comment, skips.1, skips.2]
      exact ih
  | string edited same others =>
      rw [skip_string, skip_string]
      exact .string edited same others

theorem ScriptEdit.span (edited : ScriptEdit values old new) {accepts : Char → Bool}
    (noComment : accepts '#' = false) (noString : accepts '"' = false) :
    new.takeWhile accepts = old.takeWhile accepts ∧
      ScriptEdit values (old.dropWhile accepts) (new.dropWhile accepts) := by
  induction edited with
  | nil => exact ⟨rfl, .nil⟩
  | @code character old new notComment notString others ih =>
      rw [List.takeWhile_cons, List.takeWhile_cons, List.dropWhile_cons, List.dropWhile_cons]
      by_cases accepted : accepts character
      · rw [if_pos accepted, if_pos accepted, if_pos accepted, if_pos accepted, ih.1]
        exact ⟨rfl, ih.2⟩
      · rw [if_neg accepted, if_neg accepted, if_neg accepted, if_neg accepted]
        exact ⟨rfl, .code notComment notString others⟩
  | comment edited others _ =>
      rw [List.takeWhile_cons, List.takeWhile_cons, List.dropWhile_cons, List.dropWhile_cons,
        noComment]
      exact ⟨rfl, .comment edited others⟩
  | string edited same others _ =>
      rw [List.takeWhile_cons, List.takeWhile_cons, List.dropWhile_cons, List.dropWhile_cons,
        noString]
      exact ⟨rfl, .string edited same others⟩

end Texts

section Fill

variable (values : Text → Text)

mutual

def SieveTest.fill : SieveTest → SieveTest
  | .header comparator matchType headers keys =>
      .header (comparator.map values) matchType (headers.map values) (keys.map values)
  | .address comparator matchType headers keys =>
      .address (comparator.map values) matchType (headers.map values) (keys.map values)
  | .envelope comparator matchType parts keys =>
      .envelope (comparator.map values) matchType (parts.map values) (keys.map values)
  | .exists headers => .exists (headers.map values)
  | .allOf tests => .allOf (fillTests tests)
  | .anyOf tests => .anyOf (fillTests tests)
  | .not test => .not test.fill
  | .true => .true
  | .false => .false
  | .size above limit => .size above limit

def fillTests : List SieveTest → List SieveTest
  | [] => []
  | test :: tests => test.fill :: fillTests tests

end

mutual

def SieveCommand.fill : SieveCommand → SieveCommand
  | .fileinto mailbox => .fileinto (values mailbox)
  | .redirect address => .redirect (values address)
  | .if test thenCommands elsifBranches elseCommands =>
      .if (test.fill values) (fillBlock thenCommands) (fillBranches elsifBranches)
        (fillElse elseCommands)
  | .require extensions => .require (extensions.map values)
  | .set name value => .set (values name) (values value)
  | .vacation days subject sender addresses message =>
      .vacation days (subject.map values) (sender.map values) (addresses.map values)
        (values message)
  | .keep => .keep
  | .discard => .discard
  | .stop => .stop

def fillBlock : List SieveCommand → List SieveCommand
  | [] => []
  | command :: commands => command.fill :: fillBlock commands

def fillBranches : List (SieveTest × List SieveCommand) → List (SieveTest × List SieveCommand)
  | [] => []
  | (test, commands) :: branches =>
      (test.fill values, fillBlock commands) :: fillBranches branches

def fillElse : Option (List SieveCommand) → Option (List SieveCommand)
  | none => none
  | some commands => some (fillBlock commands)

end

def SieveScript.fill (script : SieveScript) : SieveScript :=
  ⟨fillBlock values script.commands, script.requires.map values⟩

def VacationTags.fill (tags : VacationTags) : VacationTags :=
  ⟨tags.days, tags.subject.map values, tags.sender.map values, tags.addresses.map values⟩

end Fill

theorem fillTests_eq_map (values : Text → Text) (tests : List SieveTest) :
    fillTests values tests = tests.map (SieveTest.fill values) := by
  induction tests with
  | nil => rfl
  | cons test tests ih => rw [fillTests, ih, List.map_cons]

theorem fillBlock_append (values : Text → Text) (first second : List SieveCommand) :
    fillBlock values (first ++ second) = fillBlock values first ++ fillBlock values second := by
  induction first with
  | nil => rfl
  | cons command first ih => rw [List.cons_append, fillBlock, fillBlock, ih, List.cons_append]

/-! Runs of a parser on the old and on the new text. -/

/-- Where the old text is read, every edit of it is, with a value of the same shape. -/
def Retraces {α : Type} (fill : (Text → Text) → α → α) (old : Text) (run : Parsing (α × Text))
    (again : (Text → Text) → Text → Parsing (α × Text)) : Prop :=
  ∀ value rest, run = .ok (value, rest) → ∃ named, ∀ values new, ScriptEdit values old new →
    ∃ next, again values new = .ok (fill values named, next) ∧ ScriptEdit values rest next

def ReadsAgain {α : Type} (old : Text) (run : Parsing (α × Text))
    (again : Text → Parsing (α × Text)) : Prop :=
  ∀ value rest, run = .ok (value, rest) → ∀ values new, ScriptEdit values old new →
    ∃ next, again new = .ok (value, next) ∧ ScriptEdit values rest next

namespace Retraces

variable {α β : Type} {fill : (Text → Text) → α → α} {fillOther : (Text → Text) → β → β}
  {old : Text}

theorem done (value named : α) :
    Retraces fill old (.ok (value, old)) fun values new => .ok (fill values named, new) := by
  intro _ _ same
  obtain ⟨_, rfl⟩ := Prod.mk.inj (Except.ok.inj same)
  exact ⟨named, fun values new edited => ⟨new, rfl, edited⟩⟩

theorem failed (error : ParseError) {again : (Text → Text) → Text → Parsing (α × Text)} :
    Retraces fill old (.error error) again := by
  intro _ _ same
  cases same

theorem bind {run : Parsing (α × Text)} {again : (Text → Text) → Text → Parsing (α × Text)}
    {next : α × Text → Parsing (β × Text)}
    {after : (Text → Text) → α × Text → Parsing (β × Text)} (first : Retraces fill old run again)
    (others : ∀ value rest named, Retraces fillOther rest (next (value, rest)) fun values new =>
      after values (fill values named, new)) :
    Retraces fillOther old (run >>= next) fun values new => again values new >>= after values := by
  intro value rest ran
  cases read : run with
  | error error =>
      rw [read] at ran
      cases ran
  | ok pair =>
      rw [read] at ran
      obtain ⟨named, follows⟩ := first pair.1 pair.2 read
      obtain ⟨namedOther, followsOther⟩ := others pair.1 pair.2 named value rest ran
      refine ⟨namedOther, ?_⟩
      intro values new edited
      obtain ⟨middle, readAgain, left⟩ := follows values new edited
      dsimp only
      rw [readAgain]
      exact followsOther values middle left

theorem word {run : Parsing (α × Text)} {again : Text → Parsing (α × Text)}
    {next : α × Text → Parsing (β × Text)}
    {after : (Text → Text) → α × Text → Parsing (β × Text)} (first : ReadsAgain old run again)
    (others : ∀ value rest, Retraces fillOther rest (next (value, rest)) fun values new =>
      after values (value, new)) :
    Retraces fillOther old (run >>= next) fun values new => again new >>= after values := by
  intro value rest ran
  cases read : run with
  | error error =>
      rw [read] at ran
      cases ran
  | ok pair =>
      rw [read] at ran
      obtain ⟨namedOther, followsOther⟩ := others pair.1 pair.2 value rest ran
      refine ⟨namedOther, ?_⟩
      intro values new edited
      obtain ⟨middle, readAgain, left⟩ := first pair.1 pair.2 read values new edited
      dsimp only
      rw [readAgain]
      exact followsOther values middle left

theorem map {run : Parsing (α × Text)} {again : (Text → Text) → Text → Parsing (α × Text)}
    {change : α × Text → β × Text} {after : (Text → Text) → α × Text → β × Text}
    (first : Retraces fill old run again)
    (others : ∀ value rest named, Retraces fillOther rest (.ok (change (value, rest)))
      fun values new => .ok (after values (fill values named, new))) :
    Retraces fillOther old (run.map change) fun values new =>
      (again values new).map (after values) := by
  have mapped : ∀ {γ : Type} (read : Parsing (α × Text)) (shown : α × Text → γ),
      read.map shown = (read >>= fun pair => .ok (shown pair)) := by
    intro γ read shown
    cases read <;> rfl
  simp only [mapped]
  exact bind first others

theorem ite {condition : Prop} [Decidable condition] {yes no : Parsing (α × Text)}
    {yesAgain noAgain : (Text → Text) → Text → Parsing (α × Text)}
    (first : Retraces fill old yes yesAgain) (second : Retraces fill old no noAgain) :
    Retraces fill old (if condition then yes else no) fun values new =>
      if condition then yesAgain values new else noAgain values new := by
  by_cases held : condition
  · simpa only [if_pos held] using first
  · simpa only [if_neg held] using second

theorem branch {condition : Text → Prop} [DecidablePred condition] {yes no : Parsing (α × Text)}
    {yesAgain noAgain : (Text → Text) → Text → Parsing (α × Text)}
    (same : ∀ values new, ScriptEdit values old new → (condition new ↔ condition old))
    (first : condition old → Retraces fill old yes yesAgain)
    (second : ¬condition old → Retraces fill old no noAgain) :
    Retraces fill old (if condition old then yes else no) fun values new =>
      if condition new then yesAgain values new else noAgain values new := by
  intro value rest ran
  by_cases held : condition old
  · rw [if_pos held] at ran
    obtain ⟨named, follows⟩ := first held value rest ran
    refine ⟨named, fun values new edited => ?_⟩
    dsimp only
    rw [if_pos ((same values new edited).mpr held)]
    exact follows values new edited
  · rw [if_neg held] at ran
    obtain ⟨named, follows⟩ := second held value rest ran
    refine ⟨named, fun values new edited => ?_⟩
    dsimp only
    rw [if_neg (mt (same values new edited).mp held)]
    exact follows values new edited

theorem skip {run : Parsing (α × Text)} {again : (Text → Text) → Text → Parsing (α × Text)}
    (follows : Retraces fill (skipWhitespace old) run again) :
    Retraces fill old run fun values new => again values (skipWhitespace new) := by
  intro value rest ran
  obtain ⟨named, reads⟩ := follows value rest ran
  exact ⟨named, fun values new edited => reads values _ edited.skip⟩

theorem counted {run : Parsing (α × Text)}
    (again : Nat → (Text → Text) → Text → Parsing (α × Text))
    (follows : Retraces fill old run (again (old.length + 1))) :
    Retraces fill old run fun values new => again (new.length + 1) values new := by
  intro value rest ran
  obtain ⟨named, reads⟩ := follows value rest ran
  refine ⟨named, fun values new edited => ?_⟩
  dsimp only
  rw [← edited.length]
  exact reads values new edited

theorem expect {symbol : Char} (noComment : symbol ≠ '#') (noString : symbol ≠ '"')
    {next : Text → Parsing (α × Text)} {after : (Text → Text) → Text → Parsing (α × Text)}
    (others : ∀ rest, Retraces fill rest (next rest) after) :
    Retraces fill old (Rusmes.expect [symbol] old >>= next) fun values new =>
      Rusmes.expect [symbol] new >>= after values := by
  intro value rest ran
  rw [Rusmes.expect, expectEach] at ran
  by_cases starts : (skipWhitespace old).head? = some symbol
  · rw [if_pos starts] at ran
    obtain ⟨named, reads⟩ := others _ value rest ran
    refine ⟨named, fun values new edited => ?_⟩
    dsimp only
    rw [Rusmes.expect, expectEach, if_pos (edited.skip.head.trans starts)]
    exact reads values _ (edited.skip.tail starts noComment noString)
  · rw [if_neg starts] at ran
    cases ran

end Retraces

theorem ReadsAgain.skip {α : Type} {old : Text} {run : Parsing (α × Text)}
    {again : Text → Parsing (α × Text)} (reads : ReadsAgain (skipWhitespace old) run again) :
    ReadsAgain old run fun new => again (skipWhitespace new) :=
  fun value rest ran values _ edited => reads value rest ran values _ edited.skip

section Lexical

variable {alphanumeric : Char → Bool} {values : Text → Text} {old new : Text}

theorem wordCharacter_comment : wordCharacter alphanumeric '#' = false := rfl

theorem wordCharacter_string : wordCharacter alphanumeric '"' = false := rfl

theorem parseWord_edit (edited : ScriptEdit values old new) :
    (∃ word rest next, parseWord alphanumeric old = .ok (word, rest) ∧
      parseWord alphanumeric new = .ok (word, next) ∧ ScriptEdit values rest next) ∨
    ∃ error, parseWord alphanumeric old = .error error ∧
      parseWord alphanumeric new = .error error := by
  obtain ⟨same, left⟩ := edited.skip.span (@wordCharacter_comment alphanumeric) wordCharacter_string
  rw [parseWord, parseWord, same]
  by_cases nothing : (skipWhitespace old).takeWhile (wordCharacter alphanumeric) = []
  · exact Or.inr ⟨_, by rw [if_pos nothing], by rw [if_pos nothing]⟩
  · exact Or.inl ⟨_, _, _, by rw [if_neg nothing], by rw [if_neg nothing], left⟩

theorem parseWord_readsAgain (old : Text) :
    ReadsAgain old (parseWord alphanumeric old) (parseWord alphanumeric) := by
  intro word rest read values new edited
  rcases @parseWord_edit alphanumeric _ _ _ edited with
    ⟨other, left, next, was, now, parts⟩ | ⟨error, was, _⟩
  · rw [was] at read
    obtain ⟨rfl, rfl⟩ := Prod.mk.inj (Except.ok.inj read)
    exact ⟨next, now, parts⟩
  · rw [was] at read
    cases read

theorem peekWord_edit (edited : ScriptEdit values old new) :
    peekWord alphanumeric new = peekWord alphanumeric old := by
  rw [peekWord, peekWord]
  rcases @parseWord_edit alphanumeric _ _ _ edited with
    ⟨_, _, _, was, now, _⟩ | ⟨_, was, now⟩
  · rw [was, now]
  · rw [was, now]

theorem parseTag_readsAgain (old : Text) :
    ReadsAgain old (parseTag alphanumeric old) (parseTag alphanumeric) := by
  intro tag rest read values new edited
  have skipped := edited.skip
  rw [parseTag] at read ⊢
  generalize skipWhitespace old = before at skipped read
  generalize skipWhitespace new = after at skipped
  split at read
  · rename_i input
    cases skipped with
    | @code _ _ renewed _ _ others =>
        obtain ⟨same, left⟩ := others.span (@wordCharacter_comment alphanumeric) wordCharacter_string
        dsimp only at read
        split at read
        · cases read
        · rename_i named
          obtain ⟨rfl, rfl⟩ := Prod.mk.inj (Except.ok.inj read)
          refine ⟨_, ?_, left⟩
          change (if List.takeWhile _ renewed = [] then _ else _) = _
          rw [same, if_neg named]
  · cases read

theorem parseString_retraced (old : Text) :
    Retraces (fun values name => values name) old (parseString old) fun _ new => parseString new := by
  intro value rest read
  rw [parseString] at read
  split at read
  · rename_i raw shape
    refine ⟨raw, fun values new edited => ?_⟩
    have skipped := edited.skip
    rw [shape] at skipped
    dsimp only
    rw [parseString]
    generalize skipWhitespace new = after at skipped
    cases skipped with
    | code _ noString _ => exact absurd rfl noString
    | string inner same others =>
        obtain ⟨was, kept⟩ := inner.same
        have oldRead := kept.read
        rw [oldRead] at read
        obtain ⟨_, rfl⟩ := Prod.mk.inj (Except.ok.inj read)
        rw [same]
        exact ⟨_, inner.read, others⟩
  · cases read

theorem suffixMultiplier_code {character : Char} {multiplier : Int}
    (suffix : suffixMultiplier character = some multiplier) :
    character ≠ '#' ∧ character ≠ '"' := by
  constructor <;> rintro rfl <;> cases suffix

theorem parseNumber_readsAgain (old : Text) : ReadsAgain old (parseNumber old) parseNumber := by
  intro number rest read values new edited
  obtain ⟨same, left⟩ := @ScriptEdit.span _ _ _ edited.skip Char.isDigit rfl rfl
  rw [parseNumber] at read ⊢
  rw [same, left.head]
  generalize (skipWhitespace old).takeWhile Char.isDigit = digits at read ⊢
  generalize (skipWhitespace old).dropWhile Char.isDigit = before at read left ⊢
  generalize (skipWhitespace new).dropWhile Char.isDigit = after at left ⊢
  split at read
  · cases read
  · rename_i some
    rw [if_neg some]
    cases value : parseI64 digits with
    | error error =>
        rw [value] at read
        split at read <;> cases read
    | ok base =>
        rw [value] at read
        split at read
        · rename_i multiplier suffix
          obtain ⟨character, starts, scale⟩ := Option.bind_eq_some_iff.mp suffix
          obtain ⟨noComment, noString⟩ := suffixMultiplier_code scale
          obtain ⟨rfl, rfl⟩ := Prod.mk.inj (Except.ok.inj read)
          exact ⟨_, rfl, left.tail starts noComment noString⟩
        · obtain ⟨rfl, rfl⟩ := Prod.mk.inj (Except.ok.inj read)
          exact ⟨_, rfl, left⟩

end Lexical

section Lists

variable {α : Type} {fill : (Text → Text) → α → α} {values : Text → Text} {old new : Text}

theorem starts_edit (symbol : Char) (edited : ScriptEdit values old new) :
    (skipWhitespace new).head? = some symbol ↔ (skipWhitespace old).head? = some symbol := by
  rw [edited.skip.head]

theorem head_edit (symbol : Char) (edited : ScriptEdit values old new) :
    new.head? ≠ some symbol ↔ old.head? ≠ some symbol := by
  rw [edited.head]

theorem ScriptEdit.comma (edited : ScriptEdit values old new) :
    ScriptEdit values (if old.head? = some ',' then old.tail else old)
      (if new.head? = some ',' then new.tail else new) := by
  rw [edited.head]
  by_cases comma : old.head? = some ','
  · rw [if_pos comma, if_pos comma]
    exact edited.tail comma (by decide) (by decide)
  · rw [if_neg comma, if_neg comma]
    exact edited

theorem Retraces.comma {run : Parsing (α × Text)}
    {again : (Text → Text) → Text → Parsing (α × Text)}
    (follows : Retraces fill (if old.head? = some ',' then old.tail else old) run again) :
    Retraces fill old run fun values new =>
      again values (if new.head? = some ',' then new.tail else new) := by
  intro value rest ran
  obtain ⟨named, reads⟩ := follows value rest ran
  exact ⟨named, fun values new edited => reads values _ edited.comma⟩

theorem itemsUntil_retraced {closing : Char} {item : Text → Parsing (α × Text)}
    (items : ∀ old, Retraces fill old (item old) fun _ new => item new) : ∀ steps old,
      Retraces (fun values => List.map (fill values)) old (itemsUntil closing item steps old)
        fun _ new => itemsUntil closing item steps new := by
  intro steps
  induction steps with
  | zero => intro old; exact .failed _
  | succ steps ih =>
      intro old
      unfold itemsUntil
      refine .branch (fun _ _ => starts_edit closing) (fun _ => ?_) fun _ => ?_
      · exact (Retraces.done [] []).skip
      · refine .bind (items _).skip fun first rest named => ?_
        have later : ∀ old, Retraces (fun values => List.map (fill values)) old
            (itemsUntil closing item steps old >>= fun others => .ok (first :: others.1, others.2))
            fun values new => itemsUntil closing item steps new >>= fun others =>
              .ok (fill values named :: others.1, others.2) :=
          fun old => .bind (ih old) fun others left namedOthers =>
            .done (first :: others) (named :: namedOthers)
        exact (later _).comma.skip

theorem parseStringList_retraced (old : Text) :
    Retraces (fun values => List.map values) old (parseStringList old)
      fun _ new => parseStringList new := by
  unfold parseStringList
  refine .expect (by decide) (by decide) fun rest => ?_
  refine .bind (.counted (fun steps _ new => itemsUntil ']' parseString steps new)
    (itemsUntil_retraced parseString_retraced _ rest)) fun strings left named => ?_
  refine .expect (by decide) (by decide) fun final => ?_
  exact .done strings named

theorem parseStringOrList_retraced (old : Text) :
    Retraces (fun values => List.map values) old (parseStringOrList old)
      fun _ new => parseStringOrList new := by
  unfold parseStringOrList
  refine .branch (fun _ _ => starts_edit '"') (fun _ => ?_) fun _ => ?_
  · refine .map (parseString_retraced _).skip fun text rest named => ?_
    exact .done [text] [named]
  · refine .branch (fun _ _ => starts_edit '[') (fun _ => ?_) fun _ => .failed _
    exact (parseStringList_retraced _).skip

end Lists

/-! Tests. -/

section Tests

variable {alphanumeric : Char → Bool} {values : Text → Text} {old new : Text}

def fillTags (values : Text → Text) (tags : Option Text × Text) : Option Text × Text :=
  (tags.1.map values, tags.2)

theorem testTags_retraced (strict : Bool) : ∀ steps comparator (named : Option Text) matchType old,
    Retraces fillTags old (testTags alphanumeric strict steps comparator matchType old)
      fun values new => testTags alphanumeric strict steps (named.map values) matchType new := by
  intro steps
  induction steps with
  | zero => intro _ _ _ _; exact .failed _
  | succ steps ih =>
      intro comparator named matchType old
      unfold testTags
      refine .branch (fun _ _ => head_edit ':') (fun _ => ?_) fun _ => ?_
      · exact .done (comparator, matchType) (named, matchType)
      · refine .word (parseTag_readsAgain old) fun tag rest => ?_
        refine .ite ?_ (.ite ?_ (.ite (.failed _) ?_))
        · refine .bind (parseString_retraced _).skip fun name left namedName => ?_
          exact (ih (some name) (some namedName) matchType _).skip
        · exact (ih comparator named tag.tail _).skip
        · exact (ih comparator named matchType _).skip

theorem parseMatchTest_retraced (strict : Bool)
    {make : Option Text → Text → List Text → List Text → SieveTest}
    (shape : ∀ (values : Text → Text) comparator matchType headers keys,
      (make comparator matchType headers keys).fill values =
        make (comparator.map values) matchType (headers.map values) (keys.map values))
    (old : Text) : Retraces SieveTest.fill old (parseMatchTest alphanumeric strict make old)
      fun _ new => parseMatchTest alphanumeric strict make new := by
  unfold parseMatchTest
  have tags : ∀ old, Retraces fillTags old
      (testTags alphanumeric strict (old.length + 1) none "is".toList old)
      fun _ new => testTags alphanumeric strict (new.length + 1) none "is".toList new :=
    fun old => .counted (fun steps _ new => testTags alphanumeric strict steps none "is".toList new)
      (testTags_retraced strict _ none none "is".toList old)
  refine .bind (tags _).skip fun found rest namedTags => ?_
  refine .bind (parseStringOrList_retraced rest) fun headers left namedHeaders => ?_
  refine .bind (parseStringOrList_retraced _).skip fun keys final namedKeys => ?_
  have made := @Retraces.done _ SieveTest.fill final (make found.1 found.2 headers keys)
    (make namedTags.1 namedTags.2 namedHeaders namedKeys)
  simp only [shape] at made
  exact made

theorem parseExistsTest_retraced (old : Text) :
    Retraces SieveTest.fill old (parseExistsTest old) fun _ new => parseExistsTest new := by
  unfold parseExistsTest
  refine .bind (parseStringOrList_retraced _).skip fun headers rest named => ?_
  exact .done (SieveTest.exists headers) (SieveTest.exists named)

theorem parseSizeTest_retraced (old : Text) :
    Retraces SieveTest.fill old (parseSizeTest alphanumeric old)
      fun _ new => parseSizeTest alphanumeric new := by
  unfold parseSizeTest
  refine .word (parseTag_readsAgain _).skip fun tag rest => ?_
  have limited : ∀ above, Retraces SieveTest.fill rest
      (parseNumber (skipWhitespace rest) >>= fun limit =>
        .ok (SieveTest.size above limit.1, limit.2))
      fun _ new => parseNumber (skipWhitespace new) >>= fun limit =>
        .ok (SieveTest.size above limit.1, limit.2) :=
    fun above => .word (parseNumber_readsAgain _).skip fun limit left =>
      .done (SieveTest.size above limit) (SieveTest.size above limit)
  exact .ite (limited true) (.ite (limited false) (.failed _))

theorem parseTestList_retraced {test : Text → Parsing (SieveTest × Text)}
    (tests : ∀ old, Retraces SieveTest.fill old (test old) fun _ new => test new)
    {make : List SieveTest → SieveTest}
    (shape : ∀ (values : Text → Text) tests, (make tests).fill values =
      make (tests.map (SieveTest.fill values))) (old : Text) :
    Retraces SieveTest.fill old (parseTestList test make old)
      fun _ new => parseTestList test make new := by
  unfold parseTestList
  have list : ∀ old, Retraces SieveTest.fill old
      (expect "(".toList old >>= fun input =>
        itemsUntil ')' test (input.length + 1) input >>= fun items =>
          expect ")".toList items.2 >>= fun input => .ok (make items.1, input))
      fun _ new => expect "(".toList new >>= fun input =>
        itemsUntil ')' test (input.length + 1) input >>= fun items =>
          expect ")".toList items.2 >>= fun input => .ok (make items.1, input) := by
    intro old
    refine .expect (by decide) (by decide) fun rest => ?_
    refine .bind (.counted (fun steps _ new => itemsUntil ')' test steps new)
      (itemsUntil_retraced tests _ rest)) fun items left named => ?_
    dsimp only
    refine .expect (by decide) (by decide) fun final => ?_
    have made := @Retraces.done _ SieveTest.fill final (make items) (make named)
    simp only [shape] at made
    exact made
  exact (list _).skip

theorem parseNotTest_retraced {test : Text → Parsing (SieveTest × Text)}
    (tests : ∀ old, Retraces SieveTest.fill old (test old) fun _ new => test new) (old : Text) :
    Retraces SieveTest.fill old (parseNotTest test old) fun _ new => parseNotTest test new := by
  unfold parseNotTest
  refine .bind (tests _).skip fun inner rest named => ?_
  exact .done (SieveTest.not inner) (SieveTest.not named)

theorem parseTestNamed_retraced {test : Text → Parsing (SieveTest × Text)}
    (tests : ∀ old, Retraces SieveTest.fill old (test old) fun _ new => test new)
    (word old : Text) : Retraces SieveTest.fill old (parseTestNamed alphanumeric test word old)
      fun _ new => parseTestNamed alphanumeric test word new := by
  have listed : ∀ {make : List SieveTest → SieveTest}, (make = .allOf ∨ make = .anyOf) →
      ∀ (values : Text → Text) tests, (make tests).fill values =
        make (tests.map (SieveTest.fill values)) := by
    rintro make (rfl | rfl) values tests <;> rw [SieveTest.fill, fillTests_eq_map]
  unfold parseTestNamed
  refine .ite (.done SieveTest.true .true) (.ite (.done SieveTest.false .false) (.ite ?_ (.ite ?_ (.ite ?_ (.ite ?_
    (.ite ?_ (.ite ?_ (.ite ?_ (.ite ?_ (.failed _))))))))))
  · exact parseMatchTest_retraced true (fun _ _ _ _ _ => rfl) old
  · exact parseMatchTest_retraced false (fun _ _ _ _ _ => rfl) old
  · exact parseMatchTest_retraced false (fun _ _ _ _ _ => rfl) old
  · exact parseExistsTest_retraced old
  · exact parseSizeTest_retraced old
  · exact parseTestList_retraced tests (listed (Or.inl rfl)) old
  · exact parseTestList_retraced tests (listed (Or.inr rfl)) old
  · exact parseNotTest_retraced tests old

theorem parseTest_retraced : ∀ steps old,
    Retraces SieveTest.fill old (parseTest alphanumeric steps old)
      fun _ new => parseTest alphanumeric steps new := by
  intro steps
  induction steps with
  | zero => intro old; exact .failed _
  | succ steps ih =>
      intro old
      unfold parseTest
      refine .word (parseWord_readsAgain old) fun word rest => ?_
      exact parseTestNamed_retraced ih word rest

end Tests

/-! Commands. -/

section Commands

variable {alphanumeric : Char → Bool} {test : Text → Parsing (SieveTest × Text)}
  {command : Text → Parsing (SieveCommand × Text)} {old : Text}

theorem semicolon_retraced {make : (Text → Text) → SieveCommand} (made named : SieveCommand)
    (shape : ∀ values, make values = named.fill values) (old : Text) :
    Retraces SieveCommand.fill old (expect ";".toList old >>= fun input => .ok (made, input))
      fun values new => expect ";".toList new >>= fun input => .ok (make values, input) := by
  refine .expect (by decide) (by decide) fun rest => ?_
  simp only [shape]
  exact .done made named

theorem parseRequire_retraced (old : Text) :
    Retraces SieveCommand.fill old (parseRequire old) fun _ new => parseRequire new := by
  unfold parseRequire
  dsimp only
  have finish : ∀ extensions rest named, Retraces SieveCommand.fill rest
      (expect ";".toList rest >>= fun input => .ok (.require extensions, input))
      fun values new => expect ";".toList new >>= fun input =>
        .ok (.require (List.map values named), input) :=
    fun extensions rest named =>
      semicolon_retraced (.require extensions) (.require named) (fun _ => rfl) rest
  refine .branch (fun _ _ => starts_edit '"') (fun _ => ?_) fun _ => ?_
  · have quoted : Retraces (fun values => List.map values) old
        ((parseString (skipWhitespace old)).map fun (text, input) => ([text], input))
        fun _ new => (parseString (skipWhitespace new)).map fun (text, input) => ([text], input) :=
      .map (parseString_retraced _).skip fun text rest named => .done [text] [named]
    exact .bind quoted fun extensions rest named => finish extensions rest named
  · refine .branch (fun _ _ => starts_edit '[') (fun _ => ?_) fun _ => .failed _
    exact .bind (parseStringList_retraced _).skip fun extensions rest named =>
      finish extensions rest named

theorem parseFileinto_retraced (old : Text) :
    Retraces SieveCommand.fill old (parseFileinto old) fun _ new => parseFileinto new := by
  unfold parseFileinto
  refine .bind (parseString_retraced _).skip fun mailbox rest named => ?_
  exact semicolon_retraced (.fileinto mailbox) (.fileinto named) (fun _ => rfl) rest

theorem parseRedirect_retraced (old : Text) :
    Retraces SieveCommand.fill old (parseRedirect old) fun _ new => parseRedirect new := by
  unfold parseRedirect
  refine .bind (parseString_retraced _).skip fun address rest named => ?_
  exact semicolon_retraced (.redirect address) (.redirect named) (fun _ => rfl) rest

theorem parseSet_retraced (old : Text) :
    Retraces SieveCommand.fill old (parseSet old) fun _ new => parseSet new := by
  unfold parseSet
  refine .bind (parseString_retraced _).skip fun name rest namedName => ?_
  refine .bind (parseString_retraced _).skip fun value left namedValue => ?_
  exact semicolon_retraced (.set name value) (.set namedName namedValue) (fun _ => rfl) left

theorem vacationTag_retraced (tags named : VacationTags) (tag old : Text) :
    Retraces (fun values tags => tags.fill values) old (vacationTag tags tag old)
      fun values new => vacationTag (named.fill values) tag new := by
  unfold vacationTag
  refine .ite ?_ (.ite ?_ (.ite ?_ (.ite ?_ (.failed _))))
  · intro value rest ran
    cases read : parseNumber old with
    | error error =>
        rw [read] at ran
        cases ran
    | ok pair =>
        rw [read] at ran
        obtain ⟨rfl, rfl⟩ := Prod.mk.inj (Except.ok.inj ran)
        refine ⟨{ named with days := some pair.1 }, fun values new edited => ?_⟩
        obtain ⟨next, again, left⟩ := parseNumber_readsAgain old _ _ read values new edited
        dsimp only
        rw [again]
        exact ⟨next, rfl, left⟩
  · refine .map (parseString_retraced old) fun subject rest name => ?_
    exact .done { tags with subject := some subject } { named with subject := some name }
  · refine .map (parseString_retraced old) fun sender rest name => ?_
    exact .done { tags with sender := some sender } { named with sender := some name }
  · refine .map (parseStringList_retraced old) fun addresses rest names => ?_
    exact .done { tags with addresses } { named with addresses := names }

theorem vacationTags_retraced : ∀ steps tags (named : VacationTags) old,
    Retraces (fun values tags => tags.fill values) old (vacationTags alphanumeric steps tags old)
      fun values new => vacationTags alphanumeric steps (named.fill values) new := by
  intro steps
  induction steps with
  | zero => intro _ _ _; exact .failed _
  | succ steps ih =>
      intro tags named old
      unfold vacationTags
      refine .branch (fun _ _ => head_edit ':') (fun _ => .done tags named) fun _ => ?_
      refine .word (parseTag_readsAgain old) fun tag rest => ?_
      refine .bind (vacationTag_retraced tags named tag _).skip fun changed left namedChanged => ?_
      exact (ih changed namedChanged _).skip

theorem parseVacation_retraced (old : Text) :
    Retraces SieveCommand.fill old (parseVacation alphanumeric old)
      fun _ new => parseVacation alphanumeric new := by
  unfold parseVacation
  have tags : ∀ old, Retraces (fun values tags => tags.fill values) old
      (vacationTags alphanumeric (old.length + 1) ⟨none, none, none, []⟩ old)
      fun _ new => vacationTags alphanumeric (new.length + 1) ⟨none, none, none, []⟩ new :=
    fun old => .counted
      (fun steps _ new => vacationTags alphanumeric steps ⟨none, none, none, []⟩ new)
      (vacationTags_retraced _ _ ⟨none, none, none, []⟩ old)
  refine .bind (tags _).skip fun found rest namedTags => ?_
  refine .bind (parseString_retraced rest) fun message left namedMessage => ?_
  exact semicolon_retraced
    (.vacation found.days found.subject found.sender found.addresses message)
    (.vacation namedTags.days namedTags.subject namedTags.sender namedTags.addresses namedMessage)
    (fun _ => rfl) left

theorem commandsUntil_retraced
    (commands : ∀ old, Retraces SieveCommand.fill old (command old) fun _ new => command new) :
    ∀ steps old, Retraces fillBlock old (commandsUntil command steps old)
      fun _ new => commandsUntil command steps new := by
  intro steps
  induction steps with
  | zero => intro old; exact .failed _
  | succ steps ih =>
      intro old
      unfold commandsUntil
      refine .branch (fun _ _ => starts_edit '\x7d') (fun _ => ?_) fun _ => ?_
      · exact (Retraces.done [] []).skip
      · refine .bind (commands _).skip fun first rest named => ?_
        refine .bind (ih rest) fun others left namedOthers => ?_
        exact .done (first :: others) (named :: namedOthers)

theorem parseBlock_retraced
    (commands : ∀ old, Retraces SieveCommand.fill old (command old) fun _ new => command new)
    (old : Text) :
    Retraces fillBlock old (parseBlock command old) fun _ new => parseBlock command new := by
  unfold parseBlock
  refine .expect (by decide) (by decide) fun rest => ?_
  refine .bind (.counted (fun steps _ new => commandsUntil command steps new)
    (commandsUntil_retraced commands _ rest)) fun block left named => ?_
  refine .expect (by decide) (by decide) fun final => ?_
  exact .done block named

def fillBranching (values : Text → Text)
    (branching : List (SieveTest × List SieveCommand) × Option (List SieveCommand)) :
    List (SieveTest × List SieveCommand) × Option (List SieveCommand) :=
  (fillBranches values branching.1, fillElse values branching.2)

theorem parseBranches_retraced
    (tests : ∀ old, Retraces SieveTest.fill old (test old) fun _ new => test new)
    (commands : ∀ old, Retraces SieveCommand.fill old (command old) fun _ new => command new) :
    ∀ steps old, Retraces fillBranching old (parseBranches alphanumeric test command steps old)
      fun _ new => parseBranches alphanumeric test command steps new := by
  have peeked : ∀ {values old new} (word : Text), ScriptEdit values old new →
      (peekWord alphanumeric (skipWhitespace new) = some word ↔
        peekWord alphanumeric (skipWhitespace old) = some word) := by
    intro values old new word edited
    rw [peekWord_edit edited.skip]
  intro steps
  induction steps with
  | zero => intro old; exact .failed _
  | succ steps ih =>
      intro old
      unfold parseBranches
      refine .branch (fun _ _ => peeked "elsif".toList) (fun _ => ?_) fun _ => ?_
      · refine .word (parseWord_readsAgain _).skip fun _ rest => ?_
        refine .bind (tests _).skip fun condition left namedCondition => ?_
        refine .bind (parseBlock_retraced commands _).skip fun block next namedBlock => ?_
        refine .bind (ih next) fun branching final namedBranching => ?_
        exact .done ((condition, block) :: branching.1, branching.2)
          ((namedCondition, namedBlock) :: namedBranching.1, namedBranching.2)
      · refine .branch (fun _ _ => peeked "else".toList) (fun _ => ?_) fun _ => ?_
        · refine .word (parseWord_readsAgain _).skip fun _ rest => ?_
          refine .bind (parseBlock_retraced commands _).skip fun block next namedBlock => ?_
          exact .done ([], some block) ([], some namedBlock)
        · exact (Retraces.done ([], none) ([], none)).skip

theorem parseIf_retraced
    (tests : ∀ old, Retraces SieveTest.fill old (test old) fun _ new => test new)
    (commands : ∀ old, Retraces SieveCommand.fill old (command old) fun _ new => command new)
    (old : Text) : Retraces SieveCommand.fill old (parseIf alphanumeric test command old)
      fun _ new => parseIf alphanumeric test command new := by
  unfold parseIf
  refine .bind (tests _).skip fun condition rest namedCondition => ?_
  refine .bind (parseBlock_retraced commands _).skip fun block left namedBlock => ?_
  refine .bind (.counted (fun steps _ new => parseBranches alphanumeric test command steps new)
    (parseBranches_retraced tests commands _ left)) fun branching final namedBranching => ?_
  exact .done (SieveCommand.if condition block branching.1 branching.2)
    (SieveCommand.if namedCondition namedBlock namedBranching.1 namedBranching.2)

theorem parseSieveCommandNamed_retraced
    (tests : ∀ old, Retraces SieveTest.fill old (test old) fun _ new => test new)
    (commands : ∀ old, Retraces SieveCommand.fill old (command old) fun _ new => command new)
    (word old : Text) :
    Retraces SieveCommand.fill old (parseSieveCommandNamed alphanumeric test command word old)
      fun _ new => parseSieveCommandNamed alphanumeric test command word new := by
  unfold parseSieveCommandNamed
  refine .ite (parseRequire_retraced old) (.ite (parseIf_retraced tests commands old) (.ite ?_
    (.ite ?_ (.ite ?_ (.ite (parseFileinto_retraced old) (.ite (parseRedirect_retraced old)
      (.ite (parseSet_retraced old) (.ite (parseVacation_retraced old) (.failed _)))))))))
  · exact semicolon_retraced .keep .keep (fun _ => rfl) old
  · exact semicolon_retraced .discard .discard (fun _ => rfl) old
  · exact semicolon_retraced .stop .stop (fun _ => rfl) old

theorem parseSieveCommand_retraced : ∀ steps old,
    Retraces SieveCommand.fill old (parseSieveCommand alphanumeric steps old)
      fun _ new => parseSieveCommand alphanumeric steps new := by
  intro steps
  induction steps with
  | zero => intro old; exact .failed _
  | succ steps ih =>
      intro old
      unfold parseSieveCommand
      refine .word (parseWord_readsAgain _).skip fun word rest => ?_
      exact parseSieveCommandNamed_retraced (parseTest_retraced steps) ih word rest

end Commands

/-! Whole scripts. -/

section Scripts

variable {alphanumeric : Char → Bool} {values : Text → Text} {depth : Nat}
  {old new text value rest next : Text} {script parsed : SieveScript}

def ownValue (quoted : Text) : Text :=
  match stringRest false quoted with
  | .ok (value, _) => value
  | .error _ => []

/-- A script with characters of its comments replaced, and its strings as they are. -/
inductive CommentsEdit : Text → Text → Prop
  | nil : CommentsEdit [] []
  | code {character : Char} {old new : Text} (noComment : character ≠ '#')
      (noString : character ≠ '"') (others : CommentsEdit old new) :
      CommentsEdit (character :: old) (character :: new)
  | comment {old new rest next : Text} (edited : CommentEdit old new rest next)
      (others : CommentsEdit rest next) : CommentsEdit ('#' :: old) ('#' :: new)
  | string {raw value rest next : Text} (read : stringRest false (raw ++ rest) = .ok (value, rest))
      (others : CommentsEdit rest next) :
      CommentsEdit ('"' :: (raw ++ rest)) ('"' :: (raw ++ next))

theorem stringRest_shorter {escaped : Bool} {input value rest : Text}
    (read : stringRest escaped input = .ok (value, rest)) : rest.length < input.length := by
  have below := stringRest_below escaped input
  rw [read] at below
  exact below

theorem keptText {character : Char} {escaped : Bool} {input value rest : Text}
    (read : (do
      let (text, input) ← stringRest escaped input
      return (character :: text, input)) = .ok (value, rest)) :
    ∃ text, stringRest escaped input = .ok (text, rest) ∧ value = character :: text := by
  cases later : stringRest escaped input with
  | error error =>
      rw [later] at read
      cases read
  | ok pair =>
      rw [later] at read
      obtain ⟨rfl, rfl⟩ := Prod.mk.inj (Except.ok.inj read)
      exact ⟨pair.1, rfl, rfl⟩

theorem stringEdit_kept (next : Text) {rest : Text} : ∀ {raw value : Text},
    stringRest false (raw ++ rest) = .ok (value, rest) →
      StringEdit (raw ++ rest) (raw ++ next) value rest next := by
  have short : ∀ {escaped value}, stringRest escaped rest ≠ .ok (value, rest) :=
    fun read => absurd (stringRest_shorter read) (Nat.lt_irrefl _)
  intro raw
  induction raw using List.twoStepInduction with
  | nil => intro value read; exact absurd read short
  | singleton character =>
      intro value read
      rw [List.singleton_append, stringRest] at read
      by_cases escapes : character = '\\'
      · rw [if_pos escapes] at read
        exact absurd read short
      · rw [if_neg escapes] at read
        by_cases closes : character = '"'
        · rw [if_pos closes] at read
          obtain ⟨rfl, -⟩ := Prod.mk.inj (Except.ok.inj read)
          rw [closes]
          exact .close rest next
        · rw [if_neg closes] at read
          obtain ⟨text, later, -⟩ := keptText read
          exact absurd later short
  | cons_cons first second raw ih ihNext =>
      intro value read
      rw [List.cons_append, stringRest] at read
      by_cases escapes : first = '\\'
      · rw [if_pos escapes, List.cons_append, stringRest] at read
        obtain ⟨text, later, rfl⟩ := keptText read
        rw [escapes]
        exact .escaped (Or.inl rfl) (ih later)
      · rw [if_neg escapes] at read
        by_cases closes : first = '"'
        · rw [if_pos closes] at read
          have long := congrArg List.length (Prod.mk.inj (Except.ok.inj read)).2
          simp only [List.cons_append, List.length_cons, List.length_append] at long
          omega
        · rw [if_neg closes] at read
          obtain ⟨text, later, rfl⟩ := keptText read
          have plain : ¬StringMark first := fun mark => mark.elim closes escapes
          exact .plain plain plain (ihNext second later)

theorem CommentsEdit.kept (edited : CommentsEdit old new) : ScriptEdit ownValue old new := by
  induction edited with
  | nil => exact .nil
  | code noComment noString _ ih => exact .code noComment noString ih
  | comment edited _ ih => exact .comment edited ih
  | string read _ ih =>
      refine .string (stringEdit_kept _ read) ?_ ih
      rw [ownValue, read]

theorem CommentEdit.same (edited : CommentEdit old new rest next) :
    CommentEdit old old rest rest := by
  induction edited with
  | ended => exact .ended
  | line rest next => exact .line rest rest
  | inside oldInside _ _ ih => exact .inside oldInside oldInside ih

theorem ScriptEdit.own (edited : ScriptEdit values old new) : ScriptEdit ownValue old old := by
  induction edited with
  | nil => exact .nil
  | code noComment noString _ ih => exact .code noComment noString ih
  | comment edited _ ih => exact .comment edited.same ih
  | string edited _ _ ih =>
      obtain ⟨was, same⟩ := edited.same
      refine .string same ?_ ih
      rw [ownValue, same.read]

theorem fill_addCommand (script : SieveScript) (command : SieveCommand) :
    (script.addCommand command).fill values =
      (script.fill values).addCommand (command.fill values) := by
  cases command <;>
    simp [SieveScript.addCommand, SieveScript.fill, SieveCommand.fill, fillBlock_append, fillBlock]

theorem parseScript_long : ∀ {steps script input},
    parseScript alphanumeric false depth steps script input ≠ .ok parsed := by
  intro steps
  induction steps with
  | zero => intro _ _ ran; cases ran
  | succ steps ih =>
      intro script input ran
      rw [parseScript, if_neg (by simp)] at ran
      cases read : parseSieveCommand alphanumeric depth input with
      | error error =>
          rw [read] at ran
          cases ran
      | ok pair =>
          rw [read] at ran
          exact ih ran

theorem parse_ascii (accepted : SieveScript.parse alphanumeric text = .ok parsed) :
    octetLength text = text.length := by
  by_contra long
  rw [SieveScript.parse, decide_eq_false long] at accepted
  exact parseScript_long accepted

theorem parseScript_edited : ∀ {steps} {script named : SieveScript} {old},
    parseScript alphanumeric true depth steps script old = .ok parsed →
      ∃ result : SieveScript, ∀ values new, ScriptEdit values old new →
        parseScript alphanumeric true depth steps (named.fill values) new =
          .ok (result.fill values) := by
  intro steps
  induction steps with
  | zero => intro _ _ _ ran; cases ran
  | succ steps ih =>
      intro script named old ran
      rw [parseScript] at ran
      by_cases ended : old = []
      · refine ⟨named, fun values new edited => ?_⟩
        rw [ended] at edited
        cases edited
        rw [parseScript, if_pos ⟨rfl, rfl⟩]
      · rw [if_neg (fun both => ended both.1)] at ran
        cases read : parseSieveCommand alphanumeric depth old with
        | error error =>
            rw [read] at ran
            cases ran
        | ok pair =>
            rw [read] at ran
            obtain ⟨command, again⟩ := parseSieveCommand_retraced depth old pair.1 pair.2 read
            obtain ⟨result, others⟩ := @ih _ (named.addCommand command) _ ran
            refine ⟨result, fun values new edited => ?_⟩
            obtain ⟨next, readAgain, left⟩ := again values new edited
            dsimp only at readAgain
            have goesOn : new ≠ [] := fun empty =>
              ended (List.length_eq_zero_iff.mp (by rw [edited.length, empty]; rfl))
            have run := others values _ left.skip
            rw [fill_addCommand] at run
            rw [parseScript, if_neg (fun both => goesOn both.1), readAgain]
            exact run

/-- An edit in comments changes nothing, and one in strings only their values, exactly when
the new text is ASCII. -/
theorem edits_keep_script_iff (accepted : SieveScript.parse alphanumeric text = .ok script) :
    (∀ new, CommentsEdit text new →
      (SieveScript.parse alphanumeric new = .ok script ↔
        ∀ character ∈ new, character.toNat < 128)) ∧
    ∃ named : SieveScript, ∀ values new, ScriptEdit values text new →
      named.fill ownValue = script ∧
        (SieveScript.parse alphanumeric new = .ok (named.fill values) ↔
          ∀ character ∈ new, character.toNat < 128) := by
  have short := parse_ascii accepted
  have ran := accepted
  rw [SieveScript.parse, decide_eq_true short] at ran
  obtain ⟨named, again⟩ := @parseScript_edited _ _ _ _ _ .empty _ ran
  have reads : ∀ values new, ScriptEdit values text new →
      (SieveScript.parse alphanumeric new = .ok (named.fill values) ↔
        ∀ character ∈ new, character.toNat < 128) := by
    intro values new edited
    refine ⟨fun parsed => octetLength_eq_length_iff.mp (parse_ascii parsed), fun ascii => ?_⟩
    rw [SieveScript.parse, decide_eq_true (octetLength_ascii ascii), ← edited.length]
    exact again values _ edited.skip
  have own : ∀ values new, ScriptEdit values text new → named.fill ownValue = script := by
    intro values new edited
    have parsed := (reads ownValue text edited.own).mpr (octetLength_eq_length_iff.mp short)
    exact Except.ok.inj (parsed.symm.trans accepted)
  refine ⟨fun new edited => ?_, named, fun values new edited => ⟨own values new edited, ?_⟩⟩
  · rw [← own _ new edited.kept]
    exact reads ownValue new edited.kept
  · exact reads values new edited

theorem edits_keep_script_keep :
    (∀ new, CommentsEdit "keep; # x".toList new →
      (SieveScript.parse Char.isAlphanum new = .ok ⟨[.keep], []⟩ ↔
        ∀ character ∈ new, character.toNat < 128)) ∧
    ∃ named : SieveScript, ∀ values new, ScriptEdit values "keep; # x".toList new →
      named.fill ownValue = ⟨[.keep], []⟩ ∧
        (SieveScript.parse Char.isAlphanum new = .ok (named.fill values) ↔
          ∀ character ∈ new, character.toNat < 128) :=
  edits_keep_script_iff rfl

/-- A letter of two octets in a comment after the last command. -/
theorem accent_in_comment_rejected :
    SieveScript.parse Char.isAlphanum "keep; # x".toList = .ok ⟨[.keep], []⟩ ∧
      CommentsEdit "keep; # x".toList "keep; # é".toList ∧
      SieveScript.parse Char.isAlphanum "keep; # é".toList ≠ .ok ⟨[.keep], []⟩ := by
  refine ⟨rfl, ?_, fun parsed => absurd (parse_ascii parsed) (by decide)⟩
  have ending : CommentsEdit "# x".toList "# é".toList :=
    .comment (.inside (by decide) (by decide) (.inside (by decide) (by decide) .ended)) .nil
  exact .code (by decide) (by decide) (.code (by decide) (by decide) (.code (by decide)
    (by decide) (.code (by decide) (by decide) (.code (by decide) (by decide) (.code (by decide)
      (by decide) ending)))))

end Scripts

end Rusmes
