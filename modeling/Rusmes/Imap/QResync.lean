import Rusmes.Imap.SequenceSets
import Rusmes.Library.Words

/-!
The texts of QRESYNC: UID sets, the parameters of SELECT and the VANISHED response, each
with what writes it and what reads it.
-/

namespace Rusmes.QResync

open WireText

inductive QResyncError
  | invalidSyntax (args : Text)
  | invalidUidValidity (text : Text)
  | invalidModSeq (text : Text)
  | zeroModSeq
  | invalidUidSet (text : Text)
  | invalidUidRange (text : Text)
  | invalidSeqMatchData (text : Text)
  | invalidVanishedResponse (line : Text)
  deriving DecidableEq, Repr

inductive UidRange
  | single (uid : UInt32)
  | range (start stop : UInt32)
  | rangeToMax (start : UInt32)
  deriving DecidableEq, Repr

namespace UidRange

def parse (text : Text) : Except QResyncError UidRange :=
  let invalid (_ : Text) : QResyncError := .invalidUidRange text
  if ':' ∈ text then
    match splitOn ':' text with
    | [first, last] => do
        let start ← (parseU32 first).mapError invalid
        if last = ['*'] then return .rangeToMax start
        else
          let stop ← (parseU32 last).mapError invalid
          if start > stop then throw (.invalidUidRange text) else return .range start stop
    | _ => throw (.invalidUidRange text)
  else do
    let uid ← (parseU32 text).mapError invalid
    return .single uid

def contains (uid : UInt32) : UidRange → Bool
  | .single only => only = uid
  | .range start stop => start ≤ uid && uid ≤ stop
  | .rangeToMax start => start ≤ uid

def display : UidRange → Text
  | .single uid => decimal uid.toNat
  | .range start stop => decimal start.toNat ++ ':' :: decimal stop.toNat
  | .rangeToMax start => decimal start.toNat ++ ":*".toList

end UidRange

structure UidSet where
  ranges : List UidRange
  deriving DecidableEq, Repr

namespace UidSet

def parse (text : Text) : Except QResyncError UidSet := do
  let ranges ← (splitOn ',' text).mapM UidRange.parse
  if ranges = [] then throw (.invalidUidSet text) else return ⟨ranges⟩

def contains (uids : UidSet) (uid : UInt32) : Bool := uids.ranges.any (UidRange.contains uid)

def display (uids : UidSet) : Text := joinWith [','] (uids.ranges.map UidRange.display)

end UidSet

structure ModSeq where
  value : UInt64
  deriving DecidableEq, Repr

def parenthesis (character : Char) : Bool := character = '(' || character = ')'

def trimParentheses (text : Text) : Text :=
  (text.dropWhile parenthesis).rdropWhile parenthesis

structure SeqMatchData where
  sequences : List UInt32
  deriving DecidableEq, Repr

namespace SeqMatchData

def parse (text : Text) : Except QResyncError SeqMatchData := do
  let inner := trimParentheses (trim text)
  let sequences ← (splitWhitespace inner).mapM fun part =>
    (parseU32 part).mapError fun _ => .invalidSeqMatchData inner
  return ⟨sequences⟩

def texts (sequenceData : SeqMatchData) : List Text :=
  sequenceData.sequences.map fun number => decimal number.toNat

def display (sequenceData : SeqMatchData) : Text :=
  '(' :: (joinWith [' '] sequenceData.texts ++ [')'])

end SeqMatchData

structure QResyncParams where
  uidValidity : UInt32
  modSeq : ModSeq
  knownUids : Option UidSet
  seqMatchData : Option SeqMatchData
  deriving DecidableEq, Repr

namespace QResyncParams

def parse (text : Text) : Except QResyncError QResyncParams :=
  let args := trimParentheses (trim text)
  match splitWhitespace args with
  | validity :: sequence :: others => do
      let uidValidity ← (parseU32 validity).mapError fun _ => .invalidUidValidity validity
      let number ←
        match parseUsize sequence with
        | some number => pure number
        | none => throw (.invalidModSeq sequence)
      if number = 0 then throw .zeroModSeq
      let knownUids ← (others[0]?).mapM UidSet.parse
      let seqMatchData ← (others[1]?).mapM SeqMatchData.parse
      return ⟨uidValidity, ⟨UInt64.ofNat number⟩, knownUids, seqMatchData⟩
  | _ => throw (.invalidSyntax args)

def toImapString (params : QResyncParams) : Text :=
  let known :=
    match params.knownUids with
    | some known =>
        ' ' :: (known.display ++
          match params.seqMatchData with
          | some numbers => ' ' :: numbers.display
          | none => [])
    | none => []
  '(' :: (decimal params.uidValidity.toNat ++
    ' ' :: (decimal params.modSeq.value.toNat ++ known)) ++ [')']

end QResyncParams

structure VanishedResponse where
  uids : UidSet
  earlier : Bool
  deriving DecidableEq, Repr

namespace VanishedResponse

def toImapResponse (response : VanishedResponse) : Text :=
  if response.earlier then "* VANISHED (EARLIER) ".toList ++ response.uids.display
  else "* VANISHED ".toList ++ response.uids.display

/-- The text without the pattern in front of it, however often it stands there. -/
def trimStartMatches (pattern text : Text) : Text :=
  if pattern ≠ [] ∧ pattern <+: text then
    trimStartMatches pattern (text.drop pattern.length)
  else text
termination_by text.length
decreasing_by
  rename_i starts
  have positive : 0 < pattern.length := List.length_pos_iff.mpr starts.1
  have fits := starts.2.length_le
  rw [List.length_drop]
  omega

def parse (text : Text) : Except QResyncError VanishedResponse :=
  let line := trim text
  if ¬"* VANISHED".toList <+: line ∧ ¬"VANISHED".toList <+: line then
    throw (.invalidVanishedResponse line)
  else do
    let rest := trim (trimStartMatches "VANISHED".toList (trimStartMatches "* ".toList line))
    let earlier : Bool := "(EARLIER)".toList <+: rest
    let uids ← UidSet.parse
      (if earlier then trim (trimStartMatches "(EARLIER)".toList rest) else rest)
    return ⟨uids, earlier⟩

end VanishedResponse

/-! The characters of UID sets. -/

def uidCharacter (character : Char) : Bool :=
  character.isDigit || character = ':' || character = '*' || character = ','

theorem uidCharacter_solid {character : Char} (plain : uidCharacter character = true) :
    isWhitespace character = false := by
  simp only [uidCharacter, Bool.or_eq_true, decide_eq_true_eq] at plain
  rcases plain with ((digit | rfl) | rfl) | rfl
  · exact digit_solid digit
  all_goals rfl

theorem uidCharacter_bare {character : Char} (plain : uidCharacter character = true) :
    parenthesis character = false := by
  by_contra marked
  rw [Bool.not_eq_false, parenthesis, Bool.or_eq_true, decide_eq_true_eq, decide_eq_true_eq] at marked
  rcases marked with rfl | rfl
  all_goals
    revert plain
    decide

theorem decimal_plain {value : Nat} : ∀ character ∈ decimal value, uidCharacter character = true := by
  intro character member
  simp [uidCharacter, isDigit_decimal member]

namespace UidRange

def Valid : UidRange → Prop
  | .range start stop => start ≤ stop
  | _ => True

theorem display_plain (range : UidRange) :
    ∀ character ∈ range.display, uidCharacter character = true ∧ character ≠ ',' := by
  have digits : ∀ value : Nat, ∀ character ∈ decimal value,
      uidCharacter character = true ∧ character ≠ ',' := by
    intro value character member
    exact ⟨decimal_plain character member, fun same => not_mem_decimal rfl value (same ▸ member)⟩
  cases range with
  | single uid => exact digits _
  | range start stop =>
      rw [display, List.forall_mem_append, List.forall_mem_cons]
      exact ⟨digits _, by decide, digits _⟩
  | rangeToMax start =>
      rw [display, List.forall_mem_append]
      exact ⟨digits _, by decide⟩

theorem display_nonempty (range : UidRange) : range.display ≠ [] := by
  cases range with
  | single uid => exact Nat.toDigits_ne_nil
  | range start stop => simp [display]
  | rangeToMax start => simp [display]

theorem parseU32_toNat (uid : UInt32) : parseU32 (decimal uid.toNat) = .ok uid := by
  rw [parseU32_decimal uid.toNat_lt_size, UInt32.ofNat_toNat]

theorem parse_display {range : UidRange} (valid : range.Valid) : parse range.display = .ok range := by
  have whole : ∀ value : Nat, ':' ∉ decimal value := fun value => not_mem_decimal rfl value
  cases range with
  | single uid =>
      rw [display, parse, if_neg (whole _), parseU32_toNat]
      rfl
  | range start stop =>
      have colon : ':' ∈ decimal start.toNat ++ ':' :: decimal stop.toNat := by simp
      have ordered : ¬start > stop := UInt32.not_lt.mpr valid
      rw [display, parse, if_pos colon, splitOn_append (whole _), splitOn_unbroken (whole _)]
      dsimp only
      have notStar := SequenceNumber.decimal_ne_star stop.toNat
      rw [parseU32_toNat, parseU32_toNat]
      simp [Except.mapError, bind, Except.bind, pure, Except.pure, ordered, notStar]
  | rangeToMax start =>
      have colon : ':' ∈ decimal start.toNat ++ ":*".toList := by simp
      have star : splitOn ':' (decimal start.toNat ++ ":*".toList) =
          [decimal start.toNat, ['*']] := splitOn_append (whole _) ['*']
      rw [display, parse, if_pos colon, star]
      dsimp only
      rw [parseU32_toNat]
      rfl

theorem parse_valid {text : Text} {range : UidRange} (parsed : parse text = .ok range) :
    range.Valid := by
  simp only [parse, bind, Except.bind, pure, Except.pure, throw, throwThe,
    MonadExceptOf.throw] at parsed
  repeat' split at parsed
  all_goals cases parsed
  · trivial
  · rename_i ordered
    exact UInt32.not_lt.mp ordered
  · trivial

end UidRange

namespace UidSet

structure Readable (uids : UidSet) : Prop where
  nonempty : uids.ranges ≠ []
  valid : ∀ range ∈ uids.ranges, range.Valid

theorem readable_iff (uids : UidSet) : uids.Readable ↔
    uids.ranges ≠ [] ∧ ∀ start stop, .range start stop ∈ uids.ranges → start ≤ stop := by
  constructor
  · rintro ⟨nonempty, valid⟩
    exact ⟨nonempty, fun start stop member => valid _ member⟩
  · rintro ⟨nonempty, ordered⟩
    refine ⟨nonempty, ?_⟩
    intro range member
    cases range with
    | single uid => trivial
    | range start stop => exact ordered start stop member
    | rangeToMax start => trivial

theorem display_plain (uids : UidSet) :
    ∀ character ∈ uids.display, uidCharacter character = true := by
  intro character member
  rcases mem_joinWith member with comma | ⟨part, inside, holds⟩
  · rw [List.mem_singleton.mp comma]
    rfl
  · obtain ⟨range, _, rfl⟩ := List.mem_map.mp inside
    exact (range.display_plain character holds).1

theorem Readable.display_nonempty {uids : UidSet} (readable : uids.Readable) :
    uids.display ≠ [] := by
  obtain ⟨range, others, same⟩ := List.exists_cons_of_ne_nil readable.nonempty
  intro empty
  rw [display, same, List.map_cons] at empty
  cases others with
  | nil => exact range.display_nonempty empty
  | cons second others =>
      rw [List.map_cons, joinWith_cons_cons] at empty
      exact range.display_nonempty (List.append_eq_nil_iff.mp empty).1

theorem mapM_parse {ranges : List UidRange} (valid : ∀ range ∈ ranges, range.Valid) :
    (ranges.map UidRange.display).mapM UidRange.parse = .ok ranges := by
  induction ranges with
  | nil => rfl
  | cons range ranges ih =>
      rw [List.forall_mem_cons] at valid
      rw [List.map_cons, List.mapM_cons, UidRange.parse_display valid.1, ih valid.2]
      rfl

theorem parse_display {uids : UidSet} (readable : uids.Readable) :
    parse uids.display = .ok uids := by
  have parts : splitOn ',' uids.display = uids.ranges.map UidRange.display := by
    apply splitOn_joinWith
    · rw [ne_eq, List.map_eq_nil_iff]
      exact readable.nonempty
    · intro part member comma
      obtain ⟨range, _, rfl⟩ := List.mem_map.mp member
      exact (range.display_plain ',' comma).2 rfl
  rw [parse, parts, mapM_parse readable.valid]
  exact if_neg readable.nonempty

theorem mapM_valid {texts : List Text} {ranges : List UidRange}
    (parsed : texts.mapM UidRange.parse = .ok ranges) : ∀ range ∈ ranges, range.Valid := by
  induction texts generalizing ranges with
  | nil =>
      cases parsed
      simp
  | cons text texts ih =>
      rw [List.mapM_cons] at parsed
      cases first : UidRange.parse text with
      | error error => simp [first, bind, Except.bind] at parsed
      | ok range =>
          cases rest : texts.mapM UidRange.parse with
          | error error => simp [first, rest, bind, Except.bind] at parsed
          | ok others =>
              rw [first, rest] at parsed
              cases parsed
              rw [List.forall_mem_cons]
              exact ⟨UidRange.parse_valid first, ih rest⟩

theorem parse_readable {text : Text} {uids : UidSet} (parsed : parse text = .ok uids) :
    uids.Readable := by
  rw [parse] at parsed
  cases ranges : (splitOn ',' text).mapM UidRange.parse with
  | error error => simp [ranges, bind, Except.bind] at parsed
  | ok found =>
      simp only [ranges, bind, Except.bind] at parsed
      split at parsed
      · cases parsed
      · rename_i nonempty
        cases parsed
        exact ⟨nonempty, mapM_valid ranges⟩

end UidSet

/-! Parameters, where the outer parentheses are trimmed with those of the last list. -/

theorem dropWhile_append_stop {accepts : Char → Bool} {front back : Text}
    (taken : ∀ character ∈ front, accepts character = true)
    (stops : ∀ character, back.head? = some character → accepts character = false) :
    (front ++ back).dropWhile accepts = back := by
  rw [List.dropWhile_append_of_pos taken]
  cases back with
  | nil => rfl
  | cons first back => exact List.dropWhile_cons_of_neg (by simp [stops first rfl])

theorem trimParentheses_within {opening middle closing : Text}
    (before : ∀ character ∈ opening, parenthesis character = true)
    (after : ∀ character ∈ closing, parenthesis character = true)
    (first : ∀ character, middle.head? = some character → parenthesis character = false)
    (last : ∀ character, middle.getLast? = some character → parenthesis character = false)
    (nonempty : middle ≠ []) :
    trimParentheses (opening ++ (middle ++ closing)) = middle := by
  have starts : ∀ character, (middle ++ closing).head? = some character →
      parenthesis character = false := by
    intro character head
    rw [List.head?_append_of_ne_nil _ nonempty] at head
    exact first character head
  have front := dropWhile_append_stop before starts
  have back : (closing.reverse ++ middle.reverse).dropWhile parenthesis = middle.reverse := by
    apply dropWhile_append_stop
    · intro character member
      exact after character (List.mem_reverse.mp member)
    · intro character head
      rw [List.head?_reverse] at head
      exact last character head
  rw [trimParentheses, front, List.rdropWhile, List.reverse_append, back, List.reverse_reverse]

namespace QResyncParams

theorem parse_words {text : Text} {uidValidity : UInt32} {modSeq : UInt64} {others : List Text}
    (nonzero : modSeq ≠ 0)
    (words : splitWhitespace (trimParentheses (trim text)) =
      decimal uidValidity.toNat :: decimal modSeq.toNat :: others) :
    parse text = (do
      let knownUids ← (others[0]?).mapM UidSet.parse
      let seqMatchData ← (others[1]?).mapM SeqMatchData.parse
      return ⟨uidValidity, ⟨modSeq⟩, knownUids, seqMatchData⟩) := by
  have number : parseUsize (decimal modSeq.toNat) = some modSeq.toNat :=
    parseUsize_decimal modSeq.toNat_lt
  have positive : modSeq.toNat ≠ 0 := by
    intro zero
    exact nonzero (UInt64.toNat_inj.mp zero)
  rw [parse]
  simp only [words, UidRange.parseU32_toNat, number]
  simp [Except.mapError, bind, Except.bind, pure, Except.pure, positive]

theorem mapM_given {α β : Type} {run : α → Except QResyncError β} {value : Option α} {result : β}
    (ran : value.mapM run = .ok (some result)) : ∃ given, value = some given ∧
      run given = .ok result := by
  cases value with
  | none => cases ran
  | some given =>
      cases read : run given with
      | error error =>
          rw [Option.mapM_some, read] at ran
          cases ran
      | ok found =>
          rw [Option.mapM_some, read] at ran
          cases ran
          exact ⟨given, rfl, read⟩

theorem parse_known {text : Text} {params : QResyncParams} (parsed : parse text = .ok params) :
    ∀ uids, params.knownUids = some uids → uids.Readable := by
  intro uids known
  rw [parse] at parsed
  dsimp only at parsed
  split at parsed
  · rename_i validity sequence others _
    simp only [bind, Except.bind, pure, Except.pure, throw, throwThe, MonadExceptOf.throw] at parsed
    repeat' split at parsed
    all_goals try cases parsed
    rename_i given read _ _ _
    obtain rfl : given = some uids := known
    obtain ⟨part, _, found⟩ := mapM_given read
    exact UidSet.parse_readable found
  · cases parsed

def readSequences (sequenceData : SeqMatchData) : Option SeqMatchData :=
  sequenceData.sequences.head?.map fun number => ⟨[number]⟩

theorem readSequences_eq_iff (sequenceData : SeqMatchData) :
    readSequences sequenceData = some sequenceData ↔ sequenceData.sequences.length = 1 := by
  obtain ⟨sequences⟩ := sequenceData
  cases sequences with
  | nil => simp [readSequences]
  | cons first others => simp [readSequences, eq_comm]

def words (params : QResyncParams) : List Text :=
  decimal params.uidValidity.toNat :: decimal params.modSeq.value.toNat ::
    params.knownUids.toList.map UidSet.display

def sequenceWords (sequenceData : SeqMatchData) : List Text :=
  match sequenceData.texts with
  | [] => []
  | first :: others => ('(' :: first) :: others

theorem texts_plain (sequenceData : SeqMatchData) : ∀ text ∈ sequenceData.texts,
    text ≠ [] ∧ ∀ character ∈ text, uidCharacter character = true := by
  intro text member
  obtain ⟨number, _, rfl⟩ := List.mem_map.mp member
  exact ⟨Nat.toDigits_ne_nil, decimal_plain⟩

theorem numbers_last {sequenceData : SeqMatchData} (more : sequenceData.texts ≠ []) :
    ∀ character, (' ' :: '(' :: joinWith [' '] sequenceData.texts).getLast? =
      some character → parenthesis character = false := by
  obtain ⟨first, others, texts⟩ := List.exists_cons_of_ne_nil more
  have nonempty : joinWith [' '] sequenceData.texts ≠ [] := by
    have plain := (texts_plain sequenceData first (by simp [texts])).1
    rw [texts]
    cases others with
    | nil => exact plain
    | cons second others =>
        rw [joinWith_cons_cons]
        exact List.append_ne_nil_of_left_ne_nil plain _
  intro character ends
  have whole : ' ' :: '(' :: joinWith [' '] sequenceData.texts =
      " (".toList ++ joinWith [' '] sequenceData.texts := rfl
  rw [whole, List.getLast?_append_of_ne_nil _ nonempty] at ends
  rcases mem_joinWith (List.mem_of_getLast? ends) with blank | ⟨text, inside, holds⟩
  · rw [List.mem_singleton.mp blank]
    rfl
  · exact uidCharacter_bare ((texts_plain sequenceData text inside).2 character holds)

theorem numbers_words {sequenceData : SeqMatchData} {first : Text} {others : List Text}
    (texts : sequenceData.texts = first :: others) :
    splitWhitespace ('(' :: joinWith [' '] sequenceData.texts) =
      ('(' :: first) :: others := by
  have opening := joinWith_first [' '] ['('] first others
  rw [List.singleton_append, List.singleton_append] at opening
  have plain := texts_plain sequenceData
  rw [texts, List.forall_mem_cons] at plain
  rw [texts, ← opening]
  apply splitWhitespace_joinWith
  · rw [List.forall_mem_cons]
    exact ⟨List.cons_ne_nil _ _, fun text member => (plain.2 text member).1⟩
  · rw [List.forall_mem_cons, List.forall_mem_cons]
    refine ⟨⟨rfl, ?_⟩, ?_⟩
    · intro character member
      exact uidCharacter_solid (plain.1.2 character member)
    · intro text member character inside
      exact uidCharacter_solid ((plain.2 text member).2 character inside)

section Printed

variable {params : QResyncParams}

theorem toImapString_eq (paired : params.seqMatchData.isSome → params.knownUids.isSome) :
    params.toImapString = '(' :: (joinWith [' '] params.words ++
      (params.seqMatchData.toList.flatMap fun numbers => ' ' :: numbers.display) ++ [')']) := by
  obtain ⟨validity, sequence, known, numbers⟩ := params
  cases known with
  | none =>
      cases numbers with
      | none => simp [toImapString, words, joinWith]
      | some numbers => exact absurd (paired rfl) Bool.false_ne_true
  | some known =>
      cases numbers with
      | none => simp [toImapString, words, joinWith]
      | some numbers => simp [toImapString, words, joinWith]

variable (readable : ∀ uids, params.knownUids = some uids → uids.Readable)
include readable

theorem words_plain : ∀ word ∈ params.words,
    word ≠ [] ∧ ∀ character ∈ word, uidCharacter character = true := by
  intro word member
  rw [words, List.mem_cons, List.mem_cons, List.mem_map] at member
  rcases member with rfl | rfl | ⟨uids, known, rfl⟩
  · exact ⟨Nat.toDigits_ne_nil, decimal_plain⟩
  · exact ⟨Nat.toDigits_ne_nil, decimal_plain⟩
  · rw [Option.mem_toList] at known
    exact ⟨(readable uids known).display_nonempty, uids.display_plain⟩

theorem splitWhitespace_words : splitWhitespace (joinWith [' '] params.words) = params.words :=
  splitWhitespace_joinWith (fun word member => (words_plain readable word member).1)
    fun word member character inside =>
      uidCharacter_solid ((words_plain readable word member).2 character inside)

theorem joined_plain : ∀ character ∈ joinWith [' '] params.words, parenthesis character = false := by
  intro character member
  rcases mem_joinWith member with blank | ⟨word, inside, holds⟩
  · rw [List.mem_singleton.mp blank]
    rfl
  · exact uidCharacter_bare ((words_plain readable word inside).2 character holds)

omit readable in
theorem joined_nonempty : joinWith [' '] params.words ≠ [] := by
  rw [words, joinWith_cons_cons]
  exact List.append_ne_nil_of_left_ne_nil Nat.toDigits_ne_nil _

theorem trimParentheses_joined {back closing : Text}
    (after : ∀ character ∈ closing, parenthesis character = true)
    (last : ∀ character, back.getLast? = some character → parenthesis character = false) :
    trimParentheses ('(' :: (joinWith [' '] params.words ++ back ++ closing)) =
      joinWith [' '] params.words ++ back := by
  apply @trimParentheses_within ['('] (joinWith [' '] params.words ++ back) closing (by decide) after
  · intro character head
    rw [List.head?_append_of_ne_nil _ joined_nonempty] at head
    exact joined_plain readable character (List.mem_of_head? head)
  · intro character ends
    cases back with
    | nil =>
        rw [List.append_nil] at ends
        exact joined_plain readable character (List.mem_of_getLast? ends)
    | cons first back =>
        rw [List.getLast?_append_of_ne_nil _ (List.cons_ne_nil _ _)] at ends
        exact last character ends
  · exact List.append_ne_nil_of_left_ne_nil joined_nonempty _

theorem trimmed_words (paired : params.seqMatchData.isSome → params.knownUids.isSome) :
    splitWhitespace (trimParentheses (trim params.toImapString)) =
      params.words ++ params.seqMatchData.toList.flatMap sequenceWords := by
  rw [toImapString_eq paired, trim_enclosed rfl rfl]
  cases held : params.seqMatchData with
  | none =>
      have trimmed := @trimParentheses_joined _ readable [] [')'] (by decide) (by simp)
      rw [Option.toList_none, List.flatMap_nil, List.flatMap_nil, trimmed, List.append_nil,
        List.append_nil, splitWhitespace_words readable]
  | some numbers =>
      rw [Option.toList_some, List.flatMap_singleton, List.flatMap_singleton,
        SeqMatchData.display]
      by_cases texts : numbers.texts = []
      · have none : sequenceWords numbers = [] := by rw [sequenceWords, texts]
        have printed : joinWith [' '] params.words ++
            ' ' :: '(' :: (joinWith [' '] numbers.texts ++ [')']) ++ [')'] =
            joinWith [' '] params.words ++ [' '] ++ "())".toList := by
          simp [texts, joinWith]
        have trimmed := @trimParentheses_joined _ readable [' '] "())".toList (by decide)
          (by intro character ends; obtain rfl := Option.some.inj ends; rfl)
        have blank := splitWhitespace_append (by rfl : isWhitespace ' ' = true)
          (joinWith [' '] params.words) []
        rw [splitWhitespace_nil, splitWhitespace_words readable] at blank
        rw [printed, trimmed, blank, none]
      · obtain ⟨first, others, shape⟩ := List.exists_cons_of_ne_nil texts
        have some : sequenceWords numbers = ('(' :: first) :: others := by
          rw [sequenceWords, shape]
        have printed : joinWith [' '] params.words ++
            ' ' :: '(' :: (joinWith [' '] numbers.texts ++ [')']) ++ [')'] =
            joinWith [' '] params.words ++ ' ' :: '(' :: joinWith [' '] numbers.texts ++
              "))".toList := by
          simp
        have trimmed := @trimParentheses_joined _ readable
          (' ' :: '(' :: joinWith [' '] numbers.texts) "))".toList (by decide) (numbers_last texts)
        have blank := splitWhitespace_append (by rfl : isWhitespace ' ' = true)
          (joinWith [' '] params.words) ('(' :: joinWith [' '] numbers.texts)
        rw [splitWhitespace_words readable, numbers_words shape] at blank
        rw [printed, trimmed, blank, some]

omit readable in
theorem parse_number (number : UInt32) :
    SeqMatchData.parse ('(' :: decimal number.toNat) = .ok ⟨[number]⟩ := by
  have solid : ∀ character ∈ '(' :: decimal number.toNat, isWhitespace character = false := by
    rw [List.forall_mem_cons]
    exact ⟨rfl, fun character member => uidCharacter_solid (decimal_plain character member)⟩
  have bare : ∀ character ∈ decimal number.toNat, parenthesis character = false := by
    intro character member
    exact uidCharacter_bare (decimal_plain character member)
  have inner : trimParentheses ('(' :: decimal number.toNat) = decimal number.toNat := by
    have within := @trimParentheses_within ['('] (decimal number.toNat) [] (by decide) (by simp)
      (fun character head => bare character (List.mem_of_head? head))
      (fun character last => bare character (List.mem_of_getLast? last)) Nat.toDigits_ne_nil
    rwa [List.append_nil] at within
  have word : splitWhitespace (decimal number.toNat) = [decimal number.toNat] := by
    have alone := @splitWhitespace_joinWith [decimal number.toNat]
    rw [List.forall_mem_singleton, List.forall_mem_singleton] at alone
    exact alone Nat.toDigits_ne_nil fun character member =>
      uidCharacter_solid (decimal_plain character member)
  rw [SeqMatchData.parse, trim_solid solid, inner, word, List.mapM_cons, UidRange.parseU32_toNat]
  rfl

theorem parse_toImapString (nonzero : params.modSeq.value ≠ 0)
    (paired : params.seqMatchData.isSome → params.knownUids.isSome) :
    parse params.toImapString =
      .ok { params with seqMatchData := params.seqMatchData.bind readSequences } := by
  have words := trimmed_words readable paired
  have reads := parse_words nonzero words
  rw [reads]
  obtain ⟨validity, ⟨sequence⟩, known, numbers⟩ := params
  cases known with
  | none =>
      cases numbers with
      | none => rfl
      | some numbers => exact absurd (paired rfl) Bool.false_ne_true
  | some known =>
      have found := UidSet.parse_display (readable known rfl)
      cases numbers with
      | none => simp [found, bind, Except.bind, pure, Except.pure]
      | some numbers =>
          obtain ⟨sequences⟩ := numbers
          cases sequences with
          | nil => simp [found, readSequences, sequenceWords, SeqMatchData.texts, bind, Except.bind,
              pure, Except.pure]
          | cons first others => simp [found, readSequences, sequenceWords, SeqMatchData.texts,
              parse_number, bind, Except.bind, pure, Except.pure]

end Printed

/-- The parameters come back exactly if the UID set can be written and the sequence numbers
are one number. -/
theorem parse_toImapString_iff {params : QResyncParams} (nonzero : params.modSeq.value ≠ 0)
    (paired : params.seqMatchData.isSome → params.knownUids.isSome) :
    parse params.toImapString = .ok params ↔
      (∀ uids, params.knownUids = some uids → uids.ranges ≠ [] ∧
        ∀ start stop, .range start stop ∈ uids.ranges → start ≤ stop) ∧
      ∀ numbers, params.seqMatchData = some numbers → numbers.sequences.length = 1 := by
  simp only [← UidSet.readable_iff]
  constructor
  · intro parsed
    have known := parse_known parsed
    refine ⟨known, ?_⟩
    intro numbers held
    rw [parse_toImapString known nonzero paired] at parsed
    have same := congrArg seqMatchData (Except.ok.inj parsed)
    rw [held, Option.bind_some, readSequences_eq_iff] at same
    exact same
  · rintro ⟨known, one⟩
    have same : params.seqMatchData.bind readSequences = params.seqMatchData := by
      cases held : params.seqMatchData with
      | none => rfl
      | some numbers => exact (readSequences_eq_iff numbers).mpr (one numbers held)
    rw [parse_toImapString known nonzero paired, same]

def threeKnown (sequences : List UInt32) : QResyncParams where
  uidValidity := 1
  modSeq := ⟨1⟩
  knownUids := some ⟨[.range 1 3]⟩
  seqMatchData := some ⟨sequences⟩

theorem threeKnown_one :
    (threeKnown [2]).modSeq.value ≠ 0 ∧
      parse (threeKnown [2]).toImapString = .ok (threeKnown [2]) := by
  refine ⟨by decide, (parse_toImapString_iff (by decide) (by decide)).mpr ⟨?_, ?_⟩⟩
  · intro uids known
    cases known
    simp
  · intro numbers held
    cases held
    rfl

theorem threeKnown_two :
    parse (threeKnown [1, 2]).toImapString = .ok (threeKnown [1]) ∧
      parse (threeKnown [1, 2]).toImapString ≠ .ok (threeKnown [1, 2]) := by
  decide +kernel

end QResyncParams

end Rusmes.QResync
