import Mathlib.Data.List.DropRight
import Rusmes.Proto.Headers

/-!
`fold_header` and whether `unfold_header` takes it back. The folder keeps the number of
characters of the line, the octet behind the last blank and the text not yet written; it
slices that text by octets, which fails inside a character.
-/

namespace Rusmes

open WireText

def isFoldBlank (character : Char) : Bool :=
  character = ' ' || character = '\t'

/-- `&text[..index]` and `&text[index..]`; an index that is not between two characters
panics. -/
def splitAtOctet (index : Nat) : Text → Option (Text × Text)
  | [] => if index = 0 then some ([], []) else none
  | character :: rest =>
      if index = 0 then some ([], character :: rest)
      else if octetLength [character] ≤ index then
        (splitAtOctet (index - octetLength [character]) rest).map fun parts =>
          (character :: parts.1, parts.2)
      else none

structure FoldState where
  result : Text
  lineLen : Nat
  lastSpace : Nat
  pending : Text

def foldStep (maxLen : Nat) (state : FoldState) (character : Char) : Option FoldState :=
  let pending := state.pending ++ [character]
  let lineLen := state.lineLen + 1
  let lastSpace := if isFoldBlank character then octetLength pending else state.lastSpace
  if lineLen ≥ maxLen ∧ lastSpace > 0 then
    (splitAtOctet lastSpace pending).map fun parts =>
      { result := state.result ++ parts.1 ++ ['\r', '\n', ' ']
        lineLen := octetLength (trimStart parts.2)
        lastSpace := 0
        pending := trimStart parts.2 }
  else some { state with lineLen, lastSpace, pending }

/-- The capacity of the result is computed by a division by `max_len`. -/
def foldHeader (value : Text) (maxLen : Nat) : Option Text :=
  if octetLength value ≤ maxLen then some value
  else if maxLen = 0 then none
  else (value.foldlM (foldStep maxLen) ⟨[], 0, 0, []⟩).map fun state => state.result ++ state.pending

def blankPart (text : Text) : Text :=
  text.rdropWhile fun character => !isFoldBlank character

def wordPart (text : Text) : Text :=
  text.rtakeWhile fun character => !isFoldBlank character

theorem blankPart_append_wordPart (text : Text) : blankPart text ++ wordPart text = text :=
  List.rdropWhile_append_rtakeWhile

theorem blankPart_concat (text : Text) (character : Char) :
    blankPart (text ++ [character]) =
      if isFoldBlank character then text ++ [character] else blankPart text := by
  rw [blankPart, List.rdropWhile_concat]
  cases isFoldBlank character <;> rfl

def NoBlank (text : Text) : Prop :=
  ∀ character ∈ text, isFoldBlank character = false

theorem blankPart_eq_nil {text : Text} : blankPart text = [] ↔ NoBlank text := by
  simp [blankPart, List.rdropWhile_eq_nil_iff, NoBlank]

theorem wordPart_noBlank (text : Text) : NoBlank (wordPart text) := by
  intro character member
  simpa using List.mem_rtakeWhile_imp member

theorem NoBlank.trimStart {text : Text} (solid : NoBlank text) : NoBlank (trimStart text) :=
  fun character member => solid character ((List.dropWhile_sublist _).subset member)

def foldFrom (maxLen lineLen : Nat) (pending : Text) : Text → Text
  | [] => pending
  | character :: rest =>
      let text := pending ++ [character]
      if maxLen ≤ lineLen + 1 ∧ blankPart text ≠ [] then
        let word := trimStart (wordPart text)
        blankPart text ++ ['\r', '\n', ' '] ++ foldFrom maxLen (octetLength word) word rest
      else foldFrom maxLen (lineLen + 1) text rest

theorem octetLength_cons (character : Char) (text : Text) :
    octetLength (character :: text) = octetLength [character] + octetLength text := by
  simp [octetLength, encodeUtf8]

theorem octetLength_pos {text : Text} : 0 < octetLength text ↔ text ≠ [] := by
  rw [← List.length_pos_iff]
  constructor
  · intro octets
    cases text with
    | nil => exact absurd octets (by decide)
    | cons => simp
  · intro characters
    have more := length_le_octetLength text
    omega

theorem splitAtOctet_append (before after : Text) :
    splitAtOctet (octetLength before) (before ++ after) = some (before, after) := by
  induction before with
  | nil =>
      have zero : octetLength [] = 0 := rfl
      cases after <;> simp [splitAtOctet, zero]
  | cons character before ih =>
      have more : 0 < octetLength [character] := octetLength_pos.mpr (List.cons_ne_nil _ _)
      rw [List.cons_append, splitAtOctet, octetLength_cons, if_neg (by omega), if_pos (by omega),
        Nat.add_sub_cancel_left, ih]
      rfl

theorem foldlM_foldStep (maxLen : Nat) (value : Text) (state : FoldState)
    (space : state.lastSpace = octetLength (blankPart state.pending)) :
    (value.foldlM (foldStep maxLen) state).map (fun state => state.result ++ state.pending) =
      some (state.result ++ foldFrom maxLen state.lineLen state.pending value) := by
  induction value generalizing state with
  | nil => rfl
  | cons character rest ih =>
      have last : (if isFoldBlank character then octetLength (state.pending ++ [character])
          else state.lastSpace) = octetLength (blankPart (state.pending ++ [character])) := by
        rw [blankPart_concat, space]
        split <;> rfl
      rw [List.foldlM_cons, foldFrom, foldStep]
      dsimp only
      rw [last]
      by_cases full : maxLen ≤ state.lineLen + 1 ∧ blankPart (state.pending ++ [character]) ≠ []
      · have parts := splitAtOctet_append (blankPart (state.pending ++ [character]))
          (wordPart (state.pending ++ [character]))
        rw [blankPart_append_wordPart] at parts
        have solid : 0 = octetLength (blankPart (trimStart
            (wordPart (state.pending ++ [character])))) := by
          rw [blankPart_eq_nil.mpr (wordPart_noBlank _).trimStart]
          rfl
        rw [if_pos ⟨full.1, octetLength_pos.mpr full.2⟩, if_pos full, parts]
        exact (ih _ solid).trans (by simp)
      · rw [if_neg (fun sliced => full ⟨sliced.1, octetLength_pos.mp sliced.2⟩), if_neg full]
        exact ih _ rfl

theorem foldHeader_eq {value : Text} {maxLen : Nat} (positive : 1 ≤ maxLen) :
    foldHeader value maxLen =
      some (if octetLength value ≤ maxLen then value else foldFrom maxLen 0 [] value) := by
  rw [foldHeader]
  split
  · rfl
  · rw [if_neg (by omega)]
    exact foldlM_foldStep maxLen value ⟨[], 0, 0, []⟩ rfl

def Overfull (maxLen column : Nat) (part : Text) : Prop :=
  maxLen ≤ column + part.length ∧ ∃ character ∈ part, isFoldBlank character

def FoldPoint (maxLen column : Nat) (part : Text) : Prop :=
  Overfull maxLen column part ∧ ¬Overfull maxLen column part.dropLast

theorem Overfull.mono {maxLen column : Nat} {part longer : Text}
    (reaches : Overfull maxLen column part) (leads : part <+: longer) :
    Overfull maxLen column longer := by
  obtain ⟨margin, character, member, blank⟩ := reaches
  exact ⟨Nat.le_trans margin (Nat.add_le_add_left leads.length_le column),
    character, leads.subset member, blank⟩

theorem not_overfull_nil (maxLen column : Nat) : ¬Overfull maxLen column [] := by
  rintro ⟨-, character, member, -⟩
  cases member

theorem FoldPoint.eq {maxLen column : Nat} {first second rest other : Text}
    (firstPoint : FoldPoint maxLen column first) (secondPoint : FoldPoint maxLen column second)
    (same : first ++ rest = second ++ other) : first = second := by
  have shorter : ∀ {short long : Text}, FoldPoint maxLen column short →
      FoldPoint maxLen column long → short <+: long → short = long := by
    rintro short long ⟨reaches, -⟩ ⟨-, before⟩ leads
    rcases List.eq_nil_or_concat' long with rfl | ⟨init, last, rfl⟩
    · exact List.prefix_nil.mp leads
    · rcases List.prefix_concat_iff.mp leads with whole | sooner
      · exact whole
      · rw [List.dropLast_concat] at before
        exact absurd (reaches.mono sooner) before
  rcases List.prefix_or_prefix_of_prefix (List.prefix_append first rest)
    (same ▸ List.prefix_append second other) with leads | leads
  · exact shorter firstPoint secondPoint leads
  · exact (shorter secondPoint firstPoint leads).symm

theorem blankPart_ne_nil {word part : Text} (solid : NoBlank word) :
    blankPart (word ++ part) ≠ [] ↔ ∃ character ∈ part, isFoldBlank character := by
  rw [ne_eq, blankPart_eq_nil]
  constructor
  · intro blank
    by_contra none
    refine blank fun character member => ?_
    rcases List.mem_append.mp member with inside | inside
    · exact solid character inside
    · simpa using fun isBlank => none ⟨character, inside, isBlank⟩
  · rintro ⟨character, member, isBlank⟩ plain
    rw [plain character (List.mem_append_right word member)] at isBlank
    cases isBlank

theorem foldFrom_seen (maxLen column : Nat) {word : Text} (solid : NoBlank word) (rest : Text)
    {seen : Text} (early : ¬Overfull maxLen column seen) :
    (¬Overfull maxLen column (seen ++ rest) ∧
      foldFrom maxLen (column + seen.length) (word ++ seen) rest = word ++ seen ++ rest) ∨
    ∃ part later, seen ++ rest = part ++ later ∧ FoldPoint maxLen column part ∧
      foldFrom maxLen (column + seen.length) (word ++ seen) rest =
        blankPart (word ++ part) ++ ['\r', '\n', ' '] ++
          foldFrom maxLen (octetLength (trimStart (wordPart (word ++ part))))
            (trimStart (wordPart (word ++ part))) later := by
  induction rest generalizing seen with
  | nil =>
      rw [List.append_nil, List.append_nil]
      exact .inl ⟨early, rfl⟩
  | cons character rest ih =>
      have shape : seen ++ character :: rest = (seen ++ [character]) ++ rest := by simp
      have reaching : Overfull maxLen column (seen ++ [character]) ↔
          maxLen ≤ column + seen.length + 1 ∧ blankPart (word ++ (seen ++ [character])) ≠ [] := by
        rw [blankPart_ne_nil solid, Overfull, List.length_append, List.length_singleton,
          Nat.add_assoc]
      rw [foldFrom, List.append_assoc]
      by_cases reaches : Overfull maxLen column (seen ++ [character])
      · rw [if_pos (reaching.mp reaches)]
        refine .inr ⟨seen ++ [character], rest, shape, ⟨reaches, ?_⟩, rfl⟩
        rwa [List.dropLast_concat]
      · rw [if_neg (fun margin => reaches (reaching.mpr margin))]
        have later := ih reaches
        rw [List.length_append, List.length_singleton, ← Nat.add_assoc, ← shape] at later
        simpa using later

theorem foldFrom_stays {maxLen column : Nat} {word rest : Text} (solid : NoBlank word)
    (short : ¬Overfull maxLen column rest) : foldFrom maxLen column word rest = word ++ rest := by
  rcases foldFrom_seen maxLen column solid rest (not_overfull_nil maxLen column) with
    ⟨-, whole⟩ | ⟨part, later, shape, point, -⟩
  · simpa using whole
  · rw [List.nil_append] at shape
    exact absurd (point.1.mono (shape ▸ List.prefix_append part later)) short

theorem foldFrom_folds {maxLen column : Nat} {word part : Text} (solid : NoBlank word)
    (point : FoldPoint maxLen column part) (later : Text) :
    foldFrom maxLen column word (part ++ later) =
      blankPart (word ++ part) ++ ['\r', '\n', ' '] ++
        foldFrom maxLen (octetLength (trimStart (wordPart (word ++ part))))
          (trimStart (wordPart (word ++ part))) later := by
  rcases foldFrom_seen maxLen column solid (part ++ later) (not_overfull_nil maxLen column) with
    ⟨short, -⟩ | ⟨other, rest, shape, otherPoint, folded⟩
  · exact absurd (point.1.mono (List.prefix_append part later)) short
  · rw [List.nil_append] at shape
    obtain rfl := otherPoint.eq point shape.symm
    have same := List.append_cancel_left shape
    subst same
    simpa using folded

theorem exists_foldPoint {maxLen column : Nat} {rest : Text} (reaches : Overfull maxLen column rest) :
    ∃ part later, rest = part ++ later ∧ FoldPoint maxLen column part := by
  rcases foldFrom_seen maxLen column (nofun : NoBlank []) rest (not_overfull_nil maxLen column) with ⟨short, -⟩ | ⟨part, later, shape, point, -⟩
  · exact absurd reaches short
  · exact ⟨part, later, shape, point⟩

def OneLine (text : Text) : Prop :=
  '\r' ∉ text ∧ '\n' ∉ text

theorem unfoldFrom_oneLine {text : Text} (plain : OneLine text) : unfoldFrom .plain text = text :=
  unfoldFrom_plain plain.1 plain.2

theorem unfoldFrom_skipping (text : Text) :
    unfoldFrom .skipping text = unfoldFrom .plain (text.dropWhile isFoldBlank) := by
  induction text with
  | nil => rfl
  | cons first text ih =>
      by_cases blank : isFoldBlank first = true
      · rw [List.dropWhile_cons_of_pos blank, ← ih]
        simp only [isFoldBlank, Bool.or_eq_true, decide_eq_true_eq] at blank
        rcases blank with rfl | rfl <;> simp [unfoldFrom]
      · rw [List.dropWhile_cons_of_neg blank]
        simp only [isFoldBlank, Bool.or_eq_true, decide_eq_true_eq, not_or] at blank
        simp only [unfoldFrom, blank, or_self, if_false]

theorem unfoldFrom_fold (rest : Text) :
    unfoldFrom .plain ('\r' :: '\n' :: ' ' :: rest) = ' ' :: unfoldFrom .skipping rest := by
  simp [unfoldFrom]

theorem dropWhile_append_fold (line rest : Text) :
    (line ++ '\r' :: rest).dropWhile isFoldBlank = line.dropWhile isFoldBlank ++ '\r' :: rest := by
  induction line with
  | nil => exact List.dropWhile_cons_of_neg (by decide)
  | cons first line ih =>
      by_cases blank : isFoldBlank first = true
      · rw [List.cons_append, List.dropWhile_cons_of_pos blank, List.dropWhile_cons_of_pos blank, ih]
      · rw [List.cons_append, List.dropWhile_cons_of_neg blank, List.dropWhile_cons_of_neg blank,
          List.cons_append]

theorem OneLine.append {first second : Text} :
    OneLine (first ++ second) ↔ OneLine first ∧ OneLine second := by
  simp only [OneLine, List.mem_append, not_or]
  tauto

theorem OneLine.subset {text part : Text} (plain : OneLine text) (inside : part ⊆ text) :
    OneLine part :=
  ⟨fun carriage => plain.1 (inside carriage), fun newline => plain.2 (inside newline)⟩

theorem unfold_plain_fold {line : Text} (plain : OneLine line) (rest : Text) :
    unfoldFrom .plain (line ++ ['\r', '\n', ' '] ++ rest) =
      line ++ ' ' :: unfoldFrom .skipping rest := by
  rw [List.append_assoc, unfoldFrom_append plain.1 plain.2]
  exact congrArg _ (unfoldFrom_fold rest)

theorem unfold_skipping_fold {line : Text} (plain : OneLine line) (rest : Text) :
    unfoldFrom .skipping (line ++ ['\r', '\n', ' '] ++ rest) =
      line.dropWhile isFoldBlank ++ ' ' :: unfoldFrom .skipping rest := by
  rw [unfoldFrom_skipping, List.append_assoc]
  have dropped := dropWhile_append_fold line ('\n' :: ' ' :: rest)
  have folded := unfold_plain_fold (plain.subset (List.dropWhile_sublist isFoldBlank).subset) rest
  rw [← folded, List.append_assoc]
  exact congrArg _ dropped

/-! When the text comes back. -/

def spaces (count : Nat) : Text :=
  List.replicate count ' '

/-- The text from the start of a line on is given back by the unfolder. A fold owes the
text one space; the blanks that follow are skipped by the unfolder and have to be the
spaces owed. The word is what was carried to the line. -/
inductive Restored (maxLen : Nat) : Option Nat → Text → Text → Prop
  | whole {word rest} : ¬Overfull maxLen (octetLength word) rest → Restored maxLen none word rest
  | fold {word part blank rest} : FoldPoint maxLen (octetLength word) (part ++ [blank]) →
      isFoldBlank blank → Restored maxLen (some 1) [] rest →
      Restored maxLen none word (part ++ blank :: rest)
  | settle {owed rest} : owed < maxLen → rest.head?.any isFoldBlank = false →
      Restored maxLen none [] (spaces owed ++ rest) →
      Restored maxLen (some owed) [] (spaces owed ++ rest)
  | push {owed word rest} : NoBlank word → word ≠ [] → trimStart word = word →
      owed + 1 + word.length = maxLen → Restored maxLen none word rest →
      Restored maxLen (some owed) [] (spaces (owed + 1) ++ (word ++ rest))
  | refold {owed rest} : maxLen ≤ owed + 1 → Restored maxLen (some (owed + 1 - maxLen)) [] rest →
      Restored maxLen (some owed) [] (spaces maxLen ++ rest)

def ComesBack (maxLen : Nat) : Option Nat → Text → Text → Prop
  | none, word, rest =>
      unfoldFrom .plain (foldFrom maxLen (octetLength word) word rest) = word ++ rest
  | some owed, word, rest =>
      spaces owed ++ unfoldFrom .skipping (foldFrom maxLen (octetLength word) word rest) =
        word ++ rest

theorem spaces_append (first second : Nat) : spaces first ++ spaces second = spaces (first + second) :=
  List.replicate_append_replicate

theorem dropWhile_solid {text : Text} (solid : text.head?.any isFoldBlank = false) :
    text.dropWhile isFoldBlank = text := by
  cases text with
  | nil => rfl
  | cons first rest => exact List.dropWhile_cons_of_neg (by simpa using solid)

theorem dropWhile_spaces {count : Nat} {rest : Text} (solid : rest.head?.any isFoldBlank = false) :
    (spaces count ++ rest).dropWhile isFoldBlank = rest := by
  induction count with
  | zero => exact dropWhile_solid solid
  | succ count ih => exact ih

theorem blankPart_last {before word : Text} {blank : Char} (isBlank : isFoldBlank blank)
    (solid : NoBlank word) : blankPart (before ++ blank :: word) = before ++ [blank] := by
  have letters : ∀ character ∈ word.reverse, (!isFoldBlank character) = true := by
    intro character member
    rw [solid character (List.mem_reverse.mp member)]
    rfl
  have shape : (before ++ blank :: word).reverse = word.reverse ++ blank :: before.reverse := by simp
  rw [blankPart, List.rdropWhile, shape, List.dropWhile_append_of_pos letters,
    List.dropWhile_cons_of_neg (by simp [isBlank])]
  simp

theorem wordPart_last {before word : Text} {blank : Char} (isBlank : isFoldBlank blank)
    (solid : NoBlank word) : wordPart (before ++ blank :: word) = word := by
  have parts := blankPart_append_wordPart (before ++ blank :: word)
  rw [blankPart_last isBlank solid, List.append_assoc, List.singleton_append] at parts
  exact (List.cons.inj (List.append_cancel_left parts)).2

theorem exists_last_blank {text : Text} (some : ∃ character ∈ text, isFoldBlank character) :
    ∃ before blank word, text = before ++ blank :: word ∧ isFoldBlank blank ∧ NoBlank word := by
  induction text with
  | nil =>
      obtain ⟨character, member, -⟩ := some
      cases member
  | cons first text ih =>
      by_cases later : ∃ character ∈ text, isFoldBlank character
      · obtain ⟨before, blank, word, rfl, isBlank, solid⟩ := ih later
        exact ⟨first :: before, blank, word, rfl, isBlank, solid⟩
      · have solid : NoBlank text := fun character member => by
          simpa using fun isBlank => later ⟨character, member, isBlank⟩
        obtain ⟨character, member, isBlank⟩ := some
        rcases List.mem_cons.mp member with rfl | inside
        · exact ⟨[], character, text, rfl, isBlank, solid⟩
        · exact absurd ⟨character, inside, isBlank⟩ later

theorem foldFrom_breaks {maxLen column : Nat} {word before carried : Text} {blank : Char}
    (solid : NoBlank word) (isBlank : isFoldBlank blank) (after : NoBlank carried)
    (point : FoldPoint maxLen column (before ++ blank :: carried)) (later : Text) :
    foldFrom maxLen column word (before ++ blank :: carried ++ later) =
      word ++ before ++ [blank] ++ ['\r', '\n', ' '] ++
        foldFrom maxLen (octetLength (trimStart carried)) (trimStart carried) later := by
  rw [foldFrom_folds solid point, ← List.append_assoc, blankPart_last isBlank after,
    wordPart_last isBlank after]

theorem dropWhile_spaces_only (count : Nat) : (spaces count).dropWhile isFoldBlank = [] := by
  have dropped := @dropWhile_spaces count [] rfl
  rwa [List.append_nil] at dropped

theorem foldFrom_word {maxLen column : Nat} {word : Text} (solid : NoBlank word) (rest : Text) :
    ∃ more, foldFrom maxLen column word rest = word ++ more := by
  by_cases reaches : Overfull maxLen column rest
  · obtain ⟨part, later, rfl, point⟩ := exists_foldPoint reaches
    obtain ⟨before, blank, carried, rfl, isBlank, after⟩ := exists_last_blank point.1.2
    rw [foldFrom_breaks solid isBlank after point]
    simp only [List.append_assoc]
    exact ⟨_, rfl⟩
  · exact ⟨rest, foldFrom_stays solid reaches⟩

theorem noBlank_nil : NoBlank [] := nofun

theorem isFoldBlank_of_mem_spaces {count : Nat} {character : Char}
    (member : character ∈ spaces count) : isFoldBlank character = true := by
  rw [(List.mem_replicate.mp member).2]
  rfl

theorem spaces_length (count : Nat) : (spaces count).length = count :=
  List.length_replicate

theorem foldFrom_spaces {maxLen count : Nat} {rest : Text} (short : count < maxLen)
    (solid : rest.head?.any isFoldBlank = false) :
    ∃ more, foldFrom maxLen 0 [] (spaces count ++ rest) = spaces count ++ more ∧
      more.head?.any isFoldBlank = false := by
  by_cases reaches : Overfull maxLen 0 (spaces count ++ rest)
  · obtain ⟨part, later, shape, point⟩ := exists_foldPoint reaches
    have wide := point.1.1
    rw [Nat.zero_add] at wide
    have leads : spaces count <+: part :=
      List.prefix_of_prefix_length_le (List.prefix_append _ rest)
        (shape ▸ List.prefix_append part later) (by rw [spaces_length]; omega)
    obtain ⟨tail, rfl⟩ := leads
    rw [List.append_assoc] at shape
    have same := List.append_cancel_left shape
    subst same
    rw [← List.append_assoc]
    have more : tail ≠ [] := by
      rintro rfl
      rw [List.append_nil, spaces_length] at wide
      omega
    obtain ⟨first, tail, rfl⟩ := List.exists_cons_of_ne_nil more
    have firstSolid : isFoldBlank first = false := by simpa using solid
    by_cases blank : ∃ character ∈ first :: tail, isFoldBlank character
    · obtain ⟨before, last, carried, cut, isBlank, after⟩ := exists_last_blank blank
      cases before with
      | nil =>
          rw [List.nil_append, List.cons.injEq] at cut
          rw [← cut.1, firstSolid] at isBlank
          cases isBlank
      | cons head before =>
          rw [List.cons_append, List.cons.injEq] at cut
          obtain ⟨rfl, rfl⟩ := cut
          have line : spaces count ++ first :: (before ++ last :: carried) =
              (spaces count ++ first :: before) ++ last :: carried := by simp
          rw [line] at point ⊢
          rw [foldFrom_breaks noBlank_nil isBlank after point]
          simp only [List.nil_append, List.append_assoc, List.cons_append]
          exact ⟨_, rfl, by simpa using firstSolid⟩
    · have tailSolid : NoBlank (first :: tail) := fun character member => by
        simpa using fun isBlank => blank ⟨character, member, isBlank⟩
      cases count with
      | zero => exact absurd point.1.2 blank
      | succ count =>
          have line : spaces (count + 1) ++ first :: tail =
              spaces count ++ ' ' :: (first :: tail) := by
            rw [← spaces_append count 1, List.append_assoc]
            rfl
          rw [line] at point ⊢
          rw [foldFrom_breaks noBlank_nil rfl tailSolid point, ← spaces_append count 1]
          simp only [List.nil_append, List.append_assoc]
          exact ⟨_, rfl, rfl⟩
  · exact ⟨rest, foldFrom_stays noBlank_nil reaches, solid⟩

theorem foldPoint_of_length {maxLen : Nat} {part : Text} (size : part.length = maxLen)
    (blank : ∃ character ∈ part, isFoldBlank character) : FoldPoint maxLen 0 part := by
  refine ⟨⟨by omega, blank⟩, ?_⟩
  rintro ⟨margin, -⟩
  obtain ⟨character, member, -⟩ := blank
  have more := List.length_pos_of_mem member
  rw [List.length_dropLast] at margin
  omega

theorem unfoldFrom_skipping_solid {text : Text} (solid : text.head?.any isFoldBlank = false) :
    unfoldFrom .skipping text = unfoldFrom .plain text := by
  rw [unfoldFrom_skipping, dropWhile_solid solid]

theorem skipping_word {maxLen column : Nat} {word : Text} (solid : NoBlank word) (more : word ≠ [])
    (rest : Text) :
    unfoldFrom .skipping (foldFrom maxLen column word rest) =
      unfoldFrom .plain (foldFrom maxLen column word rest) := by
  obtain ⟨later, shape⟩ := @foldFrom_word maxLen column word solid rest
  obtain ⟨first, word, rfl⟩ := List.exists_cons_of_ne_nil more
  rw [shape]
  apply unfoldFrom_skipping_solid
  simpa using solid first List.mem_cons_self

theorem oneLine_spaces (count : Nat) : OneLine (spaces count) := by
  constructor <;> intro member <;> exact absurd (List.mem_replicate.mp member).2 (by decide)

theorem Restored.comesBack {maxLen : Nat} {state : Option Nat} {word rest : Text}
    (restored : Restored maxLen state word rest) (positive : 1 ≤ maxLen) (solid : NoBlank word)
    (plain : OneLine (word ++ rest)) : ComesBack maxLen state word rest := by
  induction restored with
  | @whole word rest short =>
      rw [ComesBack, foldFrom_stays solid short, unfoldFrom_oneLine plain]
  | @fold word part blank rest point isBlank _ ih =>
      have shape : part ++ blank :: rest = part ++ blank :: [] ++ rest := by simp
      rw [shape, ← List.append_assoc, OneLine.append] at plain
      have line : OneLine (word ++ part ++ [blank]) := by simpa using plain.1
      have owed := ih noBlank_nil plain.2
      rw [ComesBack, List.nil_append] at owed
      rw [ComesBack, shape, foldFrom_breaks solid isBlank noBlank_nil point,
        unfold_plain_fold line]
      have joined : ' ' :: unfoldFrom .skipping (foldFrom maxLen (octetLength (trimStart []))
          (trimStart []) rest) = rest := owed
      rw [joined]
      simp
  | @settle owed rest short restSolid _ ih =>
      have back := ih noBlank_nil plain
      rw [ComesBack, List.nil_append] at back
      obtain ⟨more, shape, moreSolid⟩ := foldFrom_spaces short restSolid
      have zero : octetLength [] = 0 := rfl
      have stays := unfoldFrom_append (oneLine_spaces owed).1 (oneLine_spaces owed).2 more
      rw [zero, shape, stays] at back
      rw [ComesBack, zero, shape, List.nil_append, unfoldFrom_skipping, dropWhile_spaces moreSolid,
        List.append_cancel_left back]
  | @push owed word rest wordSolid more trimmed size _ ih =>
      have back := ih wordSolid (OneLine.append.mp (OneLine.append.mp plain).2).2
      rw [ComesBack] at back
      have point : FoldPoint maxLen 0 (spaces owed ++ ' ' :: word) := by
        apply foldPoint_of_length
        · simp only [List.length_append, spaces_length, List.length_cons]
          omega
        · exact ⟨' ', by simp, rfl⟩
      have shape : spaces (owed + 1) ++ (word ++ rest) = spaces owed ++ ' ' :: word ++ rest := by
        rw [← spaces_append owed 1]
        simp [spaces]
      have last : spaces owed ++ [' '] = spaces (owed + 1) := spaces_append owed 1
      have zero : octetLength [] = 0 := rfl
      rw [ComesBack, zero, shape, foldFrom_breaks noBlank_nil rfl wordSolid point, trimmed,
        List.nil_append, last, unfold_skipping_fold (oneLine_spaces _), dropWhile_spaces_only,
        skipping_word wordSolid more, back]
      simp
  | @refold owed rest wide _ ih =>
      obtain ⟨width, rfl⟩ := Nat.exists_eq_add_of_le' positive
      have back := ih noBlank_nil (OneLine.append.mp (OneLine.append.mp plain).2).2
      have last : spaces width ++ [' '] = spaces (width + 1) := spaces_append width 1
      have point : FoldPoint (width + 1) 0 (spaces width ++ ' ' :: []) := by
        apply foldPoint_of_length
        · simp [spaces_length]
        · exact ⟨' ', by simp, rfl⟩
      have zero : octetLength [] = 0 := rfl
      have whole : spaces owed ++ [' '] = spaces (width + 1) ++ spaces (owed + 1 - (width + 1)) := by
        rw [spaces_append, show width + 1 + (owed + 1 - (width + 1)) = owed + 1 by omega]
        exact spaces_append owed 1
      rw [ComesBack, zero, List.nil_append] at back
      have trimmed : trimStart [] = [] := rfl
      rw [ComesBack, zero, ← last, foldFrom_breaks noBlank_nil rfl noBlank_nil point, trimmed, zero,
        List.nil_append, last, unfold_skipping_fold (oneLine_spaces _), dropWhile_spaces_only,
        List.nil_append, ← List.singleton_append, ← List.append_assoc, whole, List.append_assoc, back]
      rfl

/-! Text that comes back has a derivation. -/

theorem count_unfoldFrom_le {character : Char} (solid : character ≠ ' ') (mode : Unfolding)
    (text : Text) : (unfoldFrom mode text).count character ≤ text.count character := by
  induction text generalizing mode with
  | nil => exact Nat.le_refl 0
  | cons first text ih =>
      have plain := ih .plain
      have newline := ih .afterNewline
      have skipping := ih .skipping
      simp only [unfoldFrom]
      split
      · rw [List.count_cons]
        omega
      · split
        · rw [List.count_cons]
          omega
        · split
          · cases mode with
            | plain =>
                rw [List.count_cons, List.count_cons]
                omega
            | afterNewline =>
                rw [List.count_cons_of_ne (Ne.symm solid), List.count_cons]
                omega
            | skipping =>
                dsimp only
                rw [List.count_cons]
                omega
          · rw [List.count_cons, List.count_cons]
            omega

theorem count_foldFrom_le {character : Char} (solid : character ∉ ['\r', '\n', ' '])
    (maxLen column : Nat) (pending rest : Text) :
    (foldFrom maxLen column pending rest).count character ≤ (pending ++ rest).count character := by
  induction rest generalizing column pending with
  | nil => rw [foldFrom, List.append_nil]
  | cons first rest ih =>
      rw [foldFrom]
      have shape : pending ++ first :: rest = pending ++ [first] ++ rest := by simp
      split
      · have later := ih (octetLength (trimStart (wordPart (pending ++ [first]))))
          (trimStart (wordPart (pending ++ [first])))
        have trimmed : (trimStart (wordPart (pending ++ [first]))).count character ≤
            (wordPart (pending ++ [first])).count character :=
          (List.dropWhile_sublist _).count_le character
        have fold : (['\r', '\n', ' '] : Text).count character = 0 := List.count_eq_zero.mpr solid
        have whole := congrArg (List.count character) (blankPart_append_wordPart (pending ++ [first]))
        rw [shape]
        simp only [List.count_append, fold] at later whole ⊢
        omega
      · rw [shape]
        exact ih (column + 1) (pending ++ [first])

theorem cut_unique {first second rest other : Text}
    (firstBlank : ∀ character ∈ first, isFoldBlank character)
    (secondBlank : ∀ character ∈ second, isFoldBlank character)
    (restSolid : rest.head?.any isFoldBlank = false)
    (otherSolid : other.head?.any isFoldBlank = false)
    (same : first ++ rest = second ++ other) : first = second ∧ rest = other := by
  have dropped := congrArg (List.dropWhile isFoldBlank) same
  rw [List.dropWhile_append_of_pos firstBlank, List.dropWhile_append_of_pos secondBlank,
    dropWhile_solid restSolid, dropWhile_solid otherSolid] at dropped
  subst dropped
  exact ⟨List.append_cancel_right same, rfl⟩

def AllBlank (text : Text) : Prop :=
  ∀ character ∈ text, isFoldBlank character

theorem AllBlank.count {text : Text} (blanks : AllBlank text) {character : Char}
    (solid : isFoldBlank character = false) : text.count character = 0 := by
  rw [List.count_eq_zero]
  intro member
  rw [blanks character member] at solid
  cases solid

theorem allBlank_or_solid (text : Text) :
    AllBlank text ∧ text.dropWhile isFoldBlank = [] ∨
      ∃ first more, text.dropWhile isFoldBlank = first :: more ∧ isFoldBlank first = false := by
  cases dropped : text.dropWhile isFoldBlank with
  | nil => exact .inl ⟨List.dropWhile_eq_nil_iff.mp dropped, rfl⟩
  | cons first more =>
      have stopped := List.head_dropWhile_not isFoldBlank (l := text) (by simp [dropped])
      simp only [dropped, List.head_cons] at stopped
      exact .inr ⟨first, more, rfl, stopped⟩

theorem trimmed_loses {carried later : Text} (solid : NoBlank carried)
    (plain : OneLine (carried ++ later)) (trimmed : trimStart carried ≠ carried) (maxLen column : Nat) :
    ∃ character, isFoldBlank character = false ∧
      (unfoldFrom .skipping (foldFrom maxLen column (trimStart carried) later)).count character <
        (carried ++ later).count character := by
  cases carried with
  | nil => exact absurd rfl trimmed
  | cons first carried =>
      have blank : isWhitespace first = true := by
        by_contra kept
        exact trimmed (List.dropWhile_cons_of_neg kept)
      have shape : trimStart (first :: carried) = trimStart carried := List.dropWhile_cons_of_pos blank
      have firstSolid := solid first List.mem_cons_self
      have special : first ∉ ['\r', '\n', ' '] := by
        simp only [List.mem_cons, List.not_mem_nil, or_false, not_or]
        refine ⟨?_, ?_, ?_⟩
        · rintro rfl
          exact plain.1 (by simp)
        · rintro rfl
          exact plain.2 (by simp)
        · rintro rfl
          cases firstSolid
      have notSpace : first ≠ ' ' := fun same => special (by simp [same])
      have unfolded := count_unfoldFrom_le notSpace .skipping (foldFrom maxLen column (trimStart carried) later)
      have folded := count_foldFrom_le special maxLen column (trimStart carried) later
      have kept : (trimStart carried).count first ≤ carried.count first :=
        (List.dropWhile_sublist _).count_le first
      refine ⟨first, firstSolid, ?_⟩
      rw [shape, List.count_append, List.count_cons_self]
      rw [List.count_append] at folded
      omega

theorem carried_comesBack {maxLen : Nat} {left right carried later : Text}
    (leftBlank : AllBlank left) (rightBlank : AllBlank right) (solid : NoBlank carried)
    (plain : OneLine (carried ++ later)) (more : carried ≠ [])
    (same : left ++ unfoldFrom .skipping (foldFrom maxLen (octetLength (trimStart carried))
      (trimStart carried) later) = right ++ (carried ++ later)) :
    left = right ∧ trimStart carried = carried ∧
      ComesBack maxLen none carried later := by
  by_cases trimmed : trimStart carried = carried
  · rw [trimmed, skipping_word solid more] at same
    obtain ⟨tail, shape⟩ :=
      @foldFrom_word maxLen (octetLength carried) carried solid later
    have unfolded : unfoldFrom .plain (foldFrom maxLen (octetLength carried) carried later) =
        carried ++ unfoldFrom .plain tail := by
      have word := (OneLine.append.mp plain).1
      rw [shape, unfoldFrom_append word.1 word.2]
    obtain ⟨first, word, rfl⟩ := List.exists_cons_of_ne_nil more
    have firstSolid : isFoldBlank first = false := solid first List.mem_cons_self
    have cut := cut_unique leftBlank rightBlank (by rw [unfolded]; simpa using firstSolid)
      (by simpa using firstSolid) same
    exact ⟨cut.1, trimmed, cut.2⟩
  · obtain ⟨character, characterSolid, fewer⟩ := trimmed_loses solid plain trimmed maxLen
      (octetLength (trimStart carried))
    have counted := congrArg (List.count character) same
    simp only [List.count_append, leftBlank.count characterSolid,
      rightBlank.count characterSolid] at counted fewer
    omega

theorem no_blanks_gained {maxLen : Nat} {rest blanks : Text} (plain : OneLine rest)
    (allBlank : AllBlank blanks) (more : blanks ≠ []) :
    unfoldFrom .skipping (foldFrom maxLen 0 [] rest) ≠ blanks ++ rest := by
  induction size : rest.length using Nat.strongRecOn generalizing rest blanks with
  | ind size ih =>
      subst size
      obtain ⟨head, blanks, rfl⟩ := List.exists_cons_of_ne_nil more
      have headBlank := allBlank head List.mem_cons_self
      by_cases reaches : Overfull maxLen 0 rest
      · obtain ⟨part, later, rfl, point⟩ := exists_foldPoint reaches
        obtain ⟨before, blank, carried, rfl, isBlank, solid⟩ := exists_last_blank point.1.2
        have line : OneLine (before ++ [blank]) ∧ OneLine (carried ++ later) := by
          rw [← OneLine.append]
          simpa using plain
        rw [foldFrom_breaks noBlank_nil isBlank solid point, List.nil_append,
          unfold_skipping_fold line.1]
        intro same
        rcases allBlank_or_solid (before ++ [blank]) with ⟨lineBlank, dropped⟩ | ⟨first, _, dropped, firstSolid⟩
        · rw [dropped, List.nil_append, List.cons_append, List.cons.injEq] at same
          have gained : AllBlank (blanks ++ (before ++ [blank])) := by
            intro character member
            rcases List.mem_append.mp member with inside | inside
            · exact allBlank character (List.mem_cons_of_mem _ inside)
            · exact lineBlank character inside
          have shifted : unfoldFrom .skipping (foldFrom maxLen (octetLength (trimStart carried))
              (trimStart carried) later) = (blanks ++ (before ++ [blank])) ++ (carried ++ later) := by
            rw [same.2]
            simp
          by_cases empty : carried = []
          · subst empty
            exact ih later.length (by simp; omega) line.2 gained (by simp) rfl shifted
          · have cut := carried_comesBack (nofun : AllBlank []) gained solid line.2 empty
              shifted
            simp at cut
        · rw [dropped, List.cons_append, List.cons_append, List.cons.injEq] at same
          rw [same.1, headBlank] at firstSolid
          cases firstSolid
      · rw [foldFrom_stays noBlank_nil reaches, List.nil_append, unfoldFrom_skipping]
        intro same
        rw [unfoldFrom_oneLine (plain.subset (List.dropWhile_sublist _).subset)] at same
        have shorter := (List.dropWhile_sublist isFoldBlank (l := rest)).length_le
        rw [same, List.length_append, List.length_cons] at shorter
        omega

theorem allBlank_spaces (count : Nat) : AllBlank (spaces count) :=
  fun _ member => isFoldBlank_of_mem_spaces member

theorem FoldPoint.length_eq {maxLen : Nat} {first : Char} {part : Text} (positive : 1 ≤ maxLen)
    (point : FoldPoint maxLen 0 (first :: part)) (blank : isFoldBlank first) :
    (first :: part).length = maxLen := by
  have margin := point.1.1
  by_contra different
  refine point.2 ⟨?_, first, ?_, blank⟩
  · rw [List.length_dropLast]
    omega
  · cases part with
    | nil =>
        simp only [List.length_cons, List.length_nil] at margin different
        omega
    | cons => exact List.mem_cons_self

def Derived (maxLen : Nat) (rest : Text) : Prop :=
  (∀ word, NoBlank word → OneLine (word ++ rest) → ComesBack maxLen none word rest →
    Restored maxLen none word rest) ∧
  (OneLine rest → ∀ owed, ComesBack maxLen (some owed) [] rest →
    Restored maxLen (some owed) [] rest)

theorem restored_plain {maxLen : Nat} {word rest : Text} (solid : NoBlank word)
    (plain : OneLine (word ++ rest))
    (shorter : ∀ later : Text, later.length < rest.length → Derived maxLen later)
    (back : ComesBack maxLen none word rest) : Restored maxLen none word rest := by
  by_cases reaches : Overfull maxLen (octetLength word) rest
  · obtain ⟨part, later, rfl, point⟩ := exists_foldPoint reaches
    obtain ⟨before, blank, carried, rfl, isBlank, after⟩ := exists_last_blank point.1.2
    have pieces : OneLine (word ++ before ++ [blank]) ∧ OneLine (carried ++ later) := by
      rw [← OneLine.append]
      simpa using plain
    rw [ComesBack, foldFrom_breaks solid isBlank after point, unfold_plain_fold pieces.1] at back
    have shape : word ++ (before ++ blank :: carried ++ later) =
        word ++ before ++ [blank] ++ (carried ++ later) := by simp
    have cut := List.append_cancel_left (back.trans shape)
    cases carried with
    | nil =>
        have shape : before ++ blank :: [] ++ later = before ++ blank :: later := by simp
        rw [shape]
        exact .fold point isBlank ((shorter later (by simp; omega)).2 pieces.2 1 cut)
    | cons first carried =>
        rw [List.cons_append, List.cons.injEq] at cut
        have firstSolid := after first List.mem_cons_self
        rw [← cut.1] at firstSolid
        cases firstSolid
  · exact .whole reaches

theorem owed_short {maxLen owed : Nat} {text : Text} (positive : 1 ≤ maxLen)
    (leads : spaces owed <+: text) (stays : ¬Overfull maxLen 0 text) : owed < maxLen := by
  by_contra wide
  obtain ⟨width, rfl⟩ : ∃ width, owed = width + 1 := ⟨owed - 1, by omega⟩
  refine stays (Overfull.mono ⟨?_, ' ', ?_, rfl⟩ leads)
  · rw [spaces_length]
    omega
  · exact List.mem_replicate.mpr ⟨by omega, rfl⟩

/-- A blank line adds a space to those owed. They fill it, or reach to the word that is
carried over. -/
theorem restored_blankLine {maxLen owed : Nat} {line word later : Text} (lineBlank : AllBlank line)
    (solid : NoBlank word) (plain : OneLine (word ++ later))
    (width : line.length + word.length = maxLen) (derived : Derived maxLen later)
    (back : spaces (owed + 1) ++ unfoldFrom .skipping (foldFrom maxLen (octetLength (trimStart word))
      (trimStart word) later) = line ++ (word ++ later)) :
    Restored maxLen (some owed) [] (line ++ (word ++ later)) := by
  by_cases empty : word = []
  · subst empty
    rw [List.nil_append] at back
    rw [List.length_nil, Nat.add_zero] at width
    by_cases wide : maxLen ≤ owed + 1
    · have leads : line <+: spaces (owed + 1) :=
        List.prefix_of_prefix_length_le (List.prefix_append _ later)
          (back ▸ List.prefix_append _ _) (by rw [spaces_length]; omega)
      have full : line = spaces maxLen := by
        rw [← width]
        exact (List.prefix_replicate_iff.mp leads).2
      rw [full, show owed + 1 = maxLen + (owed + 1 - maxLen) by omega, ← spaces_append,
        List.append_assoc] at back
      rw [full]
      exact .refold wide (derived.2 plain (owed + 1 - maxLen) (List.append_cancel_left back))
    · have leads : spaces (owed + 1) <+: line :=
        List.prefix_of_prefix_length_le (List.prefix_append _ _)
          (back ▸ List.prefix_append _ later) (by rw [spaces_length]; omega)
      obtain ⟨gained, rfl⟩ := leads
      rw [List.append_assoc] at back
      have gainedBlank : AllBlank gained := fun character member =>
        lineBlank character (List.mem_append_right _ member)
      have more : gained ≠ [] := by
        rintro rfl
        rw [List.append_nil, spaces_length] at width
        omega
      exact absurd (List.append_cancel_left back) (no_blanks_gained plain gainedBlank more)
  · obtain ⟨rfl, trimmed, wordBack⟩ := carried_comesBack (allBlank_spaces (owed + 1)) lineBlank
      solid plain empty back
    rw [spaces_length] at width
    exact .push solid empty trimmed width (derived.1 word solid plain wordBack)

theorem restored_owed {maxLen owed : Nat} {rest : Text} (positive : 1 ≤ maxLen)
    (plain : OneLine rest)
    (shorter : ∀ later : Text, later.length < rest.length → Derived maxLen later)
    (fresh : ComesBack maxLen none [] rest → Restored maxLen none [] rest)
    (back : ComesBack maxLen (some owed) [] rest) : Restored maxLen (some owed) [] rest := by
  have zero : octetLength [] = 0 := rfl
  by_cases reaches : Overfull maxLen 0 rest
  · obtain ⟨part, later, rfl, point⟩ := exists_foldPoint reaches
    obtain ⟨before, blank, word, rfl, isBlank, solid⟩ := exists_last_blank point.1.2
    have pieces : OneLine (before ++ [blank]) ∧ OneLine (word ++ later) := by
      rw [← OneLine.append]
      simpa using plain
    have shape : before ++ blank :: word ++ later = (before ++ [blank]) ++ (word ++ later) := by simp
    have folded := foldFrom_breaks noBlank_nil isBlank solid point later
    rw [ComesBack, zero, folded, List.nil_append, List.nil_append, unfold_skipping_fold pieces.1,
      shape] at back
    rcases allBlank_or_solid (before ++ [blank]) with ⟨lineBlank, dropped⟩ | ⟨first, more, dropped, firstSolid⟩
    · have last : spaces owed ++ [' '] = spaces (owed + 1) := spaces_append owed 1
      rw [dropped, List.nil_append, ← List.singleton_append, ← List.append_assoc, last] at back
      have width : (before ++ [blank]).length + word.length = maxLen := by
        have lead : ∃ head tail, before ++ blank :: word = head :: tail ∧ isFoldBlank head := by
          cases before with
          | nil => exact ⟨blank, word, rfl, isBlank⟩
          | cons head before => exact ⟨head, _, rfl, lineBlank head (by simp)⟩
        obtain ⟨head, tail, cut, headBlank⟩ := lead
        have size := (cut ▸ point).length_eq positive headBlank
        rw [← cut] at size
        simp only [List.length_append, List.length_cons, List.length_nil] at size ⊢
        omega
      rw [shape]
      exact restored_blankLine lineBlank solid pieces.2 width (shorter later (by simp; omega)) back
    · -- The line goes on behind the spaces owed.
      have taken := List.takeWhile_append_dropWhile (p := isFoldBlank) (l := before ++ [blank])
      have takenBlank : AllBlank ((before ++ [blank]).takeWhile isFoldBlank) :=
        fun character member => List.mem_takeWhile_imp member
      rw [dropped] at back taken
      generalize (before ++ [blank]).takeWhile isFoldBlank = lead at taken takenBlank
      rw [← taken, List.append_assoc] at back
      obtain ⟨rfl, same⟩ := cut_unique (allBlank_spaces owed) takenBlank (by simpa using firstSolid)
        (by simpa using firstSolid) back
      have cut := List.append_cancel_left same
      have line : before ++ blank :: word ++ later =
          spaces owed ++ ((first :: more) ++ (word ++ later)) := by
        rw [shape, ← taken, List.append_assoc]
      have sooner : spaces owed <+: (before ++ blank :: word).dropLast := by
        have whole : before ++ blank :: word = spaces owed ++ (first :: more ++ word) := by
          rw [← List.append_assoc, taken]
          simp
        rw [whole, List.dropLast_append_of_ne_nil (by simp)]
        exact List.prefix_append _ _
      have stays : Restored maxLen none [] (before ++ blank :: word ++ later) := by
        apply fresh
        rw [ComesBack, zero, folded, List.nil_append, List.nil_append, unfold_plain_fold pieces.1,
          shape, cut]
      rw [line] at stays ⊢
      exact .settle (owed_short positive sooner point.2) (by simpa using firstSolid) stays
  · have unfolded := unfoldFrom_oneLine (plain.subset (List.dropWhile_sublist isFoldBlank).subset)
    rw [ComesBack, zero, foldFrom_stays noBlank_nil reaches, List.nil_append, unfoldFrom_skipping,
      unfolded] at back
    have tailSolid : (rest.dropWhile isFoldBlank).head?.any isFoldBlank = false := by
      rcases allBlank_or_solid rest with ⟨-, dropped⟩ | ⟨first, more, dropped, firstSolid⟩
      · rw [dropped]
        rfl
      · rw [dropped]
        simpa using firstSolid
    have short := owed_short positive (back ▸ List.prefix_append _ _) reaches
    have stays : Restored maxLen none [] rest := .whole (by rwa [zero])
    generalize rest.dropWhile isFoldBlank = tail at back tailSolid
    subst back
    exact .settle short tailSolid stays

theorem restored_of_comesBack {maxLen : Nat} (positive : 1 ≤ maxLen) (rest : Text) :
    Derived maxLen rest := by
  induction size : rest.length using Nat.strongRecOn generalizing rest with
  | ind size ih =>
      subst size
      have shorter : ∀ later : Text, later.length < rest.length → Derived maxLen later :=
        fun later less => ih later.length less later rfl
      refine ⟨fun word solid plain => restored_plain solid plain shorter, fun plain owed => ?_⟩
      exact restored_owed positive plain shorter (restored_plain noBlank_nil plain shorter)

/-- Folding never fails, and unfolding takes it back exactly when the value is not folded or
every fold owes no more spaces than the unfolder skips. -/
theorem unfoldHeader_foldHeader {value : Text} {maxLen : Nat} (plain : '\r' ∉ value ∧ '\n' ∉ value)
    (positive : 1 ≤ maxLen) :
    (foldHeader value maxLen).isSome ∧
      ((∃ folded, foldHeader value maxLen = some folded ∧ unfoldHeader folded = value) ↔
        octetLength value ≤ maxLen ∨ Restored maxLen none [] value) := by
  have whole : unfoldHeader value = value := unfoldFrom_oneLine plain
  rw [foldHeader_eq positive]
  refine ⟨rfl, ?_⟩
  by_cases short : octetLength value ≤ maxLen
  · simp [short, whole]
  · simp only [short, if_false, Option.some.injEq, exists_eq_left', false_or]
    constructor
    · exact fun back => (restored_of_comesBack positive value).1 [] noBlank_nil plain back
    · exact fun restored => restored.comesBack positive noBlank_nil plain

theorem unfoldHeader_foldHeader_spaces :
    (foldHeader ['a', 'b', 'c', ' ', ' ', 'd', 'e'] 4).isSome ∧
      ∃ folded, foldHeader ['a', 'b', 'c', ' ', ' ', 'd', 'e'] 4 = some folded ∧
        unfoldHeader folded = ['a', 'b', 'c', ' ', ' ', 'd', 'e'] := by
  have point : FoldPoint 4 (octetLength []) (['a', 'b', 'c'] ++ [' ']) :=
    foldPoint_of_length rfl ⟨' ', by simp, rfl⟩
  have stays : Restored 4 none [] (spaces 1 ++ ['d', 'e']) :=
    .whole fun reaches => absurd reaches.1 (by decide)
  have restored : Restored 4 none [] ['a', 'b', 'c', ' ', ' ', 'd', 'e'] :=
    .fold point rfl (.settle (by decide) rfl stays)
  have folded := @unfoldHeader_foldHeader ['a', 'b', 'c', ' ', ' ', 'd', 'e'] 4 (by decide)
    (by decide)
  exact ⟨folded.1, folded.2.mpr (.inr restored)⟩

/-- A fold behind a single space: the text comes back with two. -/
theorem foldHeader_doubles_space :
    foldHeader ['a', 'b', ' ', 'c', 'd'] 3 =
        some ['a', 'b', ' ', '\r', '\n', ' ', 'c', 'd'] ∧
      unfoldHeader ['a', 'b', ' ', '\r', '\n', ' ', 'c', 'd'] = ['a', 'b', ' ', ' ', 'c', 'd'] ∧
      ¬∃ folded, foldHeader ['a', 'b', ' ', 'c', 'd'] 3 = some folded ∧
        unfoldHeader folded = ['a', 'b', ' ', 'c', 'd'] := by
  have folded : foldHeader ['a', 'b', ' ', 'c', 'd'] 3 =
      some ['a', 'b', ' ', '\r', '\n', ' ', 'c', 'd'] := by decide +kernel
  have unfolded : unfoldHeader ['a', 'b', ' ', '\r', '\n', ' ', 'c', 'd'] =
      ['a', 'b', ' ', ' ', 'c', 'd'] := by decide
  refine ⟨folded, unfolded, ?_⟩
  rintro ⟨text, computed, back⟩
  rw [folded, Option.some.injEq] at computed
  rw [← computed, unfolded] at back
  exact absurd back (by decide)

end Rusmes
