import Mathlib.Logic.Relation
import Rusmes.Library.Words
import Rusmes.Storage.Threading

/-!
Normalised subjects. Cutting off one prefix or tag is a step that can be made in one way only,
so the order in which the loop tries them does not matter: the result is where the steps end.
-/

namespace Rusmes

open WireText

def replyMarks : List Text := ["re:".toList, "fwd:".toList, "fw:".toList]

inductive Cuts (subject : Text) : Text → Prop
  | mark {mark rest : Text} (known : mark ∈ replyMarks) (shape : subject = mark ++ rest) :
      Cuts subject (trimStart rest)
  | tag {tag rest : Text} (plain : ']' ∉ tag) (shape : subject = '[' :: (tag ++ ']' :: rest)) :
      Cuts subject (trimStart rest)

/-- What may stand before a subject: prefixes in any letter case and tags, with blanks behind
them. -/
inductive SubjectPrefix (letters : CaseMapping) : Text → Prop
  | none : SubjectPrefix letters []
  | mark {mark blanks more : Text} (spelled : letters.toLowercase mark ∈ replyMarks)
      (blank : ∀ character ∈ blanks, isWhitespace character = true)
      (others : SubjectPrefix letters more) : SubjectPrefix letters (mark ++ (blanks ++ more))
  | tag {tag blanks more : Text} (plain : ']' ∉ tag)
      (blank : ∀ character ∈ blanks, isWhitespace character = true)
      (others : SubjectPrefix letters more) :
      SubjectPrefix letters ('[' :: (tag ++ ']' :: (blanks ++ more)))

section Steps

variable {subject first second : Text}

theorem mark_head {mark rest : Text} (known : mark ∈ replyMarks) :
    ∃ first more, mark ++ rest = first :: more ∧ first ≠ '[' ∧ isWhitespace first = false := by
  simp only [replyMarks, List.mem_cons, List.not_mem_nil, or_false] at known
  rcases known with rfl | rfl | rfl
  · exact ⟨_, _, rfl, by decide, by decide⟩
  · exact ⟨_, _, rfl, by decide, by decide⟩
  · exact ⟨_, _, rfl, by decide, by decide⟩

theorem marks_apart {mark other rest more : Text} (known : mark ∈ replyMarks)
    (knownOther : other ∈ replyMarks) (same : mark ++ rest = other ++ more) :
    mark = other ∧ rest = more := by
  simp only [replyMarks, List.mem_cons, List.not_mem_nil, or_false] at known knownOther
  rcases known with rfl | rfl | rfl <;> rcases knownOther with rfl | rfl | rfl <;> simp_all

theorem after_tag {tag : Text} (plain : ']' ∉ tag) (rest : Text) :
    ((tag ++ ']' :: rest).dropWhile (· ≠ ']')).tail = rest := by
  have passes : ∀ character ∈ tag, (decide (character ≠ ']')) = true := by
    intro character member
    rw [decide_eq_true_eq]
    rintro rfl
    exact plain member
  rw [List.dropWhile_append_of_pos passes]
  simp

theorem cuts_shorter (cuts : Cuts first second) : second.length < first.length := by
  cases cuts with
  | @mark mark rest known shape =>
      have shorter := (trimStart_suffix rest).length_le
      obtain ⟨initial, more, whole, -⟩ := @mark_head mark [] known
      have length := congrArg List.length whole
      simp only [List.append_nil, List.length_cons] at length
      rw [shape, List.length_append]
      omega
  | @tag tag rest plain shape =>
      have shorter := (trimStart_suffix rest).length_le
      rw [shape]
      simp only [List.length_cons, List.length_append]
      omega

theorem cuts_suffix (cuts : Cuts first second) : second <:+ first := by
  cases cuts with
  | mark _ shape =>
      rw [shape]
      exact (trimStart_suffix _).trans (List.suffix_append _ _)
  | @tag tag rest _ shape =>
      rw [shape]
      exact (trimStart_suffix rest).trans
        ((List.suffix_append ('[' :: (tag ++ [']'])) rest).trans (by simp))

theorem cuts_unique {third : Text} (one : Cuts first second) (other : Cuts first third) :
    second = third := by
  cases one with
  | mark known shape =>
      cases other with
      | mark knownOther shapeOther =>
          rw [(marks_apart known knownOther (shape.symm.trans shapeOther)).2]
      | tag plain shapeOther =>
          obtain ⟨initial, more, whole, plainly, -⟩ := mark_head known
          have same := (whole.symm.trans (shape.symm.trans shapeOther))
          exact absurd (List.cons.inj same).1 plainly
  | tag plain shape =>
      cases other with
      | mark knownOther shapeOther =>
          obtain ⟨initial, more, whole, plainly, -⟩ := mark_head knownOther
          have same := (whole.symm.trans (shapeOther.symm.trans shape))
          exact absurd (List.cons.inj same).1 plainly
      | tag plainOther shapeOther =>
          have same := (List.cons.inj (shape.symm.trans shapeOther)).2
          rename_i tag rest tagOther restOther
          have equal := congrArg (fun text => (text.dropWhile (· ≠ ']')).tail) same
          simp only [after_tag plain, after_tag plainOther] at equal
          rw [equal]

end Steps

/-! The loop makes these steps until none is left. -/

section Loop

variable {subject mark : Text}

theorem cuts_stripReplyPrefix (known : mark ∈ replyMarks) (subject : Text) :
    Relation.ReflTransGen Cuts subject (stripReplyPrefix subject mark) := by
  rw [stripReplyPrefix]
  split
  · rename_i starts
    obtain ⟨rest, rfl⟩ := starts
    rw [List.drop_left]
    exact .single (.mark known rfl)
  · exact .refl

theorem cuts_stripTag (subject : Text) : Relation.ReflTransGen Cuts subject (stripTag subject) := by
  rw [stripTag]
  split
  · rename_i tagged
    obtain ⟨opens, closes⟩ := tagged
    obtain ⟨rest, rfl⟩ := List.head?_eq_some_iff.mp opens
    obtain ⟨tag, after, rfl, plain⟩ :=
      List.eq_append_cons_of_mem ((List.mem_cons.mp closes).resolve_left (by decide))
    rw [List.dropWhile_cons_of_pos (by decide), after_tag plain]
    exact .single (.tag plain rfl)
  · exact .refl

theorem cuts_stripSubject (subject : Text) :
    Relation.ReflTransGen Cuts subject (stripSubject subject) := by
  have each : ∀ marks : List Text, (∀ mark ∈ marks, mark ∈ replyMarks) → ∀ subject,
      Relation.ReflTransGen Cuts subject (marks.foldl stripReplyPrefix subject) := by
    intro marks
    induction marks with
    | nil => exact fun _ subject => .refl
    | cons mark marks ih =>
        intro known subject
        exact (cuts_stripReplyPrefix (known mark List.mem_cons_self) subject).trans
          (ih (fun other member => known other (List.mem_cons_of_mem _ member)) _)
  exact (each replyMarks (fun _ member => member) subject).trans (cuts_stripTag _)

theorem cuts_stripSubjectFrom (turns : Nat) (subject : Text) :
    Relation.ReflTransGen Cuts subject (stripSubjectFrom turns subject) := by
  induction turns generalizing subject with
  | zero => exact .refl
  | succ turns ih =>
      rw [stripSubjectFrom]
      split
      · exact .refl
      · exact (cuts_stripSubject subject).trans (ih _)

theorem stripTag_suffix (subject : Text) : stripTag subject <:+ subject := by
  rw [stripTag]
  split
  · exact (trimStart_suffix _).trans ((List.tail_suffix _).trans (List.dropWhile_suffix _))
  · exact List.suffix_refl _

theorem turn_kept (stable : stripSubject subject = subject) :
    (∀ mark ∈ replyMarks, stripReplyPrefix subject mark = subject) ∧ stripTag subject = subject := by
  have first := stripReplyPrefix_suffix subject "re:".toList
  have second := stripReplyPrefix_suffix (stripReplyPrefix subject "re:".toList) "fwd:".toList
  have third := stripReplyPrefix_suffix
    (stripReplyPrefix (stripReplyPrefix subject "re:".toList) "fwd:".toList) "fw:".toList
  have last := stripTag_suffix (stripReplyPrefix
    (stripReplyPrefix (stripReplyPrefix subject "re:".toList) "fwd:".toList) "fw:".toList)
  have whole := congrArg List.length stable
  change (stripTag (stripReplyPrefix
    (stripReplyPrefix (stripReplyPrefix subject "re:".toList) "fwd:".toList) "fw:".toList)).length =
      subject.length at whole
  have shortest := last.length_le
  have shorter := third.length_le
  have short := second.length_le
  have bound := first.length_le
  have one := first.eq_of_length (by omega)
  rw [one] at second third last shorter shortest short whole
  have two := second.eq_of_length (by omega)
  rw [two] at third last shorter shortest whole
  have three := third.eq_of_length (by omega)
  rw [three] at last whole
  refine ⟨?_, last.eq_of_length whole⟩
  intro mark known
  simp only [replyMarks, List.mem_cons, List.not_mem_nil, or_false] at known
  rcases known with rfl | rfl | rfl
  · exact one
  · exact two
  · exact three

theorem no_cut (stable : stripSubject subject = subject) (next : Text) : ¬Cuts subject next := by
  intro cuts
  have shorter := cuts_shorter cuts
  obtain ⟨marks, tags⟩ := turn_kept stable
  cases cuts with
  | @mark mark rest known shape =>
      have kept := marks mark known
      rw [stripReplyPrefix, shape, if_pos (List.prefix_append _ _), List.drop_left] at kept
      rw [kept, shape] at shorter
      exact lt_irrefl _ shorter
  | @tag tag rest plain shape =>
      rw [stripTag, shape, if_pos ⟨rfl, by simp⟩, List.dropWhile_cons_of_pos (by decide),
        after_tag plain] at tags
      rw [tags, shape] at shorter
      exact lt_irrefl _ shorter

theorem end_unique {first second : Text} (one : Relation.ReflTransGen Cuts subject first)
    (other : Relation.ReflTransGen Cuts subject second) (ended : stripSubject first = first)
    (endedOther : stripSubject second = second) : first = second := by
  have stays : ∀ {text next : Text}, stripSubject text = text →
      Relation.ReflTransGen Cuts text next → next = text := by
    intro text next stable path
    rcases Relation.ReflTransGen.cases_head path with same | ⟨middle, cuts, -⟩
    · exact same.symm
    · exact absurd cuts (no_cut stable middle)
  have unique : Relator.RightUnique Cuts := fun _ _ _ one other => cuts_unique one other
  rcases Relation.ReflTransGen.total_of_right_unique unique one other with path | path
  · exact (stays ended path).symm
  · exact stays endedOther path

theorem stripSubjectFrom_eq {turns more : Nat} {next : Text}
    (path : Relation.ReflTransGen Cuts subject next) (enough : subject.length ≤ turns)
    (enoughMore : next.length ≤ more) :
    stripSubjectFrom turns subject = stripSubjectFrom more next :=
  end_unique (cuts_stripSubjectFrom turns subject) (path.trans (cuts_stripSubjectFrom more next))
    (stripSubjectFrom_stable enough) (stripSubjectFrom_stable enoughMore)

theorem cuts_ends {next : Text} (path : Relation.ReflTransGen Cuts subject next)
    (starts : trimStart subject = subject) : next <:+ subject ∧ trimStart next = next := by
  induction path with
  | refl => exact ⟨List.suffix_refl _, starts⟩
  | tail _ cuts ih =>
      have shorter : _ <:+ _ := cuts_suffix cuts
      refine ⟨shorter.trans ih.1, ?_⟩
      cases cuts with
      | mark => exact List.dropWhile_idempotent _ _
      | tag => exact List.dropWhile_idempotent _ _

theorem stripSubjectFrom_still (turns : Nat) (stable : stripSubject subject = subject) :
    stripSubjectFrom turns subject = subject := by
  cases turns with
  | zero => rfl
  | succ turns => rw [stripSubjectFrom, if_pos stable]

end Loop

section Normal

variable {letters : CaseMapping} {lower : Char → Char}
  (charwise : ∀ text, letters.toLowercase text = text.map lower)

include charwise

theorem blank_lower (character : Char) : isWhitespace (lower character) = isWhitespace character := by
  have single := letters.lowercase_trim [character]
  rw [charwise, charwise] at single
  cases blank : isWhitespace character with
  | true =>
      by_contra solid
      have plain : isWhitespace (lower character) = false := by simpa using solid
      rw [List.map_singleton, trim_solid (by simpa using plain)] at single
      have gone : trim [character] = [] := by simp [trim, trimStart, blank, trimEnd]
      rw [gone] at single
      cases single
  | false =>
      by_contra blanked
      have blankLower : isWhitespace (lower character) = true := by simpa using blanked
      have gone : trim [lower character] = [] := by simp [trim, trimStart, blankLower, trimEnd]
      rw [List.map_singleton, gone, trim_solid (by simpa using blank)] at single
      cases single

theorem trimStart_lowercase (text : Text) :
    trimStart (letters.toLowercase text) = letters.toLowercase (trimStart text) := by
  have blank : isWhitespace ∘ lower = isWhitespace := funext (blank_lower charwise)
  rw [charwise, charwise, trimStart, List.dropWhile_map, blank, trimStart]

theorem lowercase_append (first second : Text) : letters.toLowercase (first ++ second) =
    letters.toLowercase first ++ letters.toLowercase second := by
  rw [charwise, charwise, charwise, List.map_append]

theorem solid_replyMark {mark : Text} (spelled : letters.toLowercase mark ∈ replyMarks) :
    mark ≠ [] ∧ ∀ character ∈ mark, isWhitespace character = false := by
  have solid : ∀ known ∈ replyMarks, ∀ character ∈ known, isWhitespace character = false := by
    decide
  have nonempty : [] ∉ replyMarks := by decide
  rw [charwise] at spelled
  constructor
  · rintro rfl
    exact nonempty spelled
  · intro character member
    rw [← blank_lower charwise]
    exact solid _ spelled _ (List.mem_map_of_mem member)

theorem cuts_behind {start more blanks : Text}
    (blank : ∀ character ∈ blanks, isWhitespace character = true)
    (cuts : Cuts start (trimStart (letters.toLowercase (trimEnd (blanks ++ more))))) :
    Cuts start (letters.toLowercase (trim more)) := by
  rw [trimStart_lowercase charwise, trimStart_trimEnd] at cuts
  have same : trim (blanks ++ more) = trim more := by rw [trim, trimStart_append blank, trim]
  rwa [same] at cuts

theorem normalizeSubject_prefix {before : Text} (known : SubjectPrefix letters before)
    (subject : Text) :
    normalizeSubject letters (before ++ subject) = normalizeSubject letters subject := by
  induction known with
  | none => rfl
  | @mark mark blanks more spelled blank _ ih =>
      obtain ⟨nonempty, solid⟩ := solid_replyMark charwise spelled
      have cuts : Cuts (letters.toLowercase (trim (mark ++ (blanks ++ more) ++ subject)))
          (letters.toLowercase (trim (more ++ subject))) := by
        rw [List.append_assoc, trim_word nonempty solid, lowercase_append charwise,
          List.append_assoc]
        exact cuts_behind charwise blank (.mark spelled rfl)
      rw [← ih]
      exact stripSubjectFrom_eq (.single cuts) le_rfl le_rfl
  | @tag tag blanks more plain blank _ ih =>
      have bracket : ∀ symbol ∈ ['[', ']'], letters.toLowercase [symbol] = [symbol] := by
        intro symbol member
        rw [letters.lowercase_ascii]
        · revert symbol
          decide
        · revert symbol
          decide
      have cuts : Cuts (letters.toLowercase
          (trim ('[' :: (tag ++ ']' :: (blanks ++ more)) ++ subject)))
          (letters.toLowercase (trim (more ++ subject))) := by
        have shape : '[' :: (tag ++ ']' :: (blanks ++ more)) ++ subject =
            ('[' :: tag) ++ ([']'] ++ (blanks ++ (more ++ subject))) := by simp
        have start : trimStart (('[' :: tag) ++ ([']'] ++ (blanks ++ (more ++ subject)))) =
            ('[' :: tag) ++ ([']'] ++ (blanks ++ (more ++ subject))) :=
          List.dropWhile_cons_of_neg (by decide)
        rw [shape, trim, start, trimEnd_word (by simp) (by simp [isWhitespace]),
          lowercase_append charwise, lowercase_append charwise, ← List.singleton_append,
          lowercase_append charwise, bracket '[' (by simp), bracket ']' (by simp)]
        refine cuts_behind charwise blank (@Cuts.tag _ (letters.toLowercase tag) _ ?_ (by simp))
        exact fun closes => plain (letters.lowercase_symbol tag ']' (by decide) (by decide) closes)
      rw [← ih]
      exact stripSubjectFrom_eq (.single cuts) le_rfl le_rfl

theorem normalizeSubject_idempotent (subject : Text) :
    normalizeSubject letters (normalizeSubject letters subject) =
      normalizeSubject letters subject := by
  have whole : trim (letters.toLowercase (trim subject)) = letters.toLowercase (trim subject) := by
    rw [letters.lowercase_trim, trim_trim]
  have starts : trimStart (letters.toLowercase (trim subject)) =
      letters.toLowercase (trim subject) := by
    have shorter := congrArg List.length whole
    have bound : (trim (letters.toLowercase (trim subject))).length ≤
        (trimStart (letters.toLowercase (trim subject))).length :=
      (List.rdropWhile_prefix _ _).length_le
    have most := (trimStart_suffix (letters.toLowercase (trim subject))).length_le
    exact (trimStart_suffix _).eq_of_length (by omega)
  have ends : trimEnd (letters.toLowercase (trim subject)) = letters.toLowercase (trim subject) := by
    rw [trim, starts] at whole
    exact whole
  have path : Relation.ReflTransGen Cuts (letters.toLowercase (trim subject))
      (normalizeSubject letters subject) := cuts_stripSubjectFrom _ _
  obtain ⟨suffix, first⟩ := cuts_ends path starts
  have last := trimEnd_suffix suffix ends
  have trimmed : trim (normalizeSubject letters subject) = normalizeSubject letters subject := by
    rw [trim, first, last]
  have folded : letters.toLowercase (normalizeSubject letters subject) =
      normalizeSubject letters subject := by
    have idempotent := letters.lowercase_idempotent (trim subject)
    obtain ⟨before, split⟩ := suffix
    rw [← split, lowercase_append charwise] at idempotent
    exact (List.append_inj idempotent (by rw [charwise, List.length_map])).2
  rw [normalizeSubject, trimmed, folded]
  exact stripSubjectFrom_still _ (normalizeSubject_stable letters subject)

/-- The loop ends, normalising again changes nothing, and prefixes make no difference. -/
theorem normalizeSubject_fixed :
    (∀ subject turns, (letters.toLowercase (trim subject)).length ≤ turns →
      stripSubjectFrom turns (letters.toLowercase (trim subject)) =
          normalizeSubject letters subject ∧
        stripSubject (normalizeSubject letters subject) = normalizeSubject letters subject) ∧
    (∀ subject, normalizeSubject letters (normalizeSubject letters subject) =
      normalizeSubject letters subject) ∧
    ∀ before, SubjectPrefix letters before → ∀ subject,
      normalizeSubject letters (before ++ subject) = normalizeSubject letters subject :=
  ⟨fun subject _ enough => ⟨stripSubjectFrom_eq .refl enough le_rfl,
      normalizeSubject_stable letters subject⟩,
    normalizeSubject_idempotent charwise,
    fun _ known subject => normalizeSubject_prefix charwise known subject⟩

end Normal

theorem lunch_normalized : normalizeSubject asciiCase "RE: [team] Fwd:Lunch?".toList =
    normalizeSubject asciiCase "Lunch?".toList := by
  have known : SubjectPrefix asciiCase "RE: [team] Fwd:".toList :=
    @SubjectPrefix.mark _ "RE:".toList " ".toList _ (by decide) (by decide)
      (@SubjectPrefix.tag _ "team".toList " ".toList _ (by decide) (by decide)
        (@SubjectPrefix.mark _ "Fwd:".toList [] [] (by decide) (by decide) .none))
  exact (@normalizeSubject_fixed asciiCase Char.toLower fun _ => rfl).2.2 _ known "Lunch?".toList

end Rusmes
