import Mathlib.Data.List.DropRight

/-!
The words between blanks. Everything is said of the first word: items are blank, or they are blank
up to a word that ends where they do or before a blank.
-/

namespace WireText

section Words

variable {α : Type} {blank : α → Bool}

def wordsBy (blank : α → Bool) (items : List α) : List (List α) :=
  (items.splitOnP blank).filter (· ≠ [])

@[simp] theorem wordsBy_nil : wordsBy blank [] = [] := by
  simp [wordsBy, List.splitOnP_nil]

theorem wordsBy_append {item : α} (white : blank item = true) (first second : List α) :
    wordsBy blank (first ++ item :: second) = wordsBy blank first ++ wordsBy blank second := by
  rw [wordsBy, List.splitOnP_append_cons first second white, List.filter_append]
  rfl

theorem wordsBy_blanks {blanks : List α} (white : ∀ item ∈ blanks, blank item = true)
    (items : List α) : wordsBy blank (blanks ++ items) = wordsBy blank items := by
  induction blanks with
  | nil => rfl
  | cons first blanks ih =>
      rw [List.forall_mem_cons] at white
      have split := wordsBy_append white.1 [] (blanks ++ items)
      rw [List.nil_append, wordsBy_nil, List.nil_append] at split
      rw [List.cons_append, split, ih white.2]

theorem wordsBy_blank {items : List α} (white : ∀ item ∈ items, blank item = true) :
    wordsBy blank items = [] := by
  have blanks := wordsBy_blanks white []
  rwa [List.append_nil, wordsBy_nil] at blanks

theorem wordsBy_behind (items : List α) {rest : List α}
    (ends : ∀ first, rest.head? = some first → blank first = true) :
    wordsBy blank (items ++ rest) = wordsBy blank items ++ wordsBy blank rest := by
  cases rest with
  | nil => simp
  | cons first rest =>
      have white := ends first rfl
      have behind := wordsBy_append white [] rest
      rw [List.nil_append, wordsBy_nil, List.nil_append] at behind
      rw [wordsBy_append white, behind]

theorem wordsBy_solid {word : List α} (nonempty : word ≠ [])
    (solid : ∀ item ∈ word, blank item = false) : wordsBy blank word = [word] := by
  have whole : word.splitOnP blank = [word] :=
    List.splitOnP_eq_singleton fun item member => by simpa using solid item member
  simp [wordsBy, whole, nonempty]

theorem wordsBy_word {word : List α} (nonempty : word ≠ [])
    (solid : ∀ item ∈ word, blank item = false) {rest : List α}
    (ends : ∀ first, rest.head? = some first → blank first = true) :
    wordsBy blank (word ++ rest) = word :: wordsBy blank rest := by
  rw [wordsBy_behind word ends, wordsBy_solid nonempty solid]
  rfl

theorem exists_solid (blank : α → Bool) (items : List α) :
    ∃ word rest, items = word ++ rest ∧ (∀ item ∈ word, blank item = false) ∧
      ∀ first, rest.head? = some first → blank first = true := by
  refine ⟨items.takeWhile fun item => !blank item, items.dropWhile fun item => !blank item,
    List.takeWhile_append_dropWhile.symm, ?_, ?_⟩
  · intro item member
    simpa using List.mem_takeWhile_imp member
  · intro first head
    have stopped := List.head?_dropWhile_not (fun item => !blank item) items
    rw [head] at stopped
    simpa using stopped

theorem wordsBy_cases (blank : α → Bool) (items : List α) :
    ((∀ item ∈ items, blank item = true) ∧ wordsBy blank items = []) ∨
      ∃ blanks word rest, items = blanks ++ (word ++ rest) ∧
        (∀ item ∈ blanks, blank item = true) ∧ word ≠ [] ∧ (∀ item ∈ word, blank item = false) ∧
        (∀ first, rest.head? = some first → blank first = true) ∧
        wordsBy blank items = word :: wordsBy blank rest := by
  have whole : items = items.takeWhile blank ++ items.dropWhile blank :=
    List.takeWhile_append_dropWhile.symm
  have white : ∀ item ∈ items.takeWhile blank, blank item = true :=
    fun item member => List.mem_takeWhile_imp member
  cases empty : items.dropWhile blank with
  | nil =>
      left
      rw [whole, empty, List.append_nil]
      exact ⟨white, wordsBy_blank white⟩
  | cons first tail =>
      right
      have start : blank first = false := by
        have stopped := List.head?_dropWhile_not blank items
        rw [empty] at stopped
        exact stopped
      obtain ⟨word, rest, parts, solid, ends⟩ := exists_solid blank (first :: tail)
      have nonempty : word ≠ [] := by
        rintro rfl
        rw [List.nil_append] at parts
        rw [ends first (by rw [← parts]; rfl)] at start
        cases start
      rw [empty, parts] at whole
      refine ⟨_, word, rest, whole, white, nonempty, solid, ends, ?_⟩
      conv_lhs => rw [whole]
      rw [wordsBy_blanks white, wordsBy_word nonempty solid ends]

/-- Induction on the words: blanks, or blanks and a word before shorter items. -/
theorem words_induction (blank : α → Bool) {motive : List α → Prop}
    (none : ∀ items, (∀ item ∈ items, blank item = true) → wordsBy blank items = [] → motive items)
    (next : ∀ blanks word rest, (∀ item ∈ blanks, blank item = true) → word ≠ [] →
      (∀ item ∈ word, blank item = false) →
      (∀ first, rest.head? = some first → blank first = true) →
      wordsBy blank (blanks ++ (word ++ rest)) = word :: wordsBy blank rest → motive rest →
      motive (blanks ++ (word ++ rest))) (items : List α) : motive items := by
  induction size : items.length using Nat.strongRecOn generalizing items with
  | ind size ih =>
      subst size
      rcases wordsBy_cases blank items with ⟨white, empty⟩ |
        ⟨blanks, word, rest, rfl, white, nonempty, solid, ends, found⟩
      · exact none items white empty
      · refine next blanks word rest white nonempty solid ends found (ih rest.length ?_ rest rfl)
        have positive := List.length_pos_iff.mpr nonempty
        simp only [List.length_append]
        omega

theorem mem_wordsBy {items word : List α} (member : word ∈ wordsBy blank items) :
    word ≠ [] ∧ ∀ item ∈ word, blank item = false := by
  induction items using words_induction blank with
  | none items _ empty =>
      rw [empty] at member
      cases member
  | next blanks first rest _ nonempty solid _ found ih =>
      rw [found] at member
      rcases List.mem_cons.mp member with rfl | later
      · exact ⟨nonempty, solid⟩
      · exact ih later

theorem subset_of_mem_wordsBy {items word : List α} (member : word ∈ wordsBy blank items) :
    word ⊆ items := by
  induction items using words_induction blank with
  | none items _ empty =>
      rw [empty] at member
      cases member
  | next blanks first rest _ _ _ _ found ih =>
      rw [found] at member
      intro item inside
      rcases List.mem_cons.mp member with rfl | later
      · simp [inside]
      · simp [ih later inside]

theorem exists_word_of_mem {items : List α} {item : α} (member : item ∈ items)
    (solid : blank item = false) : ∃ word ∈ wordsBy blank items, item ∈ word := by
  have apart : ∀ {blanks : List α}, (∀ other ∈ blanks, blank other = true) → item ∉ blanks := by
    intro blanks white inside
    rw [white item inside] at solid
    cases solid
  induction items using words_induction blank with
  | none items white _ => exact absurd member (apart white)
  | next blanks first rest white _ _ _ found ih =>
      rw [found]
      simp only [List.mem_append, apart white, false_or] at member
      rcases member with inside | later
      · exact ⟨first, List.mem_cons_self, inside⟩
      · obtain ⟨word, among, inside⟩ := ih later
        exact ⟨word, List.mem_cons_of_mem _ among, inside⟩

theorem wordsBy_intercalate {space : α} (white : blank space = true) {words : List (List α)}
    (proper : ∀ word ∈ words, word ≠ [] ∧ ∀ item ∈ word, blank item = false) :
    wordsBy blank ([space].intercalate words) = words := by
  induction words with
  | nil => rfl
  | cons word words ih =>
      rw [List.forall_mem_cons] at proper
      cases words with
      | nil =>
          rw [List.intercalate_singleton]
          exact wordsBy_solid proper.1.1 proper.1.2
      | cons second words =>
          rw [List.intercalate_cons_cons, List.append_assoc, List.singleton_append,
            wordsBy_append white, wordsBy_solid proper.1.1 proper.1.2, ih proper.2]
          rfl

theorem wordsBy_congr {other : α → Bool} {items : List α}
    (same : ∀ item ∈ items, blank item = other item) : wordsBy blank items = wordsBy other items := by
  induction items using words_induction blank with
  | none items white empty =>
      rw [empty, wordsBy_blank fun item member => by rw [← same item member, white item member]]
  | next blanks word rest white nonempty solid ends found ih =>
      simp only [List.forall_mem_append] at same
      have begins : ∀ first, rest.head? = some first → other first = true := by
        intro first head
        rw [← same.2.2 first (List.mem_of_mem_head? head), ends first head]
      rw [found, ih same.2.2, wordsBy_blanks fun item member => by
        rw [← same.1 item member, white item member],
        wordsBy_word nonempty (fun item member => by
          rw [← same.2.1 item member, solid item member]) begins]

/-! One space between the words. -/

def squeeze (blank : α → Bool) (space : α) (items : List α) : List α :=
  [space].intercalate (wordsBy blank items)

theorem wordsBy_squeeze {space : α} (white : blank space = true) (items : List α) :
    wordsBy blank (squeeze blank space items) = wordsBy blank items :=
  wordsBy_intercalate white fun _ => mem_wordsBy

theorem squeeze_solid (space : α) {word : List α} (nonempty : word ≠ [])
    (solid : ∀ item ∈ word, blank item = false) : squeeze blank space word = word := by
  rw [squeeze, wordsBy_solid nonempty solid, List.intercalate_singleton]

theorem wordsBy_ne_nil {items : List α} {last : α} (member : last ∈ items)
    (solid : blank last = false) : wordsBy blank items ≠ [] := by
  rcases wordsBy_cases blank items with ⟨white, -⟩ | ⟨_, _, _, -, -, -, -, -, found⟩
  · rw [white last member] at solid
    cases solid
  · rw [found]
    exact List.cons_ne_nil _ _

theorem squeeze_append (space : α) {first second : List α}
    (ends : ∀ last, first.getLast? = some last → blank last = false)
    (starts : ∀ next, second.head? = some next → blank next = false) :
    squeeze blank space (first ++ second) =
      squeeze blank space first ++ squeeze blank space second := by
  induction first using words_induction blank with
  | none items white empty =>
      rcases List.eq_nil_or_concat' items with rfl | ⟨front, last, rfl⟩
      · simp [squeeze]
      · have solid := ends last List.getLast?_concat
        rw [white last (by simp)] at solid
        cases solid
  | next blanks word rest white nonempty solid begins found ih =>
      cases second with
      | nil => simp [squeeze]
      | cons next second =>
          rw [squeeze, squeeze, found, List.append_assoc, List.append_assoc, wordsBy_blanks white]
          rcases List.eq_nil_or_concat' rest with rfl | ⟨front, last, rfl⟩
          · obtain ⟨more, behind, parts, solidMore, after⟩ := exists_solid blank (next :: second)
            have full : more ≠ [] := by
              rintro rfl
              have white := after next (by rw [List.nil_append] at parts; rw [← parts]; rfl)
              rw [starts next rfl] at white
              cases white
            have solidBoth : ∀ item ∈ word ++ more, blank item = false :=
              List.forall_mem_append.mpr ⟨solid, solidMore⟩
            rw [List.nil_append, squeeze, parts, ← List.append_assoc,
              wordsBy_word (by simp [nonempty]) solidBoth after, wordsBy_word full solidMore after,
              wordsBy_nil, List.intercalate_singleton]
            cases wordsBy blank behind with
            | nil => simp
            | cons second words =>
                rw [List.intercalate_cons_cons, List.intercalate_cons_cons]
                simp
          · have stop : blank last = false := ends last (by simp [← List.append_assoc])
            have behind := ih fun final same => ends final (by
              rw [← same]
              simp [← List.append_assoc])
            have seam : ∀ first, (front ++ [last] ++ next :: second).head? = some first →
                blank first = true := by
              intro first head
              refine begins first ?_
              rw [← head]
              cases front <;> rfl
            have words : wordsBy blank (front ++ [last]) ≠ [] := wordsBy_ne_nil (by simp) stop
            have all : wordsBy blank (front ++ [last] ++ next :: second) ≠ [] :=
              @wordsBy_ne_nil _ _ _ last (by simp) stop
            rw [squeeze] at behind
            rw [wordsBy_word nonempty solid seam, List.intercalate_cons_of_ne_nil all, behind,
              List.intercalate_cons_of_ne_nil words]
            simp [squeeze]

theorem squeeze_word {space : α} (white : blank space = true) {word rest : List α}
    (nonempty : word ≠ []) (solid : ∀ item ∈ word, blank item = false)
    (others : wordsBy blank rest ≠ []) :
    squeeze blank space (word ++ space :: rest) = word ++ space :: squeeze blank space rest := by
  rw [squeeze, wordsBy_append white, wordsBy_solid nonempty solid, List.singleton_append,
    List.intercalate_cons_of_ne_nil others]
  simp [squeeze]

end Words

section Pieces

variable {α : Type} [DecidableEq α] {blank : α → Bool} {space separator : α}

@[elab_as_elim] theorem pieces_induction (separator : α) {motive : List α → Prop}
    (last : ∀ items, separator ∉ items → motive items)
    (next : ∀ first rest, separator ∉ first → motive rest → motive (first ++ separator :: rest))
    (items : List α) : motive items := by
  induction size : items.length using Nat.strongRecOn generalizing items with
  | ind size ih =>
      by_cases member : separator ∈ items
      · obtain ⟨first, rest, rfl, absent⟩ := List.eq_append_cons_of_mem member
        rw [List.length_append, List.length_cons] at size
        exact next first rest absent (ih rest.length (by omega) rest rfl)
      · exact last items member

theorem piece_of_splitOn {items piece : List α} (member : piece ∈ items.splitOn separator) :
    separator ∉ piece ∧ piece ⊆ items := by
  induction items using pieces_induction separator with
  | last items absent =>
      rw [List.splitOn_eq_singleton absent, List.mem_singleton] at member
      subst member
      exact ⟨absent, List.Subset.refl _⟩
  | next first rest absent ih =>
      rw [List.splitOn_append_cons_self_of_not_mem absent] at member
      rcases List.mem_cons.mp member with rfl | later
      · exact ⟨absent, List.subset_append_left _ _⟩
      · have inside := ih later
        exact ⟨inside.1, fun item among => by simp [inside.2 among]⟩

def isolate (space separator : α) (items : List α) : List α :=
  items.flatMap fun item => if item = separator then [space, separator, space] else [item]

theorem isolate_absent {items : List α} (absent : separator ∉ items) :
    isolate space separator items = items := by
  induction items with
  | nil => rfl
  | cons item items ih =>
      rw [List.mem_cons, not_or] at absent
      rw [isolate, List.flatMap_cons, if_neg (Ne.symm absent.1)]
      exact congrArg (item :: ·) (ih absent.2)

theorem isolate_append (first second : List α) :
    isolate space separator (first ++ second) =
      isolate space separator first ++ isolate space separator second := List.flatMap_append

theorem wordsBy_isolate (proper : blank separator = false) (items : List α) :
    wordsBy blank (isolate space separator items) =
      (wordsBy blank items).flatMap fun word => wordsBy blank (isolate space separator word) := by
  have kept : ∀ {blanks : List α}, (∀ item ∈ blanks, blank item = true) →
      isolate space separator blanks = blanks := by
    intro blanks white
    refine isolate_absent fun member => ?_
    rw [white separator member] at proper
    cases proper
  induction items using words_induction blank with
  | none items white empty =>
      rw [kept white, empty]
      rfl
  | next blanks word rest white _ _ ends found ih =>
      rw [found, List.flatMap_cons, ← ih, isolate_append, isolate_append, kept white,
        wordsBy_blanks white]
      refine wordsBy_behind _ fun first head => ?_
      cases rest with
      | nil => cases head
      | cons next rest =>
          have space := ends next rfl
          have apart : next ≠ separator := by
            rintro rfl
            rw [space] at proper
            cases proper
          rw [isolate, List.flatMap_cons, if_neg apart] at head
          cases head
          exact space

theorem splitOn_isolate (white : blank space = true) (proper : blank separator = false)
    (items : List α) :
    (wordsBy blank (isolate space separator items)).splitOn [separator] =
      (items.splitOn separator).map (wordsBy blank) := by
  induction items using pieces_induction separator with
  | last items absent =>
      rw [isolate_absent absent, List.splitOn_eq_singleton absent]
      exact List.splitOn_eq_singleton fun alone =>
        absent (subset_of_mem_wordsBy alone List.mem_cons_self)
  | next first rest absent ih =>
      have apart : isolate space separator (first ++ separator :: rest) =
          first ++ space :: ([separator] ++ space :: isolate space separator rest) := by
        rw [isolate_append, isolate_absent absent, isolate, List.flatMap_cons, if_pos rfl]
        rfl
      have alone : wordsBy blank [separator] = [[separator]] :=
        wordsBy_solid (List.cons_ne_nil _ _) (by simpa using proper)
      have other : [separator] ∉ wordsBy blank first :=
        fun inside => absent (subset_of_mem_wordsBy inside List.mem_cons_self)
      rw [apart, wordsBy_append white, wordsBy_append white, alone, List.singleton_append,
        List.splitOn_append_cons_self_of_not_mem other, ih,
        List.splitOn_append_cons_self_of_not_mem absent, List.map_cons]

theorem splitOn_words (white : blank space = true) (proper : blank separator = false)
    {first second : List α} (same : wordsBy blank first = wordsBy blank second) :
    (first.splitOn separator).map (wordsBy blank) =
      (second.splitOn separator).map (wordsBy blank) := by
  rw [← splitOn_isolate white proper, ← splitOn_isolate white proper,
    wordsBy_isolate proper, wordsBy_isolate proper, same]

end Pieces

end WireText
