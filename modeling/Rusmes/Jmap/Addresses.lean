import Rusmes.Jmap.Atomic
import Rusmes.Library.Splitting
import Rusmes.Library.Words

/-!
Address lists in header fields: which lists are read back from the text
`format_addresses` writes, and which field values `parse_email_addresses` fails on.
-/

namespace Rusmes

open WireText

def ClosesFirst (text : Text) : Prop :=
  ∃ before after, text = before ++ '>' :: after ∧ '<' ∉ before ∧ '<' ∈ after

/-- A display name that keeps its quotation marks and its place before the address. -/
structure PlainName (name : Text) : Prop where
  nonempty : name ≠ []
  marks : ∀ mark ∈ [',', '<', '>'], mark ∉ name
  opens : name.head? ≠ some '"'
  closes : name.getLast? ≠ some '"'

structure EmailAddress.Survives (address : EmailAddress) : Prop where
  plain : ',' ∉ address.email
  trimmed : trim address.email = address.email
  named : ∀ name, address.name = some name → PlainName name ∧ '>' ∉ address.email
  bare : address.name = none → address.email ≠ [] ∧ ¬('<' ∈ address.email ∧ '>' ∈ address.email)

section Marks

variable {text before after : Text} {mark : Char}

theorem mem_trimQuotes {character : Char} (member : character ∈ trimQuotes text) :
    character ∈ text :=
  (List.dropWhile_suffix _).subset ((List.rdropWhile_prefix _ _).subset member)

theorem cutAtMark_append (absent : mark ∉ before) :
    cutAtMark mark (before ++ mark :: after) = some (before, after) := by
  have stays : ∀ character ∈ before, (decide (character ≠ mark)) = true := by
    intro character member
    rw [decide_eq_true_eq]
    rintro rfl
    exact absent member
  rw [cutAtMark, if_pos (by simp), List.takeWhile_append_of_pos stays,
    List.dropWhile_append_of_pos stays]
  simp

theorem cutAtMark_none (absent : mark ∉ text) : cutAtMark mark text = none := if_neg absent

theorem trimQuotes_quoted_any (name : Text) : trimQuotes ('"' :: (name ++ ['"'])) = trimQuotes name := by
  have opening : ('"' :: (name ++ ['"'])).dropWhile (· = '"') = (name ++ ['"']).dropWhile (· = '"') :=
    List.dropWhile_cons_of_pos (by simp)
  rw [trimQuotes, opening, trimQuotes, List.dropWhile_append]
  split
  · rename_i all
    have none : name.dropWhile (· = '"') = [] := by simpa using all
    rw [none]
    simp [List.dropWhile]
  · rw [List.rdropWhile_concat_pos _ _ _ (by simp)]

theorem trimQuotes_eq_iff (name : Text) :
    trimQuotes name = name ↔ name.head? ≠ some '"' ∧ name.getLast? ≠ some '"' := by
  constructor
  · intro same
    constructor
    · intro opens
      have shorter : (name.dropWhile (· = '"')).length < name.length := by
        obtain ⟨rest, rfl⟩ := List.head?_eq_some_iff.mp opens
        rw [List.dropWhile_cons_of_pos (by simp), List.length_cons]
        exact Nat.lt_succ_of_le (List.dropWhile_suffix _).length_le
      have kept := (List.rdropWhile_prefix (· = '"') (name.dropWhile (· = '"'))).length_le
      have whole := congrArg List.length same
      rw [trimQuotes] at whole
      omega
    · intro closes
      have nonempty : trimQuotes name ≠ [] := by
        rw [same]
        rintro rfl
        cases closes
      have stops := List.rdropWhile_last_not (· = '"') (name.dropWhile (· = '"')) nonempty
      rw [← same, List.getLast?_eq_getLast_of_ne_nil nonempty] at closes
      exact stops (decide_eq_true (Option.some.inj closes))
  · rintro ⟨opens, closes⟩
    have front : name.dropWhile (· = '"') = name := by
      cases name with
      | nil => rfl
      | cons first rest =>
          exact List.dropWhile_cons_of_neg (by simpa using opens)
    rw [trimQuotes, front, List.rdropWhile_eq_self_iff]
    intro nonempty last
    rw [List.getLast?_eq_getLast_of_ne_nil nonempty] at closes
    exact closes (congrArg some (by simpa using last))

theorem length_le_of_absent {other tail : Text} (same : before ++ mark :: after = other ++ tail)
    (absent : mark ∉ other) : other.length ≤ before.length := by
  by_contra longer
  have within : before ++ [mark] <+: other := by
    have whole : before ++ [mark] <+: other ++ tail := ⟨after, by rw [← same]; simp⟩
    refine List.prefix_of_prefix_length_le whole (List.prefix_append _ _) ?_
    simp only [List.length_append, List.length_singleton]
    omega
  exact absent (within.subset (by simp))

theorem closesFirst_iff {untilEnd more : Text} (opens : text = before ++ '<' :: after)
    (noOpening : '<' ∉ before) (closes : text = untilEnd ++ '>' :: more)
    (noClosing : '>' ∉ untilEnd) :
    untilEnd.length ≤ before.length ↔ ClosesFirst text := by
  constructor
  · intro short
    have within : untilEnd <+: before :=
      List.prefix_of_prefix_length_le (closes ▸ List.prefix_append _ _)
        (opens ▸ List.prefix_append _ _) short
    have absent : '<' ∉ untilEnd := fun inside => noOpening (within.subset inside)
    refine ⟨untilEnd, more, closes, absent, ?_⟩
    have there : '<' ∈ untilEnd ++ '>' :: more := by rw [← closes, opens]; simp
    simpa [absent] using there
  · rintro ⟨front, back, split, absent, -⟩
    have first := length_le_of_absent (split.symm.trans closes) noClosing
    have second := length_le_of_absent (opens.symm.trans split) absent
    omega

end Marks

section Read

variable {text : Text} {name email : Text} {address : EmailAddress}

theorem parseEmailAddress_marked {trimmed before after untilEnd more : Text} (nonempty : trimmed ≠ [])
    (trims : trim text = trimmed) (opens : cutAtMark '<' trimmed = some (before, after))
    (closes : cutAtMark '>' trimmed = some (untilEnd, more)) :
    parseEmailAddress? text =
      if untilEnd.length ≤ before.length then .error .panicked
      else
        let name := trimQuotes (trim before)
        let email := trim (after.take (untilEnd.length - before.length - 1))
        .ok (some ⟨if name = [] then none else some name, email⟩) := by
  rw [parseEmailAddress?]
  dsimp only
  rw [trims, if_neg nonempty, opens, closes]

theorem parseEmailAddress_bare (nonempty : trim text ≠ [])
    (unmarked : ¬('<' ∈ trim text ∧ '>' ∈ trim text)) :
    parseEmailAddress? text = .ok (some ⟨none, trim text⟩) := by
  rw [parseEmailAddress?]
  dsimp only
  rw [if_neg nonempty]
  by_cases opens : '<' ∈ trim text
  · rw [cutAtMark_none fun closes => unmarked ⟨opens, closes⟩]
    cases cutAtMark '<' (trim text) <;> rfl
  · rw [cutAtMark_none opens]

theorem parseEmailAddress_panics_iff (text : Text) :
    parseEmailAddress? text = .error .panicked ↔ ClosesFirst (trim text) := by
  by_cases nonempty : trim text = []
  · rw [parseEmailAddress?]
    dsimp only
    rw [if_pos nonempty, nonempty]
    simp [ClosesFirst]
  by_cases marked : '<' ∈ trim text ∧ '>' ∈ trim text
  · obtain ⟨before, after, opens, noOpening⟩ := List.eq_append_cons_of_mem marked.1
    obtain ⟨untilEnd, more, closes, noClosing⟩ := List.eq_append_cons_of_mem marked.2
    rw [parseEmailAddress_marked nonempty rfl (opens ▸ cutAtMark_append noOpening)
      (closes ▸ cutAtMark_append noClosing), ← closesFirst_iff opens noOpening closes noClosing]
    by_cases short : untilEnd.length ≤ before.length
    · simp [short]
    · simp [short]
  · rw [parseEmailAddress_bare nonempty marked]
    constructor
    · intro panics
      cases panics
    · rintro ⟨front, back, split, -, later⟩
      refine absurd ⟨?_, ?_⟩ marked
      · rw [split]
        simp [later]
      · rw [split]
        simp

theorem parsed_members (parsed : parseEmailAddress? text = .ok (some address)) :
    (∀ character ∈ address.email, character ∈ text) ∧
      ∀ name, address.name = some name → name ≠ [] ∧
        ∀ character ∈ name, character ∈ text ∧ character ≠ '<' ∧ character ≠ '>' := by
  by_cases nonempty : trim text = []
  · rw [parseEmailAddress?] at parsed
    dsimp only at parsed
    rw [if_pos nonempty] at parsed
    cases parsed
  by_cases marked : '<' ∈ trim text ∧ '>' ∈ trim text
  · obtain ⟨before, after, opens, noOpening⟩ := List.eq_append_cons_of_mem marked.1
    obtain ⟨untilEnd, more, closes, noClosing⟩ := List.eq_append_cons_of_mem marked.2
    rw [parseEmailAddress_marked nonempty rfl (opens ▸ cutAtMark_append noOpening)
      (closes ▸ cutAtMark_append noClosing)] at parsed
    by_cases short : untilEnd.length ≤ before.length
    · rw [if_pos short] at parsed
      cases parsed
    · rw [if_neg short] at parsed
      cases parsed
      have within : before <+: untilEnd :=
        List.prefix_of_prefix_length_le (opens ▸ List.prefix_append _ _)
          (closes ▸ List.prefix_append _ _) (by omega)
      refine ⟨fun character member => mem_trim ?_, ?_⟩
      · rw [opens]
        exact List.mem_append_right _ (List.mem_cons_of_mem _ (List.mem_of_mem_take (mem_trim member)))
      · intro name named
        dsimp only at named
        split at named
        · cases named
        · rename_i kept
          cases named
          refine ⟨kept, fun character member => ?_⟩
          have inside := mem_trim (mem_trimQuotes member)
          refine ⟨mem_trim (opens ▸ List.mem_append_left _ inside), ?_, ?_⟩
          · rintro rfl
            exact noOpening inside
          · rintro rfl
            exact noClosing (within.subset inside)
  · rw [parseEmailAddress_bare nonempty marked] at parsed
    cases parsed
    exact ⟨fun character member => mem_trim member, fun name named => by cases named⟩

theorem trim_length_le (text : Text) : (trim text).length ≤ text.length :=
  (List.rdropWhile_prefix _ _).length_le.trans (List.dropWhile_suffix _).length_le

theorem parsed_shorter (opened : '<' ∈ trim text) (closed : '>' ∈ trim text)
    (parsed : parseEmailAddress? text = .ok (some address)) :
    address.email.length < text.length := by
  obtain ⟨before, after, opens, noOpening⟩ := List.eq_append_cons_of_mem opened
  obtain ⟨untilEnd, more, closes, noClosing⟩ := List.eq_append_cons_of_mem closed
  have nonempty : trim text ≠ [] := List.ne_nil_of_mem opened
  rw [parseEmailAddress_marked nonempty rfl (opens ▸ cutAtMark_append noOpening)
    (closes ▸ cutAtMark_append noClosing)] at parsed
  split at parsed
  · cases parsed
  · cases parsed
    have inside := trim_length_le (after.take (untilEnd.length - before.length - 1))
    have whole := trim_length_le text
    rw [List.length_take] at inside
    rw [opens, List.length_append, List.length_cons] at whole
    dsimp only
    omega

theorem parse_formatted_named {upTo more : Text} (opening : '<' ∉ name) (closing : '>' ∉ name)
    (split : email ++ ['>'] = upTo ++ '>' :: more) (absent : '>' ∉ upTo) :
    parseEmailAddress? (formatAddress ⟨some name, email⟩) =
      .ok (some ⟨if trimQuotes name = [] then none else some (trimQuotes name), trim upTo⟩) := by
  have shape : formatAddress ⟨some name, email⟩ =
      '"' :: ((name ++ "\" <".toList ++ email) ++ ['>']) := by simp [formatAddress]
  have solid : trim (formatAddress ⟨some name, email⟩) = formatAddress ⟨some name, email⟩ := by
    rw [shape]
    exact trim_enclosed (by decide) (by decide) _
  have opens : formatAddress ⟨some name, email⟩ =
      ('"' :: (name ++ ['"', ' '])) ++ '<' :: (email ++ ['>']) := by simp [formatAddress]
  have closes : formatAddress ⟨some name, email⟩ =
      ('"' :: (name ++ ['"', ' ', '<'] ++ upTo)) ++ '>' :: more := by
    rw [opens, split]
    simp
  have noOpening : '<' ∉ '"' :: (name ++ ['"', ' ']) := by simp [opening]
  have noClosing : '>' ∉ '"' :: (name ++ ['"', ' ', '<'] ++ upTo) := by simp [closing, absent]
  have nonempty : formatAddress ⟨some name, email⟩ ≠ [] := by
    rw [shape]
    exact List.cons_ne_nil _ _
  rw [parseEmailAddress_marked nonempty solid (opens ▸ cutAtMark_append noOpening)
    (closes ▸ cutAtMark_append noClosing), if_neg (by simp)]
  have length : ('"' :: (name ++ ['"', ' ', '<'] ++ upTo)).length -
      ('"' :: (name ++ ['"', ' '])).length - 1 = upTo.length := by
    simp only [List.length_cons, List.length_append, List.length_nil]
    omega
  have quoted : trim ('"' :: (name ++ ['"', ' '])) = '"' :: (name ++ ['"']) := by
    have split : '"' :: (name ++ ['"', ' ']) = '"' :: (name ++ ['"']) ++ [' '] := by simp
    have starts : ∀ more, trimStart ('"' :: more) = '"' :: more := fun more =>
      List.dropWhile_cons_of_neg (by decide)
    have whole := @trim_enclosed '"' '"' (by decide) (by decide) name
    rw [trim, starts] at whole
    rw [split, trim, List.cons_append, starts, ← List.cons_append, trimEnd_append, whole]
    simp [isWhitespace]
  dsimp only
  rw [length, split, List.take_left, quoted, trimQuotes_quoted_any]

theorem parse_formatted_iff {address : EmailAddress} (plain : ',' ∉ address.email)
    (plainName : ∀ name, address.name = some name → ',' ∉ name) :
    parseEmailAddress? (formatAddress address) = .ok (some address) ↔ address.Survives := by
  obtain ⟨name, email⟩ := address
  cases name with
  | none =>
      change parseEmailAddress? email = _ ↔ _
      constructor
      · intro parsed
        have nonempty : trim email ≠ [] := by
          intro blank
          rw [parseEmailAddress?] at parsed
          dsimp only at parsed
          rw [if_pos blank] at parsed
          cases parsed
        have unmarked : ¬('<' ∈ trim email ∧ '>' ∈ trim email) := fun marked =>
          absurd (parsed_shorter marked.1 marked.2 parsed) (lt_irrefl _)
        rw [parseEmailAddress_bare nonempty unmarked] at parsed
        have same : trim email = email := by simpa using parsed
        rw [same] at nonempty unmarked
        exact ⟨plain, same, fun _ named => (by cases named), fun _ => ⟨nonempty, unmarked⟩⟩
      · intro survives
        have trims : trim email = email := survives.trimmed
        obtain ⟨nonempty, unmarked⟩ := survives.bare rfl
        rw [parseEmailAddress_bare (by rwa [trims]) (by rwa [trims]), trims]
  | some name =>
      constructor
      · intro parsed
        obtain ⟨nonempty, marks⟩ := (parsed_members parsed).2 name rfl
        have opening : '<' ∉ name := fun inside => (marks _ inside).2.1 rfl
        have closing : '>' ∉ name := fun inside => (marks _ inside).2.2 rfl
        obtain ⟨upTo, more, split, absent⟩ := List.eq_append_cons_of_mem (show '>' ∈ email ++ ['>'] by simp)
        have read := (parse_formatted_named opening closing split absent).symm.trans parsed
        have parts := EmailAddress.mk.inj (Option.some.inj (Except.ok.inj read))
        have unmarked : '>' ∉ email := fun inside => absent (mem_trim (parts.2 ▸ inside))
        have again := (parse_formatted_named opening closing rfl unmarked).symm.trans parsed
        have trims := (EmailAddress.mk.inj (Option.some.inj (Except.ok.inj again))).2
        have quotes : trimQuotes name = name := by
          have names := parts.1
          split at names
          · cases names
          · exact Option.some.inj names
        have ends := (trimQuotes_eq_iff name).mp quotes
        refine ⟨plain, trims, ?_, fun none => by cases none⟩
        intro other same
        cases same
        refine ⟨⟨nonempty, ?_, ends.1, ends.2⟩, unmarked⟩
        simp [plainName name rfl, opening, closing]
      · intro survives
        obtain ⟨plainly, unmarked⟩ := survives.named name rfl
        have opening := plainly.marks '<' (by simp)
        have closing := plainly.marks '>' (by simp)
        have quotes := (trimQuotes_eq_iff name).mpr ⟨plainly.opens, plainly.closes⟩
        have trims : trim email = email := survives.trimmed
        rw [parse_formatted_named opening closing rfl unmarked, quotes, if_neg plainly.nonempty,
          trims]

end Read

section Lists

variable {σ : Type} {ctx : JmapContext σ} {headers : HeaderMap} {name value : Text}
  {addresses : List EmailAddress} {parts : List Text}

theorem mapM_ok_iff {α β : Type} {read : α → Except JmapFault β} {parts : List α} {values : List β} :
    parts.mapM read = .ok values ↔
      List.Forall₂ (fun part value => read part = .ok value) parts values := by
  induction parts generalizing values with
  | nil => simp [pure, Except.pure, eq_comm]
  | cons part parts ih =>
      rw [List.mapM_cons]
      constructor
      · intro ran
        cases first : read part with
        | error fault =>
            rw [first] at ran
            cases ran
        | ok value =>
            rw [first] at ran
            change (parts.mapM read >>= fun rest => pure (value :: rest)) = _ at ran
            cases others : parts.mapM read with
            | error fault =>
                rw [others] at ran
                cases ran
            | ok rest =>
                rw [others] at ran
                cases ran
                exact .cons first (ih.mp others)
      · intro reads
        cases reads with
        | cons here others =>
            rw [here, ih.mpr others]
            rfl

theorem parseEmailAddress_blank (text : Text) :
    parseEmailAddress? (' ' :: text) = parseEmailAddress? text := by
  rw [parseEmailAddress?, trim_cons_blank (by decide), parseEmailAddress?]

theorem parseEmailAddresses_iff (header : headers.getFirst ctx.toCaseMapping name = some value)
    (answer : Option (List EmailAddress)) :
    parseEmailAddresses ctx headers name = .ok answer ↔
      ∃ read, List.Forall₂ (fun part result => parseEmailAddress? part = .ok result)
        (splitOn ',' value) read ∧ some (read.filterMap id) = answer := by
  rw [parseEmailAddresses, header]
  dsimp only
  constructor
  · intro ran
    cases reads : (splitOn ',' value).mapM parseEmailAddress? with
    | error fault =>
        rw [reads] at ran
        cases ran
    | ok read =>
        rw [reads] at ran
        cases ran
        exact ⟨read, mapM_ok_iff.mp reads, rfl⟩
  · rintro ⟨read, reads, rfl⟩
    rw [mapM_ok_iff.mpr reads]
    rfl

theorem exists_forall₂_iff {α β : Type} {related : α → β → Prop} {parts : List α} :
    (∃ values, List.Forall₂ related parts values) ↔ ∀ part ∈ parts, ∃ value, related part value := by
  induction parts with
  | nil => simp
  | cons part parts ih =>
      rw [List.forall_mem_cons, ← ih]
      constructor
      · rintro ⟨values, reads⟩
        cases reads with
        | cons here others => exact ⟨⟨_, here⟩, _, others⟩
      · rintro ⟨⟨value, here⟩, values, others⟩
        exact ⟨value :: values, .cons here others⟩

theorem parseEmailAddresses_returns_iff
    (header : headers.getFirst ctx.toCaseMapping name = some value) :
    (∃ answer, parseEmailAddresses ctx headers name = .ok answer) ↔
      ∀ part ∈ splitOn ',' value, ¬ClosesFirst (trim part) := by
  have each : ∀ part, (∃ result, parseEmailAddress? part = .ok result) ↔
      ¬ClosesFirst (trim part) := by
    intro part
    rw [← parseEmailAddress_panics_iff]
    cases parsed : parseEmailAddress? part with
    | ok result => simp
    | error fault =>
        rw [onlyPanics_address part fault parsed]
        simp
  have all := @exists_forall₂_iff _ _ (fun part result => parseEmailAddress? part = .ok result)
    (splitOn ',' value)
  simp only [each] at all
  rw [← all]
  constructor
  · rintro ⟨answer, ran⟩
    obtain ⟨read, reads, -⟩ := (parseEmailAddresses_iff header answer).mp ran
    exact ⟨read, reads⟩
  · rintro ⟨read, reads⟩
    exact ⟨_, (parseEmailAddresses_iff header _).mpr ⟨read, reads, rfl⟩⟩

theorem formatted_pieces {results : List (Option EmailAddress)} (nonempty : addresses ≠ [])
    (plain : ∀ address ∈ addresses, ',' ∉ formatAddress address) :
    List.Forall₂ (fun part result => parseEmailAddress? part = .ok result)
        (splitOn ',' (formatAddresses addresses)) results ↔
      List.Forall₂ (fun address result => parseEmailAddress? (formatAddress address) = .ok result)
        addresses results := by
  obtain ⟨first, others, rfl⟩ := List.exists_cons_of_ne_nil nonempty
  have whole : ∀ other ∈ others.map formatAddress, ',' ∉ other := by
    intro other member
    obtain ⟨address, inside, rfl⟩ := List.mem_map.mp member
    exact plain address (List.mem_cons_of_mem _ inside)
  rw [formatAddresses, List.map_cons, splitOn_listed (plain first List.mem_cons_self) whole,
    List.forall₂_cons_left_iff, List.forall₂_cons_left_iff]
  simp only [List.map_map, List.forall₂_map_left_iff, Function.comp, parseEmailAddress_blank]

theorem comma_formatAddress {address : EmailAddress} (plain : ',' ∉ address.email)
    (plainName : ∀ name, address.name = some name → ',' ∉ name) : ',' ∉ formatAddress address := by
  obtain ⟨name, email⟩ := address
  cases name with
  | none => exact plain
  | some name =>
      have first := plainName name rfl
      have second : ',' ∉ email := plain
      simp [formatAddress, first, second]

theorem eq_map_some {α : Type} {results : List (Option α)}
    (full : (results.filterMap id).length = results.length) :
    results = (results.filterMap id).map some := by
  have all := List.filterMap_length_eq_length.mp full
  clear full
  induction results with
  | nil => rfl
  | cons result results ih =>
      obtain ⟨value, rfl⟩ := Option.isSome_iff_exists.mp (all result List.mem_cons_self)
      have rest := ih fun other member => all other (List.mem_cons_of_mem _ member)
      exact congrArg (some value :: ·) rest

theorem formatted_read_iff
    (header : headers.getFirst ctx.toCaseMapping name = some (formatAddresses addresses)) :
    parseEmailAddresses ctx headers name = .ok (some addresses) ↔
      ∀ address ∈ addresses, address.Survives := by
  rw [parseEmailAddresses_iff header]
  constructor
  · rintro ⟨read, reads, same⟩ address member
    have listed : read.filterMap id = addresses := Option.some.inj same
    have unlisted : ∀ other ∈ addresses, ',' ∉ other.email ∧
        ∀ name, other.name = some name → ',' ∉ name := by
      intro other inside
      rw [← listed, List.mem_filterMap] at inside
      obtain ⟨result, among, kept⟩ := inside
      have split : ∀ part ∈ splitOn ',' (formatAddresses addresses), ',' ∉ part :=
        fun part => splitOn_whole
      obtain ⟨part, whole, parsed⟩ :=
        exists_forall₂_iff.mp ⟨_, ((List.forall₂_and_left _ _).mpr ⟨split, reads⟩).flip⟩ result among
      rw [show result = some other from kept] at parsed
      have from_ := parsed_members parsed
      exact ⟨fun comma => whole (from_.1 _ comma), fun name named comma =>
        whole ((from_.2 name named).2 _ comma).1⟩
    have pieces := (formatted_pieces (List.ne_nil_of_mem member) fun other inside =>
      comma_formatAddress (unlisted other inside).1 (unlisted other inside).2).mp reads
    have full := @eq_map_some _ read (by rw [listed]; exact pieces.length_eq)
    rw [full, listed, List.forall₂_map_right_iff, List.forall₂_same] at pieces
    exact (parse_formatted_iff (unlisted address member).1 (unlisted address member).2).mp
      (pieces address member)
  · intro survive
    by_cases empty : addresses = []
    · subst empty
      exact ⟨[none], .cons rfl .nil, rfl⟩
    refine ⟨addresses.map some, (formatted_pieces empty fun address member => ?_).mpr ?_, ?_⟩
    · have survives := survive address member
      exact comma_formatAddress survives.plain fun name named =>
        (survives.named name named).1.marks ',' (by simp)
    · rw [List.forall₂_map_right_iff, List.forall₂_same]
      intro address member
      have survives := survive address member
      exact (parse_formatted_iff survives.plain fun name named =>
        (survives.named name named).1.marks ',' (by simp)).mpr survives
    · simp [List.filterMap_map]

/-- A list survives its field exactly if each address does, and a field is read without a
panic exactly if no mark closes first. -/
theorem addresses_survive_iff
    (header : headers.getFirst ctx.toCaseMapping name = some value) :
    ((∃ answer, parseEmailAddresses ctx headers name = .ok answer) ↔
        ∀ part ∈ splitOn ',' value, ¬ClosesFirst (trim part)) ∧
      ∀ addresses, value = formatAddresses addresses →
        (parseEmailAddresses ctx headers name = .ok (some addresses) ↔
          ∀ address ∈ addresses, address.Survives) := by
  refine ⟨parseEmailAddresses_returns_iff header, ?_⟩
  rintro addresses rfl
  exact formatted_read_iff header

end Lists

def toField (value : Text) : HeaderMap := HeaderMap.insert postContext.toLowercase ∅ "to".toList value

theorem toField_first (value : Text) :
    (toField value).getFirst postContext.toCaseMapping "to".toList = some value := rfl

def carolAddress : EmailAddress := ⟨some "Carol".toList, "carol@example.com".toList⟩

def bobAddress : EmailAddress := ⟨some "Bob, the builder".toList, "bob@example.com".toList⟩

theorem carol_survives :
    parseEmailAddresses postContext (toField (formatAddresses [carolAddress])) "to".toList =
      .ok (some [carolAddress]) := by
  refine ((addresses_survive_iff (toField_first _)).2 _ rfl).mpr ?_
  intro address member
  rw [List.mem_singleton.mp member]
  refine ⟨by decide, by decide, ?_, fun none => by cases none⟩
  intro name named
  cases named
  exact ⟨⟨by decide, by decide, by decide, by decide⟩, by decide⟩

/-- A comma parts the name, and marks in the wrong order end the method. -/
theorem bob_lost :
    parseEmailAddresses postContext (toField (formatAddresses [bobAddress])) "to".toList ≠
        .ok (some [bobAddress]) ∧
      parseEmailAddresses postContext (toField "> <".toList) "to".toList = .error .panicked := by
  constructor
  · intro read
    have survives := (formatted_read_iff (toField_first _)).mp read bobAddress
      (List.mem_singleton.mpr rfl)
    exact (survives.named _ rfl).1.marks ',' (by simp) (by decide)
  · rfl

end Rusmes
