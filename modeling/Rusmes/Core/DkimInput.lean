import Rusmes.Core.DkimForm
import Rusmes.Imap.SequenceSets

/-!
The input the mailet checks a signature against is the one that was signed for fields of the form it
writes, where it finds the fields of the message that were signed.
-/

namespace Rusmes

open WireText Recognizer

/-! A form written by the mailet. -/

theorem joinWords_tag {key text : Text} (proper : TagKey key)
    (starts : ∀ first, text.head? = some first → isWhitespace first = false) :
    joinWords (key ++ '=' :: text) = key ++ '=' :: joinWords text := by
  have solid : ∀ character ∈ key ++ ['='], isWhitespace character = false := by
    rw [List.forall_mem_append]
    exact ⟨fun character member => (proper.2 character member).1, by decide⟩
  have parts : key ++ '=' :: text = (key ++ ['=']) ++ text := by simp
  rw [parts, joinWords_eq, joinWords_eq,
    squeeze_append ' ' (fun last ends => solid last (List.mem_of_getLast? ends)) starts,
    squeeze_solid ' ' (by simp) solid]
  simp

theorem tagText_cons (entry second : Text × Text) (form : List (Text × Text)) :
    tagText (entry :: second :: form) =
      entry.1 ++ '=' :: (entry.2 ++ ';' :: ' ' :: tagText (second :: form)) := by
  rw [tagText, tagText, List.map_cons, List.map_cons, joinWith_cons_cons]
  simp

theorem joinWords_tagText {form : List (Text × Text)}
    (proper : ∀ entry ∈ form, TagKey entry.1 ∧ trim entry.2 = entry.2) :
    joinWords (tagText form) = tagText (form.map fun entry => (entry.1, joinWords entry.2)) := by
  induction form with
  | nil => rfl
  | cons entry form ih =>
      rw [List.forall_mem_cons] at proper
      obtain ⟨⟨key, trimmed⟩, others⟩ := proper
      have ends := ends_of_trim trimmed
      cases form with
      | nil => exact joinWords_tag key ends.1
      | cons second form =>
          have later := ih others
          rw [List.map_cons] at later
          rw [tagText_cons, List.map_cons, List.map_cons, tagText_cons, ← later]
          generalize hidden : tagText (second :: form) = rest
          have equals : wordsBy isWhitespace rest ≠ [] := by
            refine @wordsBy_ne_nil _ _ _ '=' ?_ (by decide)
            rw [← hidden, tagText, List.map_cons, joinWith_flatMap]
            simp
          have cut : joinWords (entry.2 ++ ';' :: ' ' :: rest) =
              joinWords entry.2 ++ ';' :: ' ' :: joinWords rest := by
            have word : squeeze isWhitespace ' ' (';' :: ' ' :: rest) =
                ';' :: ' ' :: squeeze isWhitespace ' ' rest :=
              squeeze_word rfl (List.cons_ne_nil ';' []) (by decide) equals
            have after : ∀ next, (';' :: ' ' :: rest).head? = some next → isWhitespace next = false := by
              intro next head
              rw [← Option.some.inj head]
              rfl
            rw [joinWords_eq, squeeze_append ' ' ends.2 after, word, ← joinWords_eq, ← joinWords_eq]
          have starts : ∀ first, (entry.2 ++ ';' :: ' ' :: rest).head? = some first →
              isWhitespace first = false := by
            intro first head
            cases content : entry.2 with
            | nil =>
                rw [content] at head
                rw [← Option.some.inj head]
                rfl
            | cons start more =>
                rw [content] at head
                exact ends.1 first (by rw [content]; exact head)
          rw [joinWords_tag key starts, cut]

theorem param_facts {value : Octets} (unbroken : 10 ∉ value) {key text : Text}
    (found : (tagParams (fieldText value)).lookup key = some text) :
    trim text = text ∧ ';' ∉ text ∧ '\n' ∉ text := by
  rw [tagParams_fieldText unbroken, lookup_storeFields, AList.lookup_empty, Option.or_none] at found
  obtain ⟨entry, kept, rfl⟩ := List.mem_map.mp (List.mem_of_getLast? found)
  obtain ⟨tag, among, read⟩ := List.mem_filterMap.mp (List.mem_of_mem_filter kept)
  obtain ⟨parts, cut, rfl⟩ := Option.map_eq_some_iff.mp read
  have piece := piece_of_splitOn among
  have whole : 10 ∉ tag := fun inside => unbroken (piece.2 inside)
  have subset : ∀ character ∈ trim parts.2, character ∈ fieldText tag := by
    intro character member
    refine mem_trim ?_
    rw [splitOnce_eq_some cut]
    exact List.mem_append_right _ (List.mem_cons_of_mem _ (mem_trim member))
  exact ⟨trim_trim _,
    fun inside => @not_mem_fieldText _ ';' (by decide) whole piece.1 (subset _ inside),
    fun inside => @not_mem_fieldText _ '\n' (by decide) whole whole (subset _ inside)⟩

def signatureForm (version algorithm domain selector canonicalization names bodyHash : Text) :
    List (Text × Text) :=
  [("v".toList, version), ("a".toList, algorithm), ("d".toList, domain), ("s".toList, selector),
    ("c".toList, canonicalization), ("h".toList, names), ("bh".toList, bodyHash), ("b".toList, [])]

section Signature

variable {version algorithm domain selector canonicalization names bodyHash : Text}

theorem signatureForm_keys : ∀ entry ∈ signatureForm version algorithm domain selector
    canonicalization names bodyHash, TagKey entry.1 := by
  simp only [signatureForm, List.forall_mem_cons]
  decide

theorem signatureForm_distinct : ((signatureForm version algorithm domain selector
    canonicalization names bodyHash).map Prod.fst).Nodup := by
  simp only [signatureForm, List.map_cons, List.map_nil]
  decide

def DkimSignature.form (signature : DkimSignature) : List (Text × Text) :=
  signatureForm (decimal signature.version.toNat) signature.algorithm signature.domain
    signature.selector (signature.canonicalization.1 ++ '/' :: signature.canonicalization.2)
    (joinWith [':'] signature.signedHeaders) signature.bodyHash

theorem signatureParts_form (signature : DkimSignature) :
    joinWith "; ".toList (signatureParts signature) = tagText signature.form := rfl

end Signature

section Mailet

variable {letters : CaseMapping}

theorem requiredTag_ok {params : TagTable} {name error text : Text} :
    requiredTag params name error = .ok text ↔ params.lookup name = some text := by
  rw [requiredTag]
  cases params.lookup name <;> simp

def listedHeaders (letters : CaseMapping) (signed : Text) : List Text :=
  (splitOn ':' signed).map fun name => letters.toLowercase (trim name)

theorem parseDkimSignature_ok {header : Text} {signature : DkimSignature} :
    parseDkimSignature letters header = .ok signature ↔
      ∃ signed, (tagParams header).lookup "a".toList = some signature.algorithm ∧
        (tagParams header).lookup "d".toList = some signature.domain ∧
        (tagParams header).lookup "s".toList = some signature.selector ∧
        (tagParams header).lookup "h".toList = some signed ∧
        (tagParams header).lookup "bh".toList = some signature.bodyHash ∧
        (tagParams header).lookup "b".toList = some signature.signature ∧
        signature.version = (((tagParams header).lookup "v".toList).bind fun value =>
          (parseU32 value).toOption).getD 1 ∧
        signature.signedHeaders = listedHeaders letters signed ∧
        signature.canonicalization = parseCanonicalization ((tagParams header).lookup "c".toList) := by
  have parts : ∀ {α β : Type} {first : Except Text α} {rest : α → Except Text β} {result : β},
      first >>= rest = .ok result → ∃ value, first = .ok value ∧ rest value = .ok result := by
    intro α β first rest result both
    cases first with
    | error message => cases both
    | ok value => exact ⟨value, rfl, both⟩
  rw [parseDkimSignature]
  constructor
  · intro parsed
    obtain ⟨algorithm, a, parsed⟩ := parts parsed
    obtain ⟨domain, d, parsed⟩ := parts parsed
    obtain ⟨selector, s, parsed⟩ := parts parsed
    obtain ⟨signed, h, parsed⟩ := parts parsed
    obtain ⟨bodyHash, bh, parsed⟩ := parts parsed
    obtain ⟨checked, b, parsed⟩ := parts parsed
    rw [requiredTag_ok] at a d s h bh b
    cases parsed
    exact ⟨signed, a, d, s, h, bh, b, rfl, rfl, rfl⟩
  · rintro ⟨signed, a, d, s, h, bh, b, version, names, method⟩
    rw [← @requiredTag_ok _ _ "Missing algorithm (a=)".toList] at a
    rw [← @requiredTag_ok _ _ "Missing domain (d=)".toList] at d
    rw [← @requiredTag_ok _ _ "Missing selector (s=)".toList] at s
    rw [← @requiredTag_ok _ _ "Missing signed headers (h=)".toList] at h
    rw [← @requiredTag_ok _ _ "Missing body hash (bh=)".toList] at bh
    rw [← @requiredTag_ok _ _ "Missing signature (b=)".toList] at b
    rw [a, d, s, h, bh, b]
    cases signature
    simp only at version names method
    subst version names method
    rfl

theorem parseCanonicalization_parts {tag : Option Text} {method other : Text}
    (cut : parseCanonicalization tag = (method, other)) :
    '/' ∉ other ∧ (other = "simple".toList ∨ tag = some (method ++ '/' :: other)) ∧
      (method = "simple".toList ∨ ∃ whole, tag = some whole ∧ method ⊆ whole) := by
  cases tag with
  | none =>
      cases cut
      exact ⟨by decide, Or.inl rfl, Or.inl rfl⟩
  | some whole =>
      have joined := joinWith_splitOn '/' whole
      have pieces := @splitOn_whole '/' whole
      have nonempty := splitOn_ne_nil '/' whole
      rw [parseCanonicalization] at cut
      split at cut
      · rename_i header body parts
        cases cut
        rw [parts] at joined pieces
        have shape : whole = method ++ '/' :: other := by
          rw [← joined, joinWith_cons_cons]
          rfl
        refine ⟨pieces (by simp), Or.inr (by rw [shape]), Or.inr ⟨whole, rfl, ?_⟩⟩
        rw [shape]
        exact List.subset_append_left _ _
      · cases cut
        refine ⟨by decide, Or.inl rfl, Or.inr ⟨whole, rfl, fun character member => ?_⟩⟩
        rw [← joined]
        obtain ⟨first, others, shape⟩ := List.exists_cons_of_ne_nil nonempty
        rw [shape] at member ⊢
        exact mem_joinWith_of_mem List.mem_cons_self member

theorem listedHeaders_absent {signed : Text} {symbol : Char} (ascii : symbol.toNat < 128)
    (plain : symbol.isAlpha = false) (other : symbol ≠ ':') (absent : symbol ∉ signed) :
    symbol ∉ joinWith [':'] (listedHeaders letters signed) := by
  intro member
  rcases mem_joinWith member with colon | ⟨name, among, inside⟩
  · exact other (List.mem_singleton.mp colon)
  · obtain ⟨part, piece, rfl⟩ := List.mem_map.mp among
    have within := mem_trim (letters.lowercase_symbol _ symbol ascii plain inside)
    refine absent ?_
    rw [← joinWith_splitOn ':' signed]
    exact mem_joinWith_of_mem piece within

theorem trim_listedHeaders (signed : Text) :
    trim (joinWith [':'] (listedHeaders letters signed)) = joinWith [':'] (listedHeaders letters signed) := by
  have trimmed : ∀ name ∈ listedHeaders letters signed, trim name = name := by
    intro name among
    obtain ⟨part, -, rfl⟩ := List.mem_map.mp among
    rw [letters.lowercase_trim, trim_trim]
  generalize listedHeaders letters signed = names at trimmed
  induction names with
  | nil => rfl
  | cons name names ih =>
      rw [List.forall_mem_cons] at trimmed
      cases names with
      | nil => exact trimmed.1
      | cons second names =>
          rw [joinWith_cons_cons]
          exact @trim_joined _ _ ':' (by decide) trimmed.1 (ih trimmed.2)

theorem decimal_solid {value : Nat} : ∀ digit ∈ decimal value, isWhitespace digit = false :=
  fun _ member => digit_solid (isDigit_decimal member)

variable {value : Octets} {signature : DkimSignature}

theorem form_absent (unbroken : 10 ∉ value)
    (parsed : parseDkimSignature letters (fieldText value) = .ok signature) :
    ∀ entry ∈ signature.form, ';' ∉ entry.2 ∧ '\n' ∉ entry.2 := by
  obtain ⟨signed, a, d, s, h, bh, -, -, names, method⟩ := parseDkimSignature_ok.mp parsed
  have facts : ∀ {key text : Text}, (tagParams (fieldText value)).lookup key = some text →
      ';' ∉ text ∧ '\n' ∉ text := fun found => (param_facts unbroken found).2
  obtain ⟨-, other, first⟩ := parseCanonicalization_parts method.symm
  have canonical : ∀ symbol, symbol ∉ "simple".toList → symbol ≠ '/' →
      (∀ whole, (tagParams (fieldText value)).lookup "c".toList = some whole → symbol ∉ whole) →
      symbol ∉ signature.canonicalization.1 ++ '/' :: signature.canonicalization.2 := by
    intro symbol outside apart absent member
    rcases List.mem_append.mp member with early | late
    · rcases first with simple | ⟨whole, found, subset⟩
      · exact outside (simple ▸ early)
      · exact absent whole found (subset early)
    · rcases other with simple | found
      · exact outside (simple ▸ (List.mem_cons.mp late).resolve_left apart)
      · exact absent _ found (List.mem_append_right _ late)
  simp only [DkimSignature.form, signatureForm, List.forall_mem_cons, names]
  refine ⟨⟨not_mem_decimal (by decide) _, not_mem_decimal (by decide) _⟩, facts a, facts d, facts s,
    ⟨canonical _ (by decide) (by decide) fun _ found => (facts found).1,
      canonical _ (by decide) (by decide) fun _ found => (facts found).2⟩,
    ⟨listedHeaders_absent (by decide) (by decide) (by decide) (facts h).1,
      listedHeaders_absent (by decide) (by decide) (by decide) (facts h).2⟩, facts bh, by simp⟩

theorem form_trimmed (unbroken : 10 ∉ value)
    (parsed : parseDkimSignature letters (fieldText value) = .ok signature)
    (relaxed : signature.canonicalization.1 = "relaxed".toList) :
    ∀ entry ∈ signature.form, trim entry.2 = entry.2 := by
  obtain ⟨signed, a, d, s, h, bh, -, -, names, method⟩ := parseDkimSignature_ok.mp parsed
  have facts : ∀ {key text : Text}, (tagParams (fieldText value)).lookup key = some text →
      trim text = text := fun found => (param_facts unbroken found).1
  have canonical : trim (signature.canonicalization.1 ++ '/' :: signature.canonicalization.2) =
      signature.canonicalization.1 ++ '/' :: signature.canonicalization.2 := by
    obtain ⟨-, simple | found, -⟩ := parseCanonicalization_parts method.symm
    · rw [simple, relaxed]
      decide
    · exact facts found
  simp only [DkimSignature.form, signatureForm, List.forall_mem_cons, names]
  exact ⟨trim_solid decimal_solid, facts a, facts d, facts s, canonical, trim_listedHeaders signed,
    facts bh, by simp [trim, trimStart, trimEnd]⟩

theorem signedNames_listed {tag : Octets} {found : Text}
    (search : ((value.splitOn 59).find? fun tag => 61 ∈ tag ∧
      tagName tag = encodeUtf8 "h".toList) = some tag)
    (opens : OpensWith tag "h".toList (encodeUtf8 found)) :
    signedNames letters value = listedHeaders letters (trim found) := by
  have code : encodeUtf8 "h".toList = [104] := by decide
  have colon : UInt8.ofNat ':'.toNat = 58 := by decide
  have pieces := @encode_splitOn ':' (by decide) found
  have parts := congrArg (List.map letters.toLowercase) (@splitOn_trim ':' (by decide) found)
  rw [List.map_map, List.map_map] at parts
  rw [code] at search
  rw [colon] at pieces
  rw [signedNames, search]
  dsimp only
  rw [(opens.name (by decide)).2.2, pieces, List.map_map, listedHeaders]
  refine Eq.trans ?_ parts.symm
  refine List.map_congr_left fun name _ => ?_
  exact congrArg (fun text => letters.toLowercase (trim text)) (decodeLossy_encodeUtf8 name)

/-- Without the value of its signature the field is, relaxed, what the mailet writes: these tags in
this order, the names in lower case, and relaxed canonicalization of the header with one of the body. -/
def MailetForm (letters : CaseMapping) (value : Octets) : Prop :=
  ∃ (version : UInt32) (algorithm domain selector body bodyHash : Text) (form : List (Text × Text)),
    form = signatureForm (decimal version.toNat) algorithm domain selector ("relaxed/".toList ++ body)
      (joinWords (joinWith [':'] (signedNames letters value))) bodyHash ∧ '/' ∉ body ∧
    (∀ entry ∈ form, ';' ∉ entry.2 ∧ joinWords entry.2 = entry.2) ∧
    relaxValue (removeSignature value) = encodeUtf8 (tagText form)

theorem joinWords_joinWords (text : Text) : joinWords (joinWords text) = joinWords text := by
  rw [joinWords, splitWhitespace_joinWords, ← joinWords]

theorem joinWords_decimal (number : Nat) : joinWords (decimal number) = decimal number := by
  rw [joinWords_eq]
  exact squeeze_solid ' ' Nat.toDigits_ne_nil decimal_solid

/-- The form of what the mailet writes for a signature, if nothing stands at the ends of its values. -/
theorem written_form (trimmed : ∀ entry ∈ signature.form, trim entry.2 = entry.2) :
    joinWords (joinWith "; ".toList (signatureParts signature)) =
      tagText (signature.form.map fun entry => (entry.1, joinWords entry.2)) := by
  rw [signatureParts_form]
  exact joinWords_tagText fun entry member => ⟨signatureForm_keys entry member, trimmed entry member⟩

theorem squeezed_form : (signature.form.map fun entry => (entry.1, joinWords entry.2)) =
    signatureForm (decimal signature.version.toNat) (joinWords signature.algorithm)
      (joinWords signature.domain) (joinWords signature.selector)
      (joinWords (signature.canonicalization.1 ++ '/' :: signature.canonicalization.2))
      (joinWords (joinWith [':'] signature.signedHeaders)) (joinWords signature.bodyHash) := by
  simp only [DkimSignature.form, signatureForm, List.map_cons, List.map_nil, joinWords_decimal]
  rfl

theorem relaxed_written {other : Text} (absent : '/' ∉ other) :
    ∃ body, joinWords ("relaxed".toList ++ '/' :: other) = "relaxed/".toList ++ body ∧ '/' ∉ body := by
  obtain ⟨more, rest, rfl, -, words⟩ :=
    @splitWhitespace_opening "relaxed/".toList (by decide) (by decide) other
  rw [List.mem_append, not_or] at absent
  refine ⟨more ++ (splitWhitespace rest).flatMap ([' '] ++ ·), ?_, ?_⟩
  · rw [← List.append_assoc, ← joinWith_flatMap, ← words]
    rfl
  · rw [List.mem_append, List.mem_flatMap]
    rintro (early | ⟨word, among, inside⟩)
    · exact absent.1 early
    · have later := (List.mem_cons.mp inside).resolve_left (by decide)
      exact absent.2 (subset_of_mem_wordsBy among later)

section Both

variable (unbroken : 10 ∉ value)

include unbroken

theorem mailetForm_of_written
    (parsed : parseDkimSignature letters (fieldText value) = .ok signature)
    (relaxed : signature.canonicalization.1 = "relaxed".toList)
    (same : relaxValue (removeSignature value) =
      encodeUtf8 (joinWords (joinWith "; ".toList (signatureParts signature)))) :
    MailetForm letters value ∧ signature.signedHeaders = signedNames letters value := by
  rw [written_form (form_trimmed unbroken parsed relaxed)] at same
  have plain : ∀ entry ∈ signature.form.map fun entry => (entry.1, joinWords entry.2),
      ';' ∉ entry.2 ∧ joinWords entry.2 = entry.2 := by
    intro entry member
    obtain ⟨written, among, rfl⟩ := List.mem_map.mp member
    refine ⟨fun inside => ?_, joinWords_joinWords _⟩
    exact (form_absent unbroken parsed written among).1
      ((mem_joinWords inside).resolve_left (by decide)).2
  obtain ⟨signed, -, -, -, h, -, -, -, names, method⟩ := parseDkimSignature_ok.mp parsed
  obtain ⟨body, canonical, absent⟩ := relaxed_written (parseCanonicalization_parts method.symm).1
  rw [squeezed_form, relaxed, canonical] at same plain
  have listed : signature.signedHeaders = signedNames letters value := by
    have reads := tags_of_form (by simp [signatureForm])
      (fun entry member => ⟨signatureForm_keys entry member,
        (plain entry member).2 ▸ joinWords_plain entry.2, (plain entry member).1⟩) same
    obtain ⟨tag, rest, search, opens, found, content⟩ := @tag_found _ _ reads signatureForm_keys
      signatureForm_distinct unbroken ("h".toList, joinWords (joinWith [':'] signature.signedHeaders))
      (by simp [signatureForm])
    have other : "h".toList ≠ ['b'] := by decide
    obtain ⟨text, rfl, plainText, -⟩ := content other
    rw [h, fieldText_encode plainText, Option.some.injEq] at found
    rw [names, found, signedNames_listed search opens]
  exact ⟨⟨_, _, _, _, body, _, _, by rw [← listed], absent, plain, same⟩, listed⟩

theorem parsed_of_mailetForm (conforms : MailetForm letters value) :
    ∃ signature, parseDkimSignature letters (fieldText value) = .ok signature ∧
      signature.canonicalization.1 = "relaxed".toList ∧
      signature.signedHeaders = signedNames letters value ∧
      relaxValue (removeSignature value) =
        encodeUtf8 (joinWords (joinWith "; ".toList (signatureParts signature))) := by
  obtain ⟨version, algorithm, domain, selector, body, bodyHash, form, shape, absent, plain, same⟩ := conforms
  have keys : ∀ entry ∈ form, TagKey entry.1 := shape ▸ signatureForm_keys
  have distinct : (form.map Prod.fst).Nodup := shape ▸ signatureForm_distinct
  have reads := tags_of_form (by simp [shape, signatureForm])
    (fun entry member => ⟨keys entry member,
      (plain entry member).2 ▸ joinWords_plain entry.2, (plain entry member).1⟩) same
  have held : ∀ entry ∈ form, entry.1 ≠ ['b'] → ∃ tag found,
      ((value.splitOn 59).find? fun tag => 61 ∈ tag ∧ tagName tag = encodeUtf8 entry.1) = some tag ∧
        OpensWith tag entry.1 (encodeUtf8 found) ∧
        (tagParams (fieldText value)).lookup entry.1 = some (trim found) ∧
        joinWords (trim found) = entry.2 := by
    intro entry member other
    obtain ⟨tag, rest, search, opens, found, content⟩ := tag_found reads keys distinct unbroken member
    obtain ⟨text, rfl, plainText, words⟩ := content other
    rw [fieldText_encode plainText] at found
    refine ⟨tag, text, search, opens, found, ?_⟩
    rw [joinWords, splitWhitespace_trim, words, ← joinWords, (plain entry member).2]
  subst shape
  simp only [signatureForm, List.forall_mem_cons] at held
  obtain ⟨vTag, aTag, dTag, sTag, cTag, hTag, bhTag, -⟩ := held
  obtain ⟨-, versionText, -, -, v, versionWords⟩ := vTag (by decide)
  obtain ⟨-, algorithmText, -, -, a, rfl⟩ := aTag (by decide)
  obtain ⟨-, domainText, -, -, d, rfl⟩ := dTag (by decide)
  obtain ⟨-, selectorText, -, -, s, rfl⟩ := sTag (by decide)
  obtain ⟨-, canonicalText, -, -, c, canonicalWords⟩ := cTag (by decide)
  obtain ⟨tag, signed, search, opens, h, -⟩ := hTag (by decide)
  obtain ⟨-, hashText, -, -, bh, rfl⟩ := bhTag (by decide)
  obtain ⟨-, signature, -, -, b, -⟩ := @tag_found _ _ reads keys distinct unbroken
    ("b".toList, []) (by simp [signatureForm])
  have number : trim versionText = decimal version.toNat := by
    have single : splitWhitespace (trim versionText) = [decimal version.toNat] := by
      rw [← splitWhitespace_joinWords, versionWords]
      exact wordsBy_solid Nat.toDigits_ne_nil decimal_solid
    rw [← trim_of_word single, trim_trim]
  obtain ⟨other, method, slashless⟩ : ∃ other,
      trim canonicalText = "relaxed".toList ++ '/' :: other ∧ '/' ∉ other := by
    have words : splitWhitespace (trim canonicalText) = splitWhitespace ("relaxed/".toList ++ body) := by
      rw [← splitWhitespace_joinWords, canonicalWords]
    obtain ⟨blanks, other, whole, white, rest⟩ := splitWhitespace_start (by decide) (by decide) words
    cases blanks with
    | nil =>
        refine ⟨other, whole, fun inside => absent ?_⟩
        obtain ⟨word, among, within⟩ := exists_word_of_mem inside (by decide : isWhitespace '/' = false)
        rw [show wordsBy isWhitespace other = wordsBy isWhitespace body from rest] at among
        exact subset_of_mem_wordsBy among within
    | cons blank blanks =>
        have solid := trim_head whole
        rw [white blank List.mem_cons_self] at solid
        cases solid
  have read : parseCanonicalization (some (trim canonicalText)) = ("relaxed".toList, other) := by
    rw [method, parseCanonicalization, splitOn_append (by decide), splitOn_unbroken slashless]
  have parsed : parseDkimSignature letters (fieldText value) = .ok
      { version, algorithm := trim algorithmText, domain := trim domainText
        selector := trim selectorText, signedHeaders := listedHeaders letters (trim signed)
        bodyHash := trim hashText, signature := trim (fieldText signature)
        canonicalization := ("relaxed".toList, other) } := by
    refine parseDkimSignature_ok.mpr ⟨trim signed, a, d, s, h, bh, b, ?_, rfl, ?_⟩
    · rw [v, Option.bind_some, number, parseU32_decimal version.toNat_lt]
      exact UInt32.ofNat_toNat.symm
    · rw [c, read]
  have listed : listedHeaders letters (trim signed) = signedNames letters value :=
    (signedNames_listed search opens).symm
  refine ⟨_, parsed, rfl, listed, ?_⟩
  rw [written_form (form_trimmed unbroken parsed rfl), squeezed_form, same]
  simp only [listed, ← method, canonicalWords]

end Both

/-! The whole input. -/

def EndedLine (line : Octets) : Prop := ∃ content, line = content ++ [10] ∧ 10 ∉ content

theorem bottomField_member {data : Octets} {name : Text} {field : RawField}
    (found : bottomField letters data name = some field) : field ∈ messageFields data :=
  List.mem_reverse.mp (List.mem_of_find?_eq_some found)

theorem signedFields_member {data : Octets} {before names : List Text} {field : RawField}
    (member : field ∈ signedFields letters (messageFields data).reverse before names) :
    field ∈ messageFields data := by
  induction names generalizing before with
  | nil => cases member
  | cons name names ih =>
      rw [signedFields] at member
      rcases List.mem_append.mp member with here | later
      · rw [Option.mem_toList] at here
        exact List.mem_reverse.mp (List.mem_of_mem_filter (List.mem_of_getElem? here))
      · exact ih later

theorem relaxField_ended {data : Octets} {field : RawField} (member : field ∈ messageFields data) :
    EndedLine (relaxField letters field) := by
  have whole := messageFields_unbroken field member
  exact fieldLine_ended (newline_not_mem_fieldKey letters whole.1) (newline_not_mem_relaxValue whole.2)

theorem mailetLine_ended {data : Octets} {field : RawField} (member : field ∈ messageFields data) :
    EndedLine (mailetLine letters field) :=
  fieldLine_ended (newline_not_mem_fieldKey letters (messageFields_unbroken field member).1)
    (newline_not_mem_encodeUtf8 (newline_not_mem_joinWords _))

theorem newline_not_mem_removeSignature (unbroken : 10 ∉ value) : 10 ∉ removeSignature value := by
  intro member
  rcases mem_intercalate member with space | ⟨tag, among, inside⟩
  · cases space
  · obtain ⟨piece, cut, rfl⟩ := List.mem_map.mp among
    refine unbroken ((piece_of_splitOn cut).2 ?_)
    rw [withoutSignature] at inside
    split at inside
    · rcases List.mem_append.mp inside with early | late
      · exact (List.takeWhile_prefix _).subset early
      · cases List.mem_singleton.mp late
    · exact inside

theorem simpleLines (data : Octets) {method : Text} (other : method ≠ "relaxed".toList)
    {names : List Text} (plain : ∀ name ∈ names, '\n' ∉ name) :
    ∃ lines : List Octets, (names.flatMap fun name =>
      match (parseHeaders letters
          (getMessageRawData (MimeMessage.parseFromBytes letters data))).1.lookup name with
      | some value => canonicalizeHeader letters method name value
      | none => []) = lines.flatten ∧ ∀ line ∈ lines, EndedLine line := by
  induction names with
  | nil => exact ⟨[], rfl, by simp⟩
  | cons name names ih =>
      rw [List.forall_mem_cons] at plain
      obtain ⟨lines, whole, ended⟩ := ih plain.2
      rw [List.flatMap_cons, whole, lookup_rawData, lookup_parseHeaders]
      cases found : bottomField letters data name with
      | none => exact ⟨lines, rfl, ended⟩
      | some field =>
          have unbroken := (messageFields_unbroken field (bottomField_member found)).2
          have text := @not_mem_fieldText _ '\n' (by decide) unbroken unbroken
          refine ⟨headerLine name (' ' :: fieldText field.value) :: lines, ?_, ?_⟩
          · rw [Option.map_some, Option.map_some]
            dsimp only
            rw [canonicalizeHeader, if_neg other, List.flatten_cons]
          · rw [List.forall_mem_cons]
            refine ⟨⟨encodeUtf8 (name ++ ": ".toList ++ ' ' :: fieldText field.value) ++ [13], ?_, ?_⟩, ended⟩
            · simp [headerLine]
            · rw [List.mem_append, not_or]
              refine ⟨newline_not_mem_encodeUtf8 ?_, by decide⟩
              simp [plain.1, text]

theorem hashInput_lines (data value : Octets) :
    hashInput letters data value =
      ((signedFields letters (messageFields data).reverse [] (signedNames letters value)).map
          (relaxField letters)).flatten ++
        (encodeUtf8 "dkim-signature:".toList ++ relaxValue (removeSignature value)) := rfl

theorem canonicalizeHeaders_relaxed (data : Octets) :
    canonicalizeHeaders letters (getMessageRawData (MimeMessage.parseFromBytes letters data))
        signature "relaxed".toList =
      ((signature.signedHeaders.filterMap (bottomField letters data)).map (mailetLine letters)).flatten ++
        (encodeUtf8 "dkim-signature:".toList ++
          encodeUtf8 (joinWords (joinWith "; ".toList (signatureParts signature)))) := by
  rw [← mailetLines_eq, ← encodeUtf8_append]
  rfl

theorem newline_not_mem_parts (unbroken : 10 ∉ value)
    (parsed : parseDkimSignature letters (fieldText value) = .ok signature) :
    '\n' ∉ joinWith "; ".toList (signatureParts signature) ∧
      ∀ name ∈ signature.signedHeaders, '\n' ∉ name := by
  have absent := form_absent unbroken parsed
  constructor
  · rw [signatureParts_form]
    intro member
    rcases mem_joinWith member with between | ⟨part, among, inside⟩
    · exact absurd between (by decide)
    · obtain ⟨entry, listed, rfl⟩ := List.mem_map.mp among
      rcases List.mem_append.mp inside with early | late
      · exact absurd ((signatureForm_keys entry listed).2 _ early).1 (by decide)
      · exact (absent entry listed).2 ((List.mem_cons.mp late).resolve_left (by decide))
  · simp only [DkimSignature.form, signatureForm, List.forall_mem_cons] at absent
    exact fun name member inside =>
      absent.2.2.2.2.2.1.2 (mem_joinWith_of_mem member inside)

/-- The input is the one that was signed exactly for a field of the mailet's form that lists fields the
mailet finds. -/
theorem signatureInput_hashed (letters : CaseMapping) (data : Octets) {field : RawField}
    (member : field ∈ messageFields data) :
    signatureInput letters data (fieldText field.value) = .ok (hashInput letters data field.value) ↔
      MailetForm letters field.value ∧
        FieldsAgree letters data (signedNames letters field.value) := by
  have unbroken := (messageFields_unbroken field member).2
  have hashed : ∀ line ∈ (signedFields letters (messageFields data).reverse []
      (signedNames letters field.value)).map (relaxField letters), EndedLine line :=
    List.forall_mem_map.mpr fun _ signed => relaxField_ended (signedFields_member signed)
  have written : ∀ names : List Text, ∀ line ∈ (names.filterMap (bottomField letters data)).map
      (mailetLine letters), EndedLine line := by
    intro names
    refine List.forall_mem_map.mpr fun bottom found => ?_
    obtain ⟨name, -, lowest⟩ := List.mem_filterMap.mp found
    exact mailetLine_ended (bottomField_member lowest)
  have last : 10 ∉ encodeUtf8 "dkim-signature:".toList ++ relaxValue (removeSignature field.value) := by
    rw [List.mem_append, not_or]
    exact ⟨by decide, newline_not_mem_relaxValue (newline_not_mem_removeSignature unbroken)⟩
  constructor
  · intro produced
    obtain ⟨signature, parsed, output⟩ : ∃ signature,
        parseDkimSignature letters (fieldText field.value) = .ok signature ∧
          canonicalizeHeaders letters (getMessageRawData (MimeMessage.parseFromBytes letters data))
            signature signature.canonicalization.1 = hashInput letters data field.value := by
      rw [signatureInput] at produced
      cases parsed : parseDkimSignature letters (fieldText field.value) with
      | error message =>
          rw [parsed] at produced
          cases produced
      | ok signature =>
          rw [parsed] at produced
          exact ⟨signature, rfl, Except.ok.inj produced⟩
    have plain := newline_not_mem_parts unbroken parsed
    by_cases relaxed : signature.canonicalization.1 = "relaxed".toList
    · rw [relaxed, canonicalizeHeaders_relaxed, hashInput_lines] at output
      have own : 10 ∉ encodeUtf8 "dkim-signature:".toList ++
          encodeUtf8 (joinWords (joinWith "; ".toList (signatureParts signature))) := by
        rw [List.mem_append, not_or]
        exact ⟨by decide, newline_not_mem_encodeUtf8 (newline_not_mem_joinWords _)⟩
      obtain ⟨lines, ends⟩ := ended_injective (written _) hashed own last output
      obtain ⟨conforms, listed⟩ := mailetForm_of_written unbroken parsed relaxed
        (List.append_cancel_left ends).symm
      rw [listed] at lines
      exact ⟨conforms, (fieldsAgree_iff data _).mp ((lines_eq_iff data [] _).mp lines)⟩
    · obtain ⟨lines, whole, ended⟩ := @simpleLines letters data _ relaxed _ plain.2
      rw [canonicalizeHeaders, if_neg relaxed, hashInput_lines] at output
      have own : 10 ∉ encodeUtf8 ("DKIM-Signature: ".toList ++
          joinWith "; ".toList (signatureParts signature)) := by
        refine newline_not_mem_encodeUtf8 ?_
        rw [List.mem_append, not_or]
        exact ⟨by decide, plain.1⟩
      have ends := (ended_injective ended hashed own last
        ((congrArg (· ++ _) whole).symm.trans output)).2
      obtain ⟨upper, large⟩ : ∃ rest, encodeUtf8 "DKIM-Signature: ".toList = 68 :: rest := ⟨_, rfl⟩
      obtain ⟨lower, small⟩ : ∃ rest, encodeUtf8 "dkim-signature:".toList = 100 :: rest := ⟨_, rfl⟩
      rw [encodeUtf8_append, large, small, List.cons_append, List.cons_append, List.cons.injEq] at ends
      exact absurd ends.1 (by decide)
  · rintro ⟨conforms, agree⟩
    obtain ⟨signature, parsed, relaxed, listed, same⟩ := parsed_of_mailetForm unbroken conforms
    have lines := (lines_eq_iff data [] (signedNames letters field.value)).mpr
      ((fieldsAgree_iff data _).mpr agree)
    rw [signatureInput, parsed]
    refine congrArg Except.ok ?_
    rw [relaxed, canonicalizeHeaders_relaxed, hashInput_lines, listed, lines, same]

end Mailet

def signedMessage : Octets :=
  encodeUtf8 ("From: a@ex\r\nTo:  b@ex\r\nDKIM-Signature: v=1; a=rsa; d=ex; s=k; c=relaxed/relaxed;\r\n".toList ++
    " h=to:from; bh=AA; b=BB\r\n CC\r\n\r\nx\r\n".toList)

theorem signedMessage_hashed :
    ∃ field ∈ messageFields signedMessage, MailetForm asciiCase field.value ∧
      FieldsAgree asciiCase signedMessage (signedNames asciiCase field.value) := by
  have member := List.get_mem (messageFields signedMessage) ⟨2, by decide +kernel⟩
  refine ⟨_, member, (signatureInput_hashed asciiCase signedMessage member).mp ?_⟩
  decide +kernel

/-- The usual order of the tags, and a name listed once more than there are fields. -/
def usualMessage : Octets :=
  encodeUtf8 ("From: a@ex\r\nDKIM-Signature: v=1; a=rsa; c=relaxed/relaxed; d=ex; s=k;\r\n".toList ++
    " h=from:from; bh=AA; b=BB\r\n\r\nx\r\n".toList)

theorem usualMessage_other :
    ¬∀ field ∈ messageFields usualMessage, fieldKey asciiCase field.name = "dkim-signature".toList →
      signatureInput asciiCase usualMessage (fieldText field.value) =
        .ok (hashInput asciiCase usualMessage field.value) := by
  decide +kernel

end Rusmes
