import Rusmes.Library.Splitting
import Rusmes.Library.Words
import Rusmes.Proto.Repeated

/-!
Content types: the parser of `mime.rs` and the header field with its parameters in quotes.
-/

namespace Rusmes

open WireText

structure ContentType where
  mainType : Text
  subType : Text
  parameters : Table Text Text

namespace ContentType

def unquote (val : Text) : Text :=
  if val.head? = some '"' ∧ val.getLast? = some '"' ∧ octetLength val ≥ 2 then val.tail.dropLast
  else val

def storeParameter (letters : CaseMapping) (parameters : Table Text Text) (param : Text) :
    Table Text Text :=
  let param := trim param
  if param = [] then parameters
  else
    match splitOnce '=' param with
    | some (key, val) =>
        AList.insert (letters.toLowercase (trim key)) (unquote (trim val)) parameters
    | none => parameters

/-- The error is the text of `MailError::Parse`. -/
def parse (letters : CaseMapping) (value : Text) : Except Text ContentType :=
  let value := trim value
  let (typePart, paramsPart) := (splitOnce ';' value).getD (value, [])
  match splitOnce '/' typePart with
  | none => .error ("Invalid Content-Type format: ".toList ++ value)
  | some (main, sub) =>
      .ok ⟨letters.toLowercase (trim main), letters.toLowercase (trim sub),
        (splitOn ';' paramsPart).foldl (storeParameter letters) ∅⟩

end ContentType

def mimeCharacter (character : Char) : Bool :=
  33 ≤ character.toNat && character.toNat ≤ 126 && !('A' ≤ character && character ≤ 'Z') &&
    character ∉ ['(', ')', '<', '>', '@', ',', ';', ':', '\\', '"', '/', '[', ']', '?', '=']

structure MimeToken where
  text : Text
  nonempty : text ≠ []
  plain : ∀ character ∈ text, mimeCharacter character = true

structure MimeParameter where
  name : MimeToken
  value : Text
  printable : ∀ character ∈ value, 32 ≤ character.toNat ∧ character.toNat ≤ 126
  unquoted : '"' ∉ value
  unescaped : '\\' ∉ value

/-- A content type with the name of no parameter given twice. -/
structure MimeType where
  mainType : MimeToken
  subType : MimeToken
  parameters : List MimeParameter
  distinct : (parameters.map fun parameter => parameter.name.text).Nodup

def MimeParameter.field (parameter : MimeParameter) : Text :=
  parameter.name.text ++ '=' :: '"' :: (parameter.value ++ ['"'])

def MimeType.header (type : MimeType) : Text :=
  joinWith "; ".toList ((type.mainType.text ++ '/' :: type.subType.text) ::
    type.parameters.map MimeParameter.field)

/-- The parameters with their values, and no others. -/
def MimeType.Survives (letters : CaseMapping) (type : MimeType) : Prop :=
  ∃ parsed, ContentType.parse letters type.header = .ok parsed ∧
    parsed.mainType = type.mainType.text ∧ parsed.subType = type.subType.text ∧
    ∀ name value, parsed.parameters.lookup name = some value ↔
      ∃ parameter ∈ type.parameters, parameter.name.text = name ∧ parameter.value = value

theorem mimeCharacter_code : ∀ code < 128, mimeCharacter (Char.ofNat code) = true →
    isWhitespace (Char.ofNat code) = false ∧ (Char.ofNat code).toLower = Char.ofNat code := by
  decide +kernel

theorem mimeCharacter_facts {character : Char} (plain : mimeCharacter character = true) :
    character.toNat < 128 ∧ isWhitespace character = false ∧ character.toLower = character := by
  have ascii : character.toNat < 128 := by
    simp only [mimeCharacter, Bool.and_eq_true, decide_eq_true_eq] at plain
    omega
  have facts := mimeCharacter_code character.toNat ascii
  rw [Char.ofNat_toNat] at facts
  exact ⟨ascii, facts plain⟩

theorem not_mem_token (token : MimeToken) {character : Char}
    (special : mimeCharacter character = false) : character ∉ token.text := by
  intro member
  rw [token.plain character member] at special
  cases special

theorem trim_token (token : MimeToken) : trim token.text = token.text :=
  trim_solid fun character member => (mimeCharacter_facts (token.plain character member)).2.1

theorem toLowercase_token (letters : CaseMapping) (token : MimeToken) :
    letters.toLowercase token.text = token.text := by
  rw [letters.lowercase_ascii _ fun character member =>
    (mimeCharacter_facts (token.plain character member)).1]
  calc token.text.map Char.toLower
      = token.text.map id := List.map_congr_left fun character member =>
        (mimeCharacter_facts (token.plain character member)).2.2
    _ = token.text := List.map_id _

namespace ContentType

variable (letters : CaseMapping)

theorem unquote_quoted (value : Text) : unquote ('"' :: (value ++ ['"'])) = value := by
  have long : octetLength ('"' :: (value ++ ['"'])) ≥ 2 := by
    have shorter := length_le_octetLength ('"' :: (value ++ ['"']))
    rw [List.length_cons, List.length_append, List.length_singleton] at shorter
    omega
  rw [unquote, if_pos ⟨rfl, by rw [← List.cons_append, List.getLast?_concat], long⟩]
  exact List.dropLast_concat

theorem mem_unquote {val : Text} {character : Char} (member : character ∈ unquote val) :
    character ∈ val := by
  rw [unquote] at member
  split at member
  · exact List.mem_of_mem_tail (List.mem_of_mem_dropLast member)
  · exact member

theorem storeParameter_field (parameters : Table Text Text) (parameter : MimeParameter) :
    storeParameter letters parameters (' ' :: parameter.field) =
      AList.insert parameter.name.text parameter.value parameters := by
  have quoted : trim ('"' :: (parameter.value ++ ['"'])) = '"' :: (parameter.value ++ ['"']) :=
    trim_enclosed rfl rfl parameter.value
  have trimmed : trim (' ' :: parameter.field) = parameter.field := by
    obtain ⟨first, rest, name⟩ := List.exists_cons_of_ne_nil parameter.name.nonempty
    have solid := (mimeCharacter_facts (parameter.name.plain first (by simp [name]))).2.1
    have enclosed := @trim_enclosed first '"' solid rfl (rest ++ '=' :: '"' :: parameter.value)
    rw [trim_cons_blank rfl, MimeParameter.field, name]
    simpa using enclosed
  have found : splitOnce '=' parameter.field =
      some (parameter.name.text, '"' :: (parameter.value ++ ['"'])) :=
    splitOnce_append (not_mem_token parameter.name rfl) _
  have full : parameter.field ≠ [] := by simp [MimeParameter.field]
  simp only [storeParameter, trimmed, full, if_false, found, trim_token, toLowercase_token, quoted,
    unquote_quoted]

theorem foldl_storeParameter (parameters : List MimeParameter) (table : Table Text Text) :
    (parameters.map fun parameter => ' ' :: parameter.field).foldl (storeParameter letters) table =
      storeFields table (parameters.map fun parameter => (parameter.name.text, parameter.value)) := by
  induction parameters generalizing table with
  | nil => rfl
  | cons parameter parameters ih =>
      rw [List.map_cons, List.foldl_cons, storeParameter_field, ih]
      rfl

theorem storeParameter_whole {table : Table Text Text} {param : Text} (whole : ';' ∉ param)
    (stored : table.Every fun _ value => ';' ∉ value) :
    (storeParameter letters table param).Every fun _ value => ';' ∉ value := by
  simp only [storeParameter]
  split
  · exact stored
  · split
    · rename_i key val found
      apply stored.insert
      intro member
      have inside : ';' ∈ val := mem_trim (mem_unquote member)
      have given : ';' ∈ trim param := by simp [splitOnce_eq_some found, inside]
      exact whole (mem_trim given)
    · exact stored

theorem foldl_storeParameter_whole {params : List Text} (whole : ∀ param ∈ params, ';' ∉ param)
    {table : Table Text Text} (stored : table.Every fun _ value => ';' ∉ value) :
    (params.foldl (storeParameter letters) table).Every fun _ value => ';' ∉ value := by
  induction params generalizing table with
  | nil => exact stored
  | cons param params ih =>
      exact ih (fun other member => whole other (List.mem_cons_of_mem _ member))
        (storeParameter_whole letters (whole param List.mem_cons_self) stored)

theorem header_ends (type : MimeType) : ∃ first middle last,
    type.header = first :: (middle ++ [last]) ∧ isWhitespace first = false ∧
      isWhitespace last = false := by
  have solid : ∀ token : MimeToken, ∀ character ∈ token.text, isWhitespace character = false :=
    fun token character member => (mimeCharacter_facts (token.plain character member)).2.1
  obtain ⟨first, main, starts⟩ := List.exists_cons_of_ne_nil type.mainType.nonempty
  have opening : isWhitespace first = false := solid type.mainType first (by simp [starts])
  rw [MimeType.header, joinWith_flatMap, starts]
  rcases List.eq_nil_or_concat' type.parameters with none | ⟨others, parameter, all⟩
  · obtain ⟨sub, last, ends⟩ :=
      (List.eq_nil_or_concat' type.subType.text).resolve_left type.subType.nonempty
    refine ⟨first, main ++ '/' :: sub, last, ?_, opening, solid type.subType last (by simp [ends])⟩
    simp [none, ends]
  · refine ⟨first, main ++ '/' :: type.subType.text ++
      (others.map MimeParameter.field).flatMap ("; ".toList ++ ·) ++
        ("; ".toList ++ parameter.name.text ++ '=' :: '"' :: parameter.value), '"', ?_, opening, rfl⟩
    simp [all, MimeParameter.field]

theorem parse_header (type : MimeType) :
    parse letters type.header = .ok ⟨type.mainType.text, type.subType.text,
      (splitOn ';' (joinWith [';'] (type.parameters.map fun parameter =>
        ' ' :: parameter.field))).foldl (storeParameter letters) ∅⟩ := by
  obtain ⟨first, middle, last, shape, opening, closing⟩ := header_ends type
  have whole : trim type.header = type.header := by
    rw [shape, trim_enclosed opening closing]
  have free : ';' ∉ type.mainType.text ++ '/' :: type.subType.text := by
    simp [not_mem_token type.mainType (rfl : mimeCharacter ';' = false),
      not_mem_token type.subType (rfl : mimeCharacter ';' = false)]
  have split : (splitOnce ';' type.header).getD (type.header, []) =
      (type.mainType.text ++ '/' :: type.subType.text,
        joinWith [';'] (type.parameters.map fun parameter => ' ' :: parameter.field)) := by
    cases all : type.parameters with
    | nil =>
        have bare : type.header = type.mainType.text ++ '/' :: type.subType.text := by
          simp [MimeType.header, all, joinWith]
        rw [bare, splitOnce, if_neg free]
        rfl
    | cons parameter others =>
        have parts : type.header = (type.mainType.text ++ '/' :: type.subType.text) ++
            ';' :: joinWith [';'] ((' ' :: parameter.field) ::
              others.map fun parameter => ' ' :: parameter.field) := by
          rw [MimeType.header, all, joinWith_flatMap, joinWith_flatMap]
          simp [List.flatMap_map]
        rw [parts, splitOnce_append free]
        rfl
  have cut : splitOnce '/' (type.mainType.text ++ '/' :: type.subType.text) =
      some (type.mainType.text, type.subType.text) :=
    splitOnce_append (not_mem_token type.mainType rfl) _
  simp only [parse, whole, split, cut, trim_token, toLowercase_token]

theorem foldl_pieces {parameters : List MimeParameter}
    (whole : ∀ parameter ∈ parameters, ';' ∉ parameter.value) :
    (splitOn ';' (joinWith [';'] (parameters.map fun parameter => ' ' :: parameter.field))).foldl
        (storeParameter letters) ∅ =
      storeFields ∅ (parameters.map fun parameter => (parameter.name.text, parameter.value)) := by
  rw [← foldl_storeParameter]
  by_cases none : parameters = []
  · rw [none]
    rfl
  · rw [splitOn_joinWith (by simpa using none)]
    intro piece member
    obtain ⟨parameter, inside, rfl⟩ := List.mem_map.mp member
    simp [MimeParameter.field, whole parameter inside,
      not_mem_token parameter.name (rfl : mimeCharacter ';' = false)]

end ContentType

theorem survives_iff (letters : CaseMapping) (type : MimeType) :
    type.Survives letters ↔ ∀ parameter ∈ type.parameters, ';' ∉ parameter.value := by
  constructor
  · rintro ⟨parsed, read, -, -, kept⟩ parameter member
    rw [ContentType.parse_header] at read
    obtain rfl := Except.ok.inj read
    have stored := (kept _ _).mpr ⟨parameter, member, rfl, rfl⟩
    exact ContentType.foldl_storeParameter_whole letters (fun _ piece => splitOn_whole piece)
      Table.every_empty _ _ stored
  · intro whole
    refine ⟨_, ContentType.parse_header letters type, rfl, rfl, ?_⟩
    intro name value
    dsimp only
    have distinct : ((type.parameters.map fun parameter =>
        (parameter.name.text, parameter.value)).map Prod.fst).Nodup := by
      rw [List.map_map]
      exact type.distinct
    rw [ContentType.foldl_pieces letters whole, lookup_storeFields_nodup distinct, List.mem_map]
    simp only [Prod.mk.injEq]

def nameToken : MimeToken := ⟨['n', 'a', 'm', 'e'], by decide, by decide⟩

def semicolonName : MimeType where
  mainType := nameToken
  subType := nameToken
  parameters := [⟨nameToken, ['a', ';', 'b'], by decide, by decide, by decide⟩]
  distinct := List.nodup_singleton _

/-- Of `name="a;b"` the name has a quote and what stands before the semicolon. -/
theorem semicolonName_cut : ¬semicolonName.Survives asciiCase := by
  rintro ⟨parsed, read, -, -, kept⟩
  have stored := (kept _ _).mpr ⟨_, List.mem_singleton_self _, rfl, rfl⟩
  have cut : (ContentType.parse asciiCase semicolonName.header).toOption.bind
      (fun parsed => parsed.parameters.lookup nameToken.text) = some ['"', 'a'] := by decide +kernel
  rw [read] at cut
  exact absurd (stored.symm.trans cut) (by decide)

end Rusmes
