import Mathlib.Data.List.Infix
import Rusmes.Proto.Mail

/-!
Header blocks and messages as octets: the parser of `mime.rs`, the message types
of `message.rs` and what the maildir writes for a mail. Lower-casing a string is
a parameter with the laws the proofs rest on.
-/

namespace Rusmes

open WireText

structure CaseMapping where
  toLowercase : Text → Text
  lowercase_ascii : ∀ text, (∀ character ∈ text, character.toNat < 128) →
    toLowercase text = text.map Char.toLower
  lowercase_idempotent : ∀ text, toLowercase (toLowercase text) = toLowercase text
  lowercase_symbol : ∀ text symbol, symbol.toNat < 128 → symbol.isAlpha = false →
    symbol ∈ toLowercase text → symbol ∈ text
  lowercase_trim : ∀ text, trim (toLowercase text) = toLowercase (trim text)

theorem toLower_code : ∀ code < 128,
    (Char.ofNat code).toLower.toLower = (Char.ofNat code).toLower ∧
      isWhitespace (Char.ofNat code).toLower = isWhitespace (Char.ofNat code) ∧
      ((Char.ofNat code).toLower.isAlpha = false → (Char.ofNat code).toLower = Char.ofNat code) := by
  decide

theorem toLower_facts (character : Char) :
    character.toLower.toLower = character.toLower ∧
      isWhitespace character.toLower = isWhitespace character ∧
      (character.toLower.isAlpha = false → character.toLower = character) := by
  by_cases ascii : character.toNat < 128
  · have facts := toLower_code character.toNat ascii
    rw [Char.ofNat_toNat] at facts
    exact facts
  · have same : character.toLower = character := by
      delta Char.toLower
      apply dif_neg
      intro upper
      have bound := UInt32.le_iff_toNat_le.mp upper.2
      have code : character.toNat = character.val.toNat := rfl
      simp at bound
      omega
    rw [same, same]
    exact ⟨rfl, rfl, fun _ => rfl⟩

def asciiCase : CaseMapping where
  toLowercase text := text.map Char.toLower
  lowercase_ascii _ _ := rfl
  lowercase_idempotent text := by
    rw [List.map_map]
    exact List.map_congr_left fun character _ => (toLower_facts character).1
  lowercase_symbol text symbol _ plain member := by
    obtain ⟨character, inside, rfl⟩ := List.mem_map.mp member
    rw [(toLower_facts character).2.2 plain]
    exact inside
  lowercase_trim text := by
    have blank : isWhitespace ∘ Char.toLower = isWhitespace :=
      funext fun character => (toLower_facts character).2.1
    simp [trim, trimEnd, trimStart, List.rdropWhile, List.dropWhile_map, ← List.map_reverse, blank]

def HeaderMap.getFirst (letters : CaseMapping) (headers : HeaderMap) (name : Text) : Option Text :=
  (headers.lookup (letters.toLowercase name)).bind List.head?

def HeaderMap.fields (headers : HeaderMap) : List (Text × Text) :=
  headers.entries.flatMap fun entry => entry.2.map fun value => (entry.1, value)

/-- What `unfold_header` remembers of the character before: nothing, a line feed, or
a fold whose white space is being skipped. -/
inductive Unfolding
  | plain
  | afterNewline
  | skipping
  deriving DecidableEq, Repr

def unfoldFrom : Unfolding → Text → Text
  | _, [] => []
  | mode, character :: rest =>
      if character = '\r' then unfoldFrom .plain rest
      else if character = '\n' then unfoldFrom .afterNewline rest
      else if character = ' ' ∨ character = '\t' then
        match mode with
        | .plain => character :: unfoldFrom .plain rest
        | .afterNewline => ' ' :: unfoldFrom .skipping rest
        | .skipping => unfoldFrom .skipping rest
      else character :: unfoldFrom .plain rest

def unfoldHeader (value : Text) : Text := unfoldFrom .plain value

abbrev HeaderTable := AList fun _ : Text => Text

def HeaderTable.flush (table : HeaderTable) : Option (Text × Text) → HeaderTable
  | none => table
  | some (name, value) => AList.insert name (unfoldHeader value) table

def lineContent (line : Octets) : Option Octets :=
  if line.getLast? = some 10 then
    let content := line.dropLast
    some (if content.getLast? = some 13 then content.dropLast else content)
  else none

def headerField (letters : CaseMapping) (line : Octets) : Option (Text × Text) :=
  if 58 ∈ line then
    some (letters.toLowercase (trim (decodeLossy (line.takeWhile (· ≠ 58)))),
      decodeLossy (line.dropWhile (· ≠ 58)).tail)
  else none

def continuesField (line : Octets) : Bool :=
  line.head? = some 32 || line.head? = some 9

/-- The loop of `parse_headers` over the lines still to read, with the fields stored
so far and the one being read; what is left is the body. -/
def parseHeaderLines (letters : CaseMapping) :
    HeaderTable → Option (Text × Text) → List Octets → HeaderTable × Octets
  | table, current, [] => (table.flush current, [])
  | table, current, line :: lines =>
      match lineContent line with
      | none => (table.flush current, [])
      | some content =>
          if content = [] then (table.flush current, lines.flatten)
          else if continuesField content then
            parseHeaderLines letters table
              (current.map fun field => (field.1, field.2 ++ decodeLossy content)) lines
          else parseHeaderLines letters (table.flush current) (headerField letters content) lines

def parseHeaders (letters : CaseMapping) (data : Octets) : HeaderTable × Nat :=
  let (table, body) := parseHeaderLines letters ∅ none (splitLines data)
  (table, data.length - body.length)

def HeaderMap.ofTable (letters : CaseMapping) (table : HeaderTable) : HeaderMap :=
  table.entries.foldl
    (fun headers entry => headers.insert letters.toLowercase entry.1 entry.2) ∅

def MimeMessage.parseFromBytes (letters : CaseMapping) (data : Octets) : MimeMessage :=
  let (table, offset) := parseHeaders letters data
  ⟨HeaderMap.ofTable letters table, .small (data.drop offset)⟩

def MimeMessage.bodySize (message : MimeMessage) : Nat :=
  match message.body with
  | .small bytes => bytes.length
  | .large body => body.size

def MimeMessage.size (message : MimeMessage) : Nat :=
  let fields := message.headers.fields.map fun field =>
    octetLength field.1 + 2 + octetLength field.2 + 2
  min (fields.foldl (· + ·) 0 + 2 + message.bodySize) (usizeBound - 1)

def MimeMessage.extractText (message : MimeMessage) : Option Text :=
  match message.body with
  | .small bytes => decodeUtf8 bytes
  | .large body => some (decodeLossy body.reader)

def Mail.size (mail : Mail) : Nat := mail.message.size

def hyphenated (digits : Text) : Text :=
  digits.take 8 ++ '-' :: (digits.drop 8).take 4 ++ '-' :: (digits.drop 12).take 4 ++
    '-' :: (digits.drop 16).take 4 ++ '-' :: digits.drop 20

def MessageId.display (id : MessageId) : Text :=
  hyphenated (hexDigits 32 id.uuid.toNat)

def hexValue (character : Char) : Option Nat :=
  if '0' ≤ character ∧ character ≤ '9' then some (character.toNat - '0'.toNat)
  else if 'a' ≤ character ∧ character ≤ 'f' then some (character.toNat - 'a'.toNat + 10)
  else if 'A' ≤ character ∧ character ≤ 'F' then some (character.toNat - 'A'.toNat + 10)
  else none

def hexNumber (digits : Text) : Option Nat :=
  digits.foldlM (fun value digit => (hexValue digit).map (16 * value + ·)) 0

def parseHyphenated (text : Text) : Option Nat :=
  if text.length = 36 ∧ text[8]? = some '-' ∧ text[13]? = some '-' ∧ text[18]? = some '-' ∧
      text[23]? = some '-' then
    hexNumber (text.take 8 ++ (text.drop 9).take 4 ++ (text.drop 14).take 4 ++
      (text.drop 19).take 4 ++ text.drop 24)
  else none

def parseUuid (text : Text) : Option (BitVec 128) :=
  let number :=
    if text.length = 32 then hexNumber text
    else if text.length = 36 then parseHyphenated text
    else if text.length = 38 ∧ text.head? = some '\x7b' ∧ text.getLast? = some '\x7d' then
      parseHyphenated text.tail.dropLast
    else if text.length = 45 ∧ "urn:uuid:".toList <+: text then parseHyphenated (text.drop 9)
    else none
  number.map (BitVec.ofNat 128)

def rusmesMessageId : Text := "x-rusmes-message-id".toList

/-- The id the readers that look for a message find in its headers. -/
def MimeMessage.storedId (letters : CaseMapping) (message : MimeMessage) : Option MessageId :=
  (message.headers.getFirst letters rusmesMessageId).bind fun text =>
    (parseUuid (trim text)).map MessageId.mk

/-- The id the listing finds: the same header, read without trimming. -/
def MimeMessage.listedId (letters : CaseMapping) (message : MimeMessage) : Option MessageId :=
  (message.headers.getFirst letters rusmesMessageId).bind fun text =>
    (parseUuid text).map MessageId.mk

def headerLine (name value : Text) : Octets :=
  encodeUtf8 (name ++ ": ".toList ++ value) ++ [13, 10]

def serializeMessageToBytes (mail : Mail) : Octets :=
  headerLine "X-Rusmes-Message-Id".toList mail.messageId.display ++
    mail.message.headers.fields.flatMap (fun field => headerLine field.1 field.2) ++
    [13, 10] ++ mail.message.body.octets

def MessageBody.drained : MessageBody → MessageBody
  | .small bytes => .small bytes
  | .large body => .large { body with reader := [] }

end Rusmes
