import Rusmes.Imap.Backend
import Rusmes.Imap.Verbs

/-!
FETCH with a list of items in parentheses. The list is cut at its blanks, so that the
parentheses stay with the first and the last name.
-/

namespace Rusmes

open WireText Recognizer ImapParser

variable {σ β : Type}

inductive FetchName
  | flags
  | uid
  | body
  | bodyPeek
  | size
  deriving DecidableEq, Repr

namespace FetchName

def text : FetchName → Text
  | flags => "FLAGS".toList
  | uid => "UID".toList
  | body => "BODY[]".toList
  | bodyPeek => "BODY.PEEK[]".toList
  | size => "RFC822.SIZE".toList

def data (mail : Mail) (metadata : MessageMetadata) : FetchName → Text
  | flags => "FLAGS (".toList ++ joinWith [' '] (flagNames metadata.flags) ++ ")".toList
  | uid => "UID ".toList ++ decimal metadata.uid.toNat
  | body | bodyPeek =>
      let content := mail.message.extractText.getD []
      "BODY[] \x7b".toList ++ decimal (encodeUtf8 content).length ++ "\x7d\r\n".toList ++ content
  | size => "RFC822.SIZE ".toList ++ decimal metadata.size

end FetchName

def fetchCommand (byUid : Bool) (tag sequence items : Text) : Text :=
  let line := "FETCH".toList ++ ' ' :: (sequence ++ ' ' :: items)
  tag ++ ' ' :: if byUid then "UID".toList ++ ' ' :: line else line

def listedNames (names : List FetchName) : Text :=
  '(' :: (joinWith [' '] (names.map FetchName.text) ++ [')'])

def fetchData (ctx : HandlerContext σ β) (mail : Mail) (metadata : MessageMetadata) (line : Text) :
    Option (List Text) :=
  match ImapParser.parseCommand ctx.toUppercase line with
  | .ok (_, .fetch _ items) => some (items.filterMap (fetchItem ctx mail metadata))
  | .ok (_, .uid (.fetch _ items)) => some (items.filterMap (fetchItem ctx mail metadata))
  | _ => none

/-- The list is answered with the data items of the commands for one name each. -/
def ListIsItsItems (ctx : HandlerContext σ β) (mail : Mail) (metadata : MessageMetadata)
    (byUid : Bool) (tag sequence : Text) (names : List FetchName) : Prop :=
  fetchData ctx mail metadata (fetchCommand byUid tag sequence (listedNames names)) =
    (names.mapM fun name =>
      fetchData ctx mail metadata (fetchCommand byUid tag sequence name.text)).map List.flatten

def AnnouncesOctets (item : Text) : Prop :=
  ∃ content, item =
    "BODY[] \x7b".toList ++ decimal (encodeUtf8 content).length ++ "\x7d\r\n".toList ++ content

def UppercasesAscii (upper : Text → Text) : Prop :=
  ∀ text, (∀ character ∈ text, character.toNat < 128) → upper text = toUppercase text

section Lines

variable {ctx : HandlerContext σ β} {mail : Mail} {metadata : MessageMetadata} {tag sequence : Text}

theorem fetchData_command (tagged : ' ' ∉ tag) (set : Solid sequence) (byUid : Bool) {items : Text}
    (starts : ∀ first, items.head? = some first → isSpace first = false) :
    fetchData ctx mail metadata (fetchCommand byUid tag sequence items) =
      some ((splitWhitespace items).filterMap (fetchItem ctx mail metadata)) := by
  have direct : parseFetch ("FETCH".toList ++ ' ' :: (sequence ++ ' ' :: items)) =
      some ([], .fetch sequence (splitWhitespace items)) := withWordAndRest_line set starts
  cases byUid with
  | false =>
      have read := @parseCommand_opened ctx.toUppercase _ "FETCH".toList _ _ _ 5 _ tagged rfl
        (by decide +kernel) direct
      rw [fetchData, fetchCommand]
      simp only [Bool.false_eq_true, if_false, read]
  | true =>
      have inner : parseUidFetch ("FETCH".toList ++ ' ' :: (sequence ++ ' ' :: items)) =
          some ([], .fetch sequence (splitWhitespace items)) := withWordAndRest_line set starts
      have whole : ImapParser.parseUid
          ("UID".toList ++ ' ' :: ("FETCH".toList ++ ' ' :: (sequence ++ ' ' :: items))) =
          some ([], .uid (.fetch sequence (splitWhitespace items))) := by
        have opens : ∀ first, ("FETCH".toList ++ ' ' :: (sequence ++ ' ' :: items)).head? =
            some first → isSpace first = false := by
          intro first head
          obtain rfl := Option.some.inj head
          rfl
        rw [ImapParser.parseUid, tagNoCase_append (decide_eq_true rfl)]
        simp only [Option.bind_eq_bind, Option.bind_some, space1_one opens, alt,
          List.findSome?_cons, inner]
      have read := @parseCommand_opened ctx.toUppercase _ "UID".toList _ _ _ 0 _ tagged rfl
        (by decide +kernel) whole
      rw [fetchData, fetchCommand]
      simp only [if_true, read]

end Lines

/-! The words of a list, of which the first and the last are no names. -/

namespace FetchName

theorem text_ascii (name : FetchName) : ∀ character ∈ name.text, character.toNat < 128 := by
  cases name <;> decide

theorem closing_ascii (name : FetchName) :
    ∀ character ∈ name.text ++ [')'], character.toNat < 128 := by
  cases name <;> decide

theorem text_solid (name : FetchName) : Solid name.text := by
  cases name <;> exact ⟨by decide, by decide⟩

theorem words_solid (names : List FetchName) : ∀ word ∈ names.map text, Solid word := by
  intro word member
  obtain ⟨name, _, rfl⟩ := List.mem_map.mp member
  exact name.text_solid

section Items

variable {ctx : HandlerContext σ β} (upper : UppercasesAscii ctx.toUppercase) (mail : Mail)
  (metadata : MessageMetadata)
include upper

theorem fetchItem_text (name : FetchName) :
    fetchItem ctx mail metadata name.text = some (name.data mail metadata) := by
  rw [fetchItem, upper name.text name.text_ascii]
  cases name <;> rfl

theorem fetchItem_opening {word : Text} (ascii : ∀ character ∈ word, character.toNat < 128) :
    fetchItem ctx mail metadata ('(' :: word) = none := by
  have whole : ∀ character ∈ '(' :: word, character.toNat < 128 := by
    rw [List.forall_mem_cons]
    exact ⟨by decide, ascii⟩
  have capital : ctx.toUppercase ('(' :: word) = '(' :: toUppercase word := upper _ whole
  simp [fetchItem, capital]

theorem fetchItem_closing (name : FetchName) :
    fetchItem ctx mail metadata (name.text ++ [')']) = none := by
  rw [fetchItem, upper _ name.closing_ascii]
  cases name <;> rfl

theorem listed_data {names : List FetchName} (nonempty : names ≠ []) :
    (splitWhitespace (listedNames names)).filterMap (fetchItem ctx mail metadata) =
      names.tail.dropLast.map (data mail metadata) := by
  obtain ⟨first, others, rfl⟩ := List.exists_cons_of_ne_nil nonempty
  rcases List.eq_nil_or_concat' others with rfl | ⟨middle, last, rfl⟩
  · have word : splitWhitespace (listedNames [first]) = ['(' :: (first.text ++ [')'])] := by
      have solid := ((@solid_mark '(' (by rfl)).append first.text_solid).append (@solid_mark ')' (by rfl))
      have alone := @splitWhitespace_solid ['(' :: (first.text ++ [')'])]
      rw [List.forall_mem_singleton] at alone
      exact alone solid
    rw [word, List.filterMap_cons, fetchItem_opening upper mail metadata (closing_ascii first)]
    rfl
  · have words : splitWhitespace (listedNames (first :: (middle ++ [last]))) =
        ('(' :: first.text) :: (middle.map text ++ [last.text ++ [')']]) := by
      have joined : listedNames (first :: (middle ++ [last])) =
          joinWith [' '] (('(' :: first.text) :: (middle.map text ++ [last.text ++ [')']])) := by
        have opening := joinWith_first [' '] ['('] first.text
        have closing := joinWith_last [' '] last.text [')'] ((first :: middle).map text)
        rw [List.map_cons, List.cons_append, List.cons_append] at closing
        rw [List.singleton_append] at opening
        rw [listedNames, opening, ← closing, List.map_cons, List.map_append]
        rfl
      rw [joined]
      apply splitWhitespace_solid
      rw [List.forall_mem_cons, List.forall_mem_append, List.forall_mem_singleton]
      exact ⟨(solid_mark (by rfl)).append first.text_solid, words_solid middle,
        last.text_solid.append (solid_mark (by rfl))⟩
    have inner : (middle.map text).filterMap (fetchItem ctx mail metadata) =
        middle.map (data mail metadata) := by
      have found : fetchItem ctx mail metadata ∘ text = some ∘ data mail metadata :=
        funext (fetchItem_text upper mail metadata)
      rw [List.filterMap_map, found, List.filterMap_eq_map]
    rw [words, List.filterMap_cons, fetchItem_opening upper mail metadata first.text_ascii]
    dsimp only
    rw [List.filterMap_append, inner, List.filterMap_cons, fetchItem_closing upper mail metadata,
      List.filterMap_nil, List.append_nil, List.tail_cons, List.dropLast_concat]

end Items

end FetchName

/-- A list is answered with the data of all its names but the first and the last, so never
with that of its items. A name on its own is answered with its data, where the literal
announces the octets of the text behind it. -/
theorem fetch_list_never {ctx : HandlerContext σ β} (upper : UppercasesAscii ctx.toUppercase)
    {tag sequence : Text} (tagged : ' ' ∉ tag) (set : Solid sequence) (mail : Mail)
    (metadata : MessageMetadata) (byUid : Bool) {names : List FetchName} (nonempty : names ≠ []) :
    ¬ListIsItsItems ctx mail metadata byUid tag sequence names ∧
      fetchData ctx mail metadata (fetchCommand byUid tag sequence (listedNames names)) =
        some (names.tail.dropLast.map (FetchName.data mail metadata)) ∧
      (∀ name : FetchName,
        fetchData ctx mail metadata (fetchCommand byUid tag sequence name.text) =
          some [name.data mail metadata]) ∧
      AnnouncesOctets (FetchName.body.data mail metadata) ∧
      AnnouncesOctets (FetchName.bodyPeek.data mail metadata) := by
  have starts : ∀ first, (listedNames names).head? = some first → isSpace first = false := by
    intro first head
    obtain rfl := Option.some.inj head
    rfl
  have list : fetchData ctx mail metadata (fetchCommand byUid tag sequence (listedNames names)) =
      some (names.tail.dropLast.map (FetchName.data mail metadata)) := by
    rw [fetchData_command tagged set byUid starts, FetchName.listed_data upper mail metadata nonempty]
  have single : ∀ name : FetchName,
      fetchData ctx mail metadata (fetchCommand byUid tag sequence name.text) =
        some [name.data mail metadata] := by
    intro name
    have word := splitWhitespace_solid (List.forall_mem_singleton.mpr name.text_solid)
    have opens := name.text_solid.starts []
    rw [List.append_nil] at opens
    rw [fetchData_command tagged set byUid opens, show splitWhitespace name.text = [name.text] from
      word, List.filterMap_cons, FetchName.fetchItem_text upper mail metadata]
    rfl
  refine ⟨?_, list, single, ⟨_, rfl⟩, ⟨_, rfl⟩⟩
  intro same
  have each : (names.mapM fun name =>
      fetchData ctx mail metadata (fetchCommand byUid tag sequence name.text)) =
      some (names.map fun name => [name.data mail metadata]) := by
    rw [funext single]
    exact List.mapM_pure
  have flat : (names.map fun name => [name.data mail metadata]).flatten =
      names.map (FetchName.data mail metadata) := List.flatMap_pure_eq_map _ _
  rw [ListIsItsItems, list, each, Option.map_some, flat, Option.some.injEq] at same
  have lengths := congrArg List.length same
  have positive : 0 < names.length := List.length_pos_iff.mpr nonempty
  simp at lengths
  omega

def firstNote : MessageMetadata := ⟨⟨0⟩, ⟨0⟩, 1, .new, 0⟩

theorem fetch_flags_and_uid :
    ¬ListIsItsItems plainContext (noteFromAlice []) firstNote false "a".toList "1".toList
        [.flags, .uid] ∧
      fetchData plainContext (noteFromAlice []) firstNote
        (fetchCommand false "a".toList "1".toList (listedNames [.flags, .uid])) = some [] := by
  have never := @fetch_list_never _ _ plainContext (fun _ _ => rfl) "a".toList "1".toList
    (by decide) ⟨by decide, by decide⟩ (noteFromAlice []) firstNote false [.flags, .uid]
    (List.cons_ne_nil _ _)
  exact ⟨never.1, never.2.1⟩

theorem uidFetch_flags_and_uid :
    ¬ListIsItsItems plainContext (noteFromAlice []) firstNote true "a".toList "1".toList
      [.flags, .uid] := by
  unfold ListIsItsItems
  decide +kernel

end Rusmes
