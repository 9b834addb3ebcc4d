import Rusmes.Imap.Parser
import Rusmes.Library.Splitting
import Rusmes.Library.Words

/-!
The words the commands open with, in the order in which they are tried, and the lines
that a client writes for a command.
-/

namespace Rusmes.ImapParser

open WireText Recognizer

variable {α : Type}

def imapVerbs : List Text :=
  ["UID", "LOGIN", "AUTHENTICATE", "SELECT", "EXAMINE", "FETCH", "STORE", "SEARCH", "LIST", "LSUB",
    "SUBSCRIBE", "UNSUBSCRIBE", "CREATE-SPECIAL-USE", "CREATE", "DELETE", "RENAME", "COPY", "MOVE",
    "EXPUNGE", "CLOSE", "CAPABILITY", "LOGOUT", "NOOP", "IDLE", "NAMESPACE",
    "COMPRESS"].map String.toList

def imapRecognizers (upper : Text → Text) : List (Recognizer ImapCommand) :=
  [parseUid, parseLogin, parseAuthenticate upper, parseSelect, parseExamine, parseFetch,
    parseStore, parseSearch, parseList, parseLsub, parseSubscribe, parseUnsubscribe,
    parseCreateSpecialUse, parseCreate, parseDelete, parseRename, parseCopy, parseMove,
    parseExpunge, parseClose, parseCapability, parseLogout, parseNoop, parseIdle, parseNamespace,
    parseCompress upper]

def imapCommands (upper : Text → Text) : List (Text × Recognizer ImapCommand) :=
  imapVerbs.zip (imapRecognizers upper)

theorem alt_groups (first second : List (Recognizer α)) :
    alt [alt first, alt second] = alt (first ++ second) := by
  funext input
  rw [alt, alt, List.findSome?_append, List.findSome?_cons, List.findSome?_cons, alt, alt]
  cases first.findSome? fun choice => choice input with
  | none => cases second.findSome? fun choice => choice input <;> rfl
  | some found => rfl

theorem parseImapCommand_alt (upper : Text → Text) :
    parseImapCommand upper = alt (imapRecognizers upper) :=
  alt_groups _ _

theorem imapCommands_open (upper : Text → Text) :
    ∀ choice ∈ imapCommands upper, OpensWith choice.1 choice.2 := by
  simp only [imapCommands, imapVerbs, imapRecognizers, List.map_cons, List.map_nil,
    List.zip_cons_cons, List.zip_nil_left, List.forall_mem_cons, List.not_mem_nil, false_implies,
    implies_true, and_true, OpensWith]
  refine ⟨?_, ?_, ?_, ?_, ?_, ?_, ?_, ?_, ?_, ?_, ?_, ?_, ?_, ?_, ?_, ?_, ?_, ?_, ?_, ?_, ?_, ?_,
    ?_, ?_, ?_, ?_⟩
  all_goals
    intro input other
    simp only [parseUid, parseLogin, parseAuthenticate, parseSelect, parseExamine, parseFetch,
      parseStore, parseSearch, parseList, parseLsub, parseSubscribe, parseUnsubscribe,
      parseCreateSpecialUse, parseCreate, parseDelete, parseRename, parseCopy, parseMove,
      parseExpunge, parseClose, parseCapability, parseLogout, parseNoop, parseIdle,
      parseNamespace, parseCompress, bare, withWord, withTwoWords, withRest, withWordAndRest,
      withTwoWordsAndRest, other, Option.bind_eq_bind, Option.bind_none]

theorem parseImapCommand_opened {upper : Text → Text} {opening line : Text} {opened : Text × Text}
    {index : Nat} {choice : Recognizer ImapCommand} {result : Text × ImapCommand}
    (here : (imapRecognizers upper)[index]? = some choice)
    (different : ∀ verb ∈ imapVerbs.take index, apart opening verb = true)
    (tagged : tagNoCase opening line = some opened) (recognised : choice line = some result) :
    parseImapCommand upper line = some result := by
  have before : ((imapCommands upper).take index).map Prod.snd =
      (imapRecognizers upper).take index := by
    rw [List.map_take]
    rfl
  have cut : imapRecognizers upper = ((imapCommands upper).take index).map Prod.snd ++
      choice :: (imapRecognizers upper).drop (index + 1) := by
    obtain ⟨bound, found⟩ := List.getElem?_eq_some_iff.mp here
    rw [before, ← found, List.cons_getElem_drop_succ, List.take_append_drop]
  rw [parseImapCommand_alt, cut]
  refine alt_first ?_ ?_ tagged recognised
  · intro other member
    exact imapCommands_open upper other (List.mem_of_mem_take member)
  · intro other member
    apply different
    have verbs : imapVerbs = (imapCommands upper).map Prod.fst := rfl
    rw [verbs, ← List.map_take]
    exact List.mem_map_of_mem member

theorem space1_one {text : Text} (starts : ∀ first, text.head? = some first → isSpace first = false) :
    space1 (' ' :: text) = some (text, [' ']) := by
  apply @takeWhile1_append isSpace [' '] text (List.cons_ne_nil _ _) _ starts
  intro character member
  rw [List.mem_singleton.mp member]
  rfl

theorem word_solid {found text : Text} (nonempty : found ≠ [])
    (solid : ∀ character ∈ found, isWhitespace character = false)
    (stops : ∀ first, text.head? = some first → isWhitespace first = true) :
    word (found ++ text) = some (text, found) := by
  apply takeWhile1_append nonempty
  · intro character member
    simp [solid character member]
  · intro first head
    simp [stops first head]

def Solid (text : Text) : Prop :=
  text ≠ [] ∧ ∀ character ∈ text, isWhitespace character = false

theorem Solid.append {first second : Text} (solid : Solid first) (others : Solid second) :
    Solid (first ++ second) := by
  refine ⟨by simp [solid.1], ?_⟩
  intro character member
  rcases List.mem_append.mp member with front | behind
  · exact solid.2 character front
  · exact others.2 character behind

theorem solid_mark {mark : Char} (plain : isWhitespace mark = false) : Solid [mark] := by
  refine ⟨List.cons_ne_nil _ _, ?_⟩
  intro character member
  rw [List.mem_singleton.mp member]
  exact plain

theorem splitWhitespace_solid {words : List Text} (solid : ∀ word ∈ words, Solid word) :
    splitWhitespace (joinWith [' '] words) = words :=
  splitWhitespace_joinWith (fun word member => (solid word member).1)
    fun word member => (solid word member).2

theorem isSpace_white {character : Char} (space : isSpace character = true) :
    isWhitespace character = true := by
  rw [isSpace, Bool.or_eq_true, decide_eq_true_eq, decide_eq_true_eq] at space
  rcases space with rfl | rfl <;> rfl

theorem Solid.starts {text : Text} (solid : Solid text) (more : Text) :
    ∀ first, (text ++ more).head? = some first → isSpace first = false := by
  intro first head
  obtain ⟨nonempty, plain⟩ := solid
  cases text with
  | nil => exact absurd rfl nonempty
  | cons character text =>
      obtain rfl := Option.some.inj head
      by_contra space
      have white := isSpace_white (Bool.not_eq_false _ ▸ space)
      rw [plain character List.mem_cons_self] at white
      cases white

theorem withWord_line {name : String} {build : Text → α} {first after : Text} (solid : Solid first)
    (stops : ∀ character, after.head? = some character → isWhitespace character = true) :
    withWord name build (name.toList ++ ' ' :: (first ++ after)) = some (after, build first) := by
  rw [withWord, tagNoCase_append (decide_eq_true rfl)]
  simp only [Option.bind_eq_bind, Option.bind_some, space1_one (solid.starts after),
    word_solid solid.1 solid.2 stops]

theorem withRest_line {name : String} {build : Text → α} {remaining : Text}
    (starts : ∀ first, remaining.head? = some first → isSpace first = false) :
    withRest name build (name.toList ++ ' ' :: remaining) = some ([], build remaining) := by
  rw [withRest, tagNoCase_append (decide_eq_true rfl)]
  simp only [Option.bind_eq_bind, Option.bind_some, space1_one starts, rest]

theorem withWordAndRest_line {name : String} {build : Text → Text → α} {first remaining : Text}
    (solid : Solid first)
    (starts : ∀ character, remaining.head? = some character → isSpace character = false) :
    withWordAndRest name build (name.toList ++ ' ' :: (first ++ ' ' :: remaining)) =
      some ([], build first remaining) := by
  have stops : ∀ character, (' ' :: remaining).head? = some character →
      isWhitespace character = true := by
    intro character head
    obtain rfl := Option.some.inj head
    rfl
  rw [withWordAndRest, tagNoCase_append (decide_eq_true rfl)]
  simp only [Option.bind_eq_bind, Option.bind_some, space1_one (solid.starts _),
    word_solid solid.1 solid.2 stops, space1_one starts, rest]

theorem parseCommand_line {upper : Text → Text} {tag line rest : Text} {command : ImapCommand}
    (tagged : ' ' ∉ tag) (parsed : parseImapCommand upper line = some (rest, command)) :
    parseCommand upper (tag ++ ' ' :: line) = .ok (tag, command) := by
  rw [parseCommand, splitOnce_append tagged]
  dsimp only
  rw [parsed]

theorem parseCommand_opened {upper : Text → Text} {tag opening rest left : Text}
    {command : ImapCommand} {index : Nat} {choice : Recognizer ImapCommand} (tagged : ' ' ∉ tag)
    (here : (imapRecognizers upper)[index]? = some choice)
    (different : ∀ verb ∈ imapVerbs.take index, apart opening verb = true)
    (recognised : choice (opening ++ rest) = some (left, command)) :
    parseCommand upper (tag ++ ' ' :: (opening ++ rest)) = .ok (tag, command) := by
  have tagging := tagNoCase_append (decide_eq_true rfl : eqIgnoreAsciiCase opening opening = true)
  exact parseCommand_line tagged (parseImapCommand_opened here different (tagging rest) recognised)

end Rusmes.ImapParser
