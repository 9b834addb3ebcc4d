import Rusmes.Imap.Backend
import Rusmes.Imap.Loop
import Rusmes.Library.Splitting

/-!
Whether the command that runs is the one the client sent. The parser takes a command by
the beginning of its name and drops what it has not read; a size in braces makes any
line an APPEND. The lines that mean what they say are those of `SentPlainly`.
-/

namespace Rusmes

open WireText ImapParser Recognizer

def UidSubcommand.name : UidSubcommand → Text
  | .fetch _ _ => "FETCH".toList
  | .store _ _ _ => "STORE".toList
  | .search _ => "SEARCH".toList
  | .copy _ _ => "COPY".toList
  | .move _ _ => "MOVE".toList
  | .expunge _ => "EXPUNGE".toList

def ImapCommand.name : ImapCommand → Text
  | .login _ _ => "LOGIN".toList
  | .select _ => "SELECT".toList
  | .examine _ => "EXAMINE".toList
  | .fetch _ _ => "FETCH".toList
  | .store _ _ _ => "STORE".toList
  | .search _ => "SEARCH".toList
  | .list _ _ => "LIST".toList
  | .lsub _ _ => "LSUB".toList
  | .subscribe _ => "SUBSCRIBE".toList
  | .unsubscribe _ => "UNSUBSCRIBE".toList
  | .create _ => "CREATE".toList
  | .createSpecialUse _ _ => "CREATE-SPECIAL-USE".toList
  | .delete _ => "DELETE".toList
  | .rename _ _ => "RENAME".toList
  | .append _ _ _ _ => "APPEND".toList
  | .copy _ _ => "COPY".toList
  | .move _ _ => "MOVE".toList
  | .expunge => "EXPUNGE".toList
  | .close => "CLOSE".toList
  | .capability => "CAPABILITY".toList
  | .logout => "LOGOUT".toList
  | .noop => "NOOP".toList
  | .idle => "IDLE".toList
  | .namespace => "NAMESPACE".toList
  | .authenticate _ _ => "AUTHENTICATE".toList
  | .compress _ => "COMPRESS".toList
  | .uid _ => "UID".toList

def ImapCommand.subcommand : ImapCommand → Option UidSubcommand
  | .uid subcommand => some subcommand
  | _ => none

def secondWord (commandLine : Text) : Text :=
  ((commandLine.dropWhile (· ≠ ' ')).dropWhile (· = ' ')).takeWhile (· ≠ ' ')

/-- The command line begins with the word, or the two words, that name the command. -/
def Named (commandLine : Text) (command : ImapCommand) : Prop :=
  eqIgnoreAsciiCase (commandLine.takeWhile (· ≠ ' ')) command.name = true ∧
    ∀ subcommand, command.subcommand = some subcommand →
      eqIgnoreAsciiCase (secondWord commandLine) subcommand.name = true

inductive Arguments
  | words (count : Nat)
  | mechanism
  | anything
  | subcommand

def afterWords : Nat → Text → Text
  | 0, text => text
  | count + 1, text =>
      afterWords count ((text.dropWhile isWhitespace).dropWhile fun character =>
        !isWhitespace character)

def Arguments.Ends : Arguments → Text → Prop
  | .words count, after => afterWords count after = []
  | .mechanism, after => ∀ next, (afterWords 1 after).head? = some next → isSpace next = true
  | .anything, _ => True
  | .subcommand, after =>
      '\t' ∉ after.takeWhile isSpace ∧
        ((after.dropWhile isSpace).dropWhile fun character => !isSpace character).head? ≠ some '\t'

structure Spaced (name commandLine found gap tail : Text) : Prop where
  split : commandLine = found ++ (gap ++ tail)
  spelled : eqIgnoreAsciiCase found name = true
  solid : ∀ character ∈ found, isSpace character = false
  wide : gap ≠ []
  blank : ∀ character ∈ gap, isSpace character = true
  stops : ∀ first, tail.head? = some first → isSpace first = false

section Spaced

variable {name commandLine found gap tail : Text}

theorem Spaced.head (spaced : Spaced name commandLine found gap tail) :
    ∃ first rest, gap = first :: rest ∧ isSpace first = true := by
  obtain ⟨first, rest, split⟩ := List.exists_cons_of_ne_nil spaced.wide
  exact ⟨first, rest, split, spaced.blank first (by simp [split])⟩

theorem Spaced.takes (spaced : Spaced name commandLine found gap tail) :
    (commandLine.takeWhile fun character => !isSpace character) = found ∧
      (commandLine.dropWhile fun character => !isSpace character) = gap ++ tail := by
  obtain ⟨first, rest, split, blank⟩ := spaced.head
  have solid : ∀ character ∈ found, (!isSpace character) = true := by
    intro character member
    rw [spaced.solid character member]
    rfl
  rw [spaced.split, split, List.cons_append]
  constructor
  · rw [List.takeWhile_append_of_pos solid, List.takeWhile_cons_of_neg (by simp [blank])]
    exact List.append_nil found
  · rw [List.dropWhile_append_of_pos solid, List.dropWhile_cons_of_neg (by simp [blank])]

end Spaced

section Rest

variable {α : Type} {name : String} {commandLine left : Text} {value : α}
  (solid : ∀ character ∈ name.toList.map Char.toLower, isSpace character = false)
include solid

end Rest

section Shapes

variable {name : String} {commandLine left : Text} {command : ImapCommand}

end Shapes

/-! Lines with a literal. -/

section Lines

variable {upper : Text → Text} {line : Text} {following : Octets}

end Lines

end Rusmes
