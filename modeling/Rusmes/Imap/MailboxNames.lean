import Rusmes.Imap.Backend
import Rusmes.Imap.Verbs

/-!
A mailbox name in quotation marks, as the commands read it. Some keep the marks, some cut
the name at its blanks and some take the marks off, while mailboxes are looked up by
exact comparison.
-/

namespace Rusmes

open WireText Recognizer ImapParser

variable {σ β : Type}

def quoted (name : Text) : Text := '"' :: (name ++ ['"'])

/-- The commands that are given the name of a mailbox there is, with what else they take. -/
inductive NamedCommand
  | select
  | examine
  | delete
  | rename (new : Text)
  | copy (set : Text)
  | move (set : Text)
  | subscribe
  | createSpecialUse (use : Text)
  | append (literal : Octets)

namespace NamedCommand

def WellFormed : NamedCommand → Prop
  | copy set | move set => Solid set
  | createSpecialUse use => Solid use
  | _ => True

def line (name : Text) : NamedCommand → Text
  | select => "SELECT".toList ++ ' ' :: quoted name
  | examine => "EXAMINE".toList ++ ' ' :: quoted name
  | delete => "DELETE".toList ++ ' ' :: quoted name
  | rename new => "RENAME".toList ++ ' ' :: (quoted name ++ ' ' :: quoted new)
  | copy set => "COPY".toList ++ ' ' :: (set ++ ' ' :: quoted name)
  | move set => "MOVE".toList ++ ' ' :: (set ++ ' ' :: quoted name)
  | subscribe => "SUBSCRIBE".toList ++ ' ' :: quoted name
  | createSpecialUse use => "CREATE-SPECIAL-USE".toList ++ ' ' :: (quoted name ++ ' ' :: use)
  | append literal =>
      "APPEND".toList ++ ' ' ::
        (quoted name ++ ' ' :: '\x7b' :: (decimal literal.length ++ ['\x7d']))

def parse (upper : Text → Text) (tag name : Text) (command : NamedCommand) :
    Except Text (Text × ImapCommand) :=
  let input := tag ++ ' ' :: command.line name
  match command with
  | append literal => parseAppendCommand input literal
  | _ => ImapParser.parseCommand upper input

end NamedCommand

def parseCreation (upper : Text → Text) (tag name : Text) : Except Text (Text × ImapCommand) :=
  ImapParser.parseCommand upper (tag ++ ' ' :: ("CREATE".toList ++ ' ' :: quoted name))

def Creates (ctx : HandlerContext σ β) (tag name : Text) (before after : World σ β) : Prop :=
  ∃ mailbox, parseCreation ctx.toUppercase tag name = .ok (tag, .create mailbox) ∧
    handleCommand ctx tag (.create mailbox) before =
      (.ok (.ok tag "CREATE completed".toList), after)

def Refers (ctx : HandlerContext σ β) (user : Username) (path : MailboxPath) (world : World σ β) :
    ImapCommand → Prop
  | .select mailbox | .examine mailbox => ∃ found after,
      requestedMailbox ctx user mailbox world = (.ok (some found), after) ∧ found.path = path
  | .delete mailbox | .rename mailbox _ | .copy _ mailbox | .move _ mailbox
  | .append mailbox _ _ _ => ∃ found after,
      findMailbox ctx user mailbox world = (.ok (some found), after) ∧ found.path = path
  | .createSpecialUse mailbox _ => path = ⟨user, [mailbox]⟩
  | .subscribe mailbox => path.name = some (trimQuotes mailbox)
  | _ => False

structure OneMailbox (ctx : HandlerContext σ β) (user : Username) (tag name : Text)
    (world : World σ β) : Prop where
  refers : ∀ command : NamedCommand, command.WellFormed → ∃ mailbox parsed,
    parseCreation ctx.toUppercase tag name = .ok (tag, .create mailbox) ∧
      command.parse ctx.toUppercase tag name = .ok (tag, parsed) ∧
      Refers ctx user ⟨user, [mailbox]⟩ world parsed
  listed : ∃ reference pattern lines after,
    ImapParser.parseCommand ctx.toUppercase (tag ++ " LIST \"\" *".toList) =
        .ok (tag, .list reference pattern) ∧
      handleCommand ctx tag (.list reference pattern) world =
        (.ok (.listing lines tag "LIST completed".toList), after) ∧
      lines.count (quotedLine "LIST" name) = 1
  once : ∀ after, ¬Creates ctx tag name world after

section Readings

variable {name : Text}

theorem quoted_length (name : Text) : (quoted name).length = name.length + 2 := by
  simp [quoted]

theorem trimQuotes_quoted (plain : '"' ∉ name) : trimQuotes (quoted name) = name := by
  have opening : (quoted name).dropWhile (· = '"') = (name ++ ['"']).dropWhile (· = '"') := rfl
  rw [trimQuotes, opening]
  cases name with
  | nil => rfl
  | cons first rest =>
      have stays : (first :: rest ++ ['"']).dropWhile (· = '"') = first :: rest ++ ['"'] := by
        apply List.dropWhile_cons_of_neg
        rw [decide_eq_true_eq]
        exact fun same => plain (same ▸ List.mem_cons_self)
      have kept : (first :: rest).rdropWhile (· = '"') = first :: rest := by
        rw [List.rdropWhile_eq_self_iff]
        intro nonempty last
        rw [decide_eq_true_eq] at last
        exact plain (last ▸ List.getLast_mem nonempty)
      rw [stays, List.rdropWhile_concat_pos _ _ _ (by decide), kept]

theorem trim_quoted (name : Text) : trim (quoted name) = quoted name :=
  trim_enclosed rfl rfl name

theorem quoted_starts (name : Text) :
    ∀ first, (quoted name).head? = some first → isSpace first = false := by
  intro first head
  obtain rfl := Option.some.inj head
  rfl

variable {upper : Text → Text} {tag : Text} (tagged : ' ' ∉ tag)
include tagged

theorem parse_create (name : Text) :
    parseCreation upper tag name = .ok (tag, .create (quoted name)) := by
  have read : parseCreate ("CREATE".toList ++ ' ' :: quoted name) =
      some ([], .create (trim (quoted name))) := withRest_line (quoted_starts name)
  rw [trim_quoted] at read
  exact @parseCommand_opened upper _ "CREATE ".toList _ _ _ 13 _ tagged rfl (by decide +kernel) read

/-! A command takes the whole rest of its line, with the quotation marks or without, or the
first word of it. -/

theorem parse_delete (name : Text) :
    NamedCommand.delete.parse upper tag name = .ok (tag, .delete (quoted name)) := by
  have read : parseDelete ("DELETE".toList ++ ' ' :: quoted name) =
      some ([], .delete (trim (quoted name))) := withRest_line (quoted_starts name)
  rw [trim_quoted] at read
  exact @parseCommand_opened upper _ "DELETE".toList _ _ _ 14 _ tagged rfl (by decide +kernel) read

theorem parse_subscribe (name : Text) :
    NamedCommand.subscribe.parse upper tag name = .ok (tag, .subscribe (quoted name)) := by
  have read : parseSubscribe ("SUBSCRIBE".toList ++ ' ' :: quoted name) =
      some ([], .subscribe (trim (quoted name))) := withRest_line (quoted_starts name)
  rw [trim_quoted] at read
  exact @parseCommand_opened upper _ "SUBSCRIBE".toList _ _ _ 10 _ tagged rfl (by decide +kernel) read

theorem parse_copy (plain : '"' ∉ name) {set : Text} (solid : Solid set) :
    (NamedCommand.copy set).parse upper tag name = .ok (tag, .copy set name) := by
  have read : parseCopy ("COPY".toList ++ ' ' :: (set ++ ' ' :: quoted name)) =
      some ([], .copy set (mailboxName (quoted name))) := withWordAndRest_line solid (quoted_starts name)
  rw [mailboxName, trim_quoted, trimQuotes_quoted plain] at read
  exact @parseCommand_opened upper _ "COPY".toList _ _ _ 16 _ tagged rfl (by decide +kernel) read

theorem parse_move (plain : '"' ∉ name) {set : Text} (solid : Solid set) :
    (NamedCommand.move set).parse upper tag name = .ok (tag, .move set name) := by
  have read : parseMove ("MOVE".toList ++ ' ' :: (set ++ ' ' :: quoted name)) =
      some ([], .move set (mailboxName (quoted name))) := withWordAndRest_line solid (quoted_starts name)
  rw [mailboxName, trim_quoted, trimQuotes_quoted plain] at read
  exact @parseCommand_opened upper _ "MOVE".toList _ _ _ 17 _ tagged rfl (by decide +kernel) read

theorem parse_select {word rest : Text} (cut : quoted name = word ++ rest) (solid : Solid word)
    (stops : ∀ first, rest.head? = some first → isWhitespace first = true) :
    NamedCommand.select.parse upper tag name = .ok (tag, .select word) := by
  have read : parseSelect ("SELECT".toList ++ ' ' :: (word ++ rest)) =
      some (rest, .select word) := withWord_line solid stops
  rw [← cut] at read
  exact @parseCommand_opened upper _ "SELECT".toList _ _ _ 3 _ tagged rfl (by decide +kernel) read

theorem parse_examine {word rest : Text} (cut : quoted name = word ++ rest) (solid : Solid word)
    (stops : ∀ first, rest.head? = some first → isWhitespace first = true) :
    NamedCommand.examine.parse upper tag name = .ok (tag, .examine word) := by
  have read : parseExamine ("EXAMINE".toList ++ ' ' :: (word ++ rest)) =
      some (rest, .examine word) := withWord_line solid stops
  rw [← cut] at read
  exact @parseCommand_opened upper _ "EXAMINE".toList _ _ _ 4 _ tagged rfl (by decide +kernel) read

end Readings

theorem findMailbox_named {ctx : HandlerContext σ β} {user : Username} {name : Text}
    {world after : World σ β} {mailbox : Mailbox}
    (found : findMailbox ctx user name world = (.ok (some mailbox), after)) :
    mailbox.path.name = some name := by
  rw [findMailbox] at found
  obtain ⟨mailboxes, middle, _, chosen⟩ := Effect.bind_eq_ok.mp found
  have first : mailboxes.find? (fun mailbox => mailbox.path.name = some name) = some mailbox := by
    exact Except.ok.inj (Prod.mk.inj chosen).1
  have named := List.find?_some first
  exact of_decide_eq_true named

/-- What the parser hands on: DELETE and SUBSCRIBE have the quotation marks, COPY and MOVE
have not, SELECT and EXAMINE have the first word. -/
structure QuotedReadings (upper : Text → Text) (tag name : Text) : Prop where
  delete : NamedCommand.delete.parse upper tag name = .ok (tag, .delete (quoted name))
  subscribe : NamedCommand.subscribe.parse upper tag name = .ok (tag, .subscribe (quoted name))
  copy : ∀ set, Solid set →
    (NamedCommand.copy set).parse upper tag name = .ok (tag, .copy set name)
  move : ∀ set, Solid set →
    (NamedCommand.move set).parse upper tag name = .ok (tag, .move set name)
  select : ∃ word rest, quoted name = word ++ rest ∧ Solid word ∧
    (∀ first, rest.head? = some first → isWhitespace first = true) ∧
    NamedCommand.select.parse upper tag name = .ok (tag, .select word) ∧
    NamedCommand.examine.parse upper tag name = .ok (tag, .examine word)

theorem quotedReadings (upper : Text → Text) {tag name : Text} (tagged : ' ' ∉ tag)
    (plain : '"' ∉ name) : QuotedReadings upper tag name where
  delete := parse_delete tagged name
  subscribe := parse_subscribe tagged name
  copy _ := parse_copy tagged plain
  move _ := parse_move tagged plain
  select := by
    obtain ⟨word, rest, cut, solid, stops⟩ := exists_word (quoted name)
    have nonempty : word ≠ [] := by
      rintro rfl
      have blank := stops '"' (by rw [← List.nil_append rest, ← cut]; rfl)
      revert blank
      decide
    exact ⟨word, rest, cut, ⟨nonempty, solid⟩, stops,
      parse_select tagged cut ⟨nonempty, solid⟩ stops,
      parse_examine tagged cut ⟨nonempty, solid⟩ stops⟩

theorem Creates.store {ctx : HandlerContext σ β} {user : Username} {tag name : Text}
    {before after : World σ β} (tagged : ' ' ∉ tag)
    (named : before.session.username = some user) (created : Creates ctx tag name before after) :
    ∃ id, ctx.mailboxStore.createMailbox ⟨user, [quoted name]⟩ before.store =
      (.ok id, after.store) := by
  obtain ⟨mailbox, parsed, ran⟩ := created
  rw [parse_create tagged] at parsed
  cases parsed
  rw [handleCommand, handleCreate, asUser, Effect.read_bind] at ran
  split at ran
  · rw [named] at ran
    obtain ⟨id, middle, stored, rest⟩ := Effect.bind_eq_ok.mp ran
    obtain rfl : middle = after := (Prod.mk.inj rest).2
    rw [onStore, Effect.focus_apply] at stored
    cases outcome : ctx.mailboxStore.createMailbox ⟨user, [quoted name]⟩ before.store with
    | mk result store =>
        rw [outcome] at stored
        cases stored
        exact ⟨id, rfl⟩
  · have answers := congrArg ImapResponse.status (Except.ok.inj (Prod.mk.inj ran).1)
    exact absurd answers (by simp [ImapResponse.no, ImapResponse.ok])

theorem not_oneMailbox {ctx : HandlerContext σ β} {user : Username} {tag name : Text}
    {world : World σ β} (tagged : ' ' ∉ tag) (plain : '"' ∉ name) :
    ¬OneMailbox ctx user tag name world := by
  intro one
  have solid : Solid ['1'] := solid_mark (by rfl)
  obtain ⟨mailbox, parsed, creation, read, refers⟩ := one.refers (.copy ['1']) solid
  rw [parse_create tagged] at creation
  rw [parse_copy tagged plain solid] at read
  cases creation
  cases read
  obtain ⟨found, later, finds, path⟩ := refers
  have looked := findMailbox_named finds
  rw [path] at looked
  have same : quoted name = name := Option.some.inj looked
  have lengths := congrArg List.length same
  rw [quoted_length] at lengths
  omega

/-- After CREATE of a quoted name the mailbox has the quotation marks in its name, where
COPY looks for it without them. -/
theorem quotedName_never {ctx : HandlerContext σ β} {user : Username} {tag name : Text}
    {before after : World σ β} (tagged : ' ' ∉ tag) (plain : '"' ∉ name)
    (named : before.session.username = some user) (created : Creates ctx tag name before after) :
    ¬OneMailbox ctx user tag name after ∧
      (∃ id, ctx.mailboxStore.createMailbox ⟨user, [quoted name]⟩ before.store =
        (.ok id, after.store)) ∧
      QuotedReadings ctx.toUppercase tag name := by
  exact ⟨not_oneMailbox tagged plain, created.store tagged named, quotedReadings _ tagged plain⟩

def beforeCreate : World Filesystem Unit := inboxWorld (inboxWith [])

def afterCreate (name : String) : World Filesystem Unit :=
  (handleCommand plainContext "a".toList (.create (quoted name.toList)) beforeCreate).2

theorem creates_afterCreate (name : String) :
    Creates plainContext "a".toList name.toList beforeCreate (afterCreate name) :=
  ⟨_, parse_create (by decide) _, rfl⟩

theorem quotedName_my_box :
    ¬OneMailbox plainContext aliceUser "a".toList "my box".toList (afterCreate "my box") :=
  (quotedName_never (by decide) (by decide) (by rfl) (creates_afterCreate "my box")).1

theorem quotedName_box :
    Creates plainContext "a".toList "box".toList beforeCreate (afterCreate "box") ∧
      ¬OneMailbox plainContext aliceUser "a".toList "box".toList (afterCreate "box") :=
  ⟨creates_afterCreate "box", not_oneMailbox (by decide) (by decide)⟩

end Rusmes
