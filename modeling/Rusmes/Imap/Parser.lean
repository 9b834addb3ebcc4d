import Rusmes.Imap.Command
import Rusmes.Library.Recognizer

/-!
The command parser of `parser.rs`: a line is a tag, a space and a command line, which
the first of the recognisers that accepts its beginning takes. A line with a size in
braces anywhere after its last opening brace is read as APPEND with a literal.
-/

namespace Rusmes.ImapParser

open WireText Recognizer

variable {α : Type}

def word : Recognizer Text := takeWhile1 fun character => !isWhitespace character

def bare (name : String) (command : α) : Recognizer α := fun input => do
  let (input, _) ← tagNoCase name.toList input
  some (input, command)

def withWord (name : String) (build : Text → α) : Recognizer α := fun input => do
  let (input, _) ← tagNoCase name.toList input
  let (input, _) ← space1 input
  let (input, first) ← word input
  some (input, build first)

def withTwoWords (name : String) (build : Text → Text → α) : Recognizer α := fun input => do
  let (input, _) ← tagNoCase name.toList input
  let (input, _) ← space1 input
  let (input, first) ← word input
  let (input, _) ← space1 input
  let (input, second) ← word input
  some (input, build first second)

def withRest (name : String) (build : Text → α) : Recognizer α := fun input => do
  let (input, _) ← tagNoCase name.toList input
  let (input, _) ← space1 input
  let (input, remaining) ← rest input
  some (input, build remaining)

def withWordAndRest (name : String) (build : Text → Text → α) : Recognizer α := fun input => do
  let (input, _) ← tagNoCase name.toList input
  let (input, _) ← space1 input
  let (input, first) ← word input
  let (input, _) ← space1 input
  let (input, remaining) ← rest input
  some (input, build first remaining)

def withTwoWordsAndRest (name : String) (build : Text → Text → Text → α) : Recognizer α :=
  fun input => do
    let (input, _) ← tagNoCase name.toList input
    let (input, _) ← space1 input
    let (input, first) ← word input
    let (input, _) ← space1 input
    let (input, second) ← word input
    let (input, _) ← space1 input
    let (input, remaining) ← rest input
    some (input, build first second remaining)

/-! The commands. -/

def storeMode (text : Text) : StoreMode :=
  if eqIgnoreAsciiCase text "FLAGS".toList then .replace
  else if eqIgnoreAsciiCase text "+FLAGS".toList then .add
  else if eqIgnoreAsciiCase text "-FLAGS".toList then .remove
  else .replace

def flagList (text : Text) : List Text :=
  let flags := trim text
  if flags.head? = some '(' ∧ flags.getLast? = some ')' then splitWhitespace flags.tail.dropLast
  else [flags]

def mailboxName (text : Text) : Text := trimQuotes (trim text)

def parseUidFetch : Recognizer UidSubcommand :=
  withWordAndRest "FETCH" fun sequence items => .fetch sequence (splitWhitespace items)

def parseUidStore : Recognizer UidSubcommand :=
  withTwoWordsAndRest "STORE" fun sequence mode flags =>
    .store sequence (storeMode mode) (flagList flags)

def parseUidSearch : Recognizer UidSubcommand :=
  withRest "SEARCH" fun criteria => .search (splitWhitespace criteria)

def parseUidCopy : Recognizer UidSubcommand :=
  withWordAndRest "COPY" fun sequence mailbox => .copy sequence (mailboxName mailbox)

def parseUidMove : Recognizer UidSubcommand :=
  withWordAndRest "MOVE" fun sequence mailbox => .move sequence (mailboxName mailbox)

def parseUidExpunge : Recognizer UidSubcommand :=
  withRest "EXPUNGE" fun sequence => .expunge (trim sequence)

def parseUid : Recognizer ImapCommand := fun input => do
  let (input, _) ← tagNoCase "UID".toList input
  let (input, _) ← space1 input
  let (input, subcommand) ← alt [parseUidFetch, parseUidStore, parseUidSearch, parseUidCopy,
    parseUidMove, parseUidExpunge] input
  some (input, .uid subcommand)

def parseLogin : Recognizer ImapCommand := withTwoWords "LOGIN" .login

def parseAuthenticate (upper : Text → Text) : Recognizer ImapCommand := fun input => do
  let (input, _) ← tagNoCase "AUTHENTICATE".toList input
  let (input, _) ← space1 input
  let (input, mechanism) ← word input
  let (input, initialResponse) ← opt (preceded space1 rest) input
  some (input, .authenticate (upper mechanism) (initialResponse.map trim))

def parseSelect : Recognizer ImapCommand := withWord "SELECT" .select

def parseExamine : Recognizer ImapCommand := withWord "EXAMINE" .examine

def parseFetch : Recognizer ImapCommand :=
  withWordAndRest "FETCH" fun sequence items => .fetch sequence (splitWhitespace items)

def parseStore : Recognizer ImapCommand :=
  withTwoWordsAndRest "STORE" fun sequence mode flags =>
    .store sequence (storeMode mode) (flagList flags)

def parseSearch : Recognizer ImapCommand :=
  withRest "SEARCH" fun criteria => .search (splitWhitespace criteria)

def parseList : Recognizer ImapCommand := withTwoWords "LIST" .list

def parseLsub : Recognizer ImapCommand := withTwoWords "LSUB" .lsub

def parseSubscribe : Recognizer ImapCommand :=
  withRest "SUBSCRIBE" fun mailbox => .subscribe (trim mailbox)

def parseUnsubscribe : Recognizer ImapCommand :=
  withRest "UNSUBSCRIBE" fun mailbox => .unsubscribe (trim mailbox)

def parseCreateSpecialUse : Recognizer ImapCommand :=
  withWordAndRest "CREATE-SPECIAL-USE" fun mailbox specialUse =>
    .createSpecialUse (trim mailbox) (trim specialUse)

def parseCreate : Recognizer ImapCommand := withRest "CREATE" fun mailbox => .create (trim mailbox)

def parseDelete : Recognizer ImapCommand := withRest "DELETE" fun mailbox => .delete (trim mailbox)

def parseRename : Recognizer ImapCommand :=
  withWordAndRest "RENAME" fun old new => .rename (trimQuotes old) (mailboxName new)

def parseCopy : Recognizer ImapCommand :=
  withWordAndRest "COPY" fun sequence mailbox => .copy sequence (mailboxName mailbox)

def parseMove : Recognizer ImapCommand :=
  withWordAndRest "MOVE" fun sequence mailbox => .move sequence (mailboxName mailbox)

def parseExpunge : Recognizer ImapCommand := bare "EXPUNGE" .expunge

def parseClose : Recognizer ImapCommand := bare "CLOSE" .close

def parseCapability : Recognizer ImapCommand := bare "CAPABILITY" .capability

def parseLogout : Recognizer ImapCommand := bare "LOGOUT" .logout

def parseNoop : Recognizer ImapCommand := bare "NOOP" .noop

def parseIdle : Recognizer ImapCommand := bare "IDLE" .idle

def parseNamespace : Recognizer ImapCommand := bare "NAMESPACE" .namespace

def parseCompress (upper : Text → Text) : Recognizer ImapCommand :=
  withWord "COMPRESS" fun mechanism => .compress (upper mechanism)

def parseImapCommandGroup1 (upper : Text → Text) : Recognizer ImapCommand :=
  alt [parseUid, parseLogin, parseAuthenticate upper, parseSelect, parseExamine, parseFetch,
    parseStore, parseSearch, parseList, parseLsub, parseSubscribe, parseUnsubscribe]

def parseImapCommandGroup2 (upper : Text → Text) : Recognizer ImapCommand :=
  alt [parseCreateSpecialUse, parseCreate, parseDelete, parseRename, parseCopy, parseMove,
    parseExpunge, parseClose, parseCapability, parseLogout, parseNoop, parseIdle, parseNamespace,
    parseCompress upper]

def parseImapCommand (upper : Text → Text) : Recognizer ImapCommand :=
  alt [parseImapCommandGroup1 upper, parseImapCommandGroup2 upper]

def parseFailure (input : Text) : Text :=
  let report (stopped : Text) (code : String) :=
    "Parsing Error: Error \x7b input: \"".toList ++ stopped.flatMap escapeDebug ++
      "\", code: ".toList ++ code.toList ++ " \x7d".toList
  match tagNoCase "COMPRESS".toList input with
  | none => report input "Tag"
  | some (after, _) =>
      match space1 after with
      | none => report after "Space"
      | some (argument, _) => report argument "TakeWhile1"

def parseCommand (upper : Text → Text) (input : Text) : Except Text (Text × ImapCommand) :=
  match splitOnce ' ' input with
  | none => .error "No command specified".toList
  | some (tag, commandLine) =>
      match parseImapCommand upper commandLine with
      | some (_, command) => .ok (tag, command)
      | none => .error (parseFailure commandLine)

structure AppendScan where
  parts : List Text
  current : Text
  inQuotes : Bool
  inParens : Bool

def AppendScan.push (scan : AppendScan) : AppendScan :=
  if scan.current = [] then scan else { scan with parts := scan.parts ++ [scan.current] }

def scanAppendArgs : AppendScan → Text → AppendScan
  | scan, [] => scan
  | scan, character :: rest =>
      let kept := { scan with current := scan.current ++ [character] }
      if character = '"' then scanAppendArgs { kept with inQuotes := !scan.inQuotes } rest
      else if character = '(' ∧ ¬scan.inQuotes then
        scanAppendArgs { kept with inParens := true } rest
      else if character = ')' ∧ ¬scan.inQuotes then
        scanAppendArgs { kept with inParens := false } rest
      else if character = ' ' ∧ ¬scan.inQuotes ∧ ¬scan.inParens then
        scanAppendArgs { scan.push with current := [] } rest
      else if character = '\x7b' ∧ ¬scan.inQuotes then scan.push
      else scanAppendArgs kept rest

def appendParts (input : Text) : List Text :=
  let scan := scanAppendArgs ⟨[], [], false, false⟩ input
  -- what stood before the brace has been pushed already and is pushed again
  if scan.current ≠ [] ∧ scan.current.head? ≠ some '\x7b' then scan.parts ++ [scan.current]
  else scan.parts

def isFlagList (part : Text) : Bool := part.head? = some '(' && part.getLast? = some ')'

def parseAppendArgs (input : Text) : Except Text (Text × List Text × Option Text) :=
  match appendParts input with
  | [] => .error "Missing mailbox name".toList
  | first :: others =>
      let read (found : List Text × Option Text) (part : Text) :=
        if isFlagList part then (splitWhitespace part.tail.dropLast, found.2)
        else if part.head? = some '"' then (found.1, some (trimQuotes part))
        else found
      .ok (trimQuotes first, others.foldl read ([], none))

def parseAppendCommand (input : Text) (literal : Octets) : Except Text (Text × ImapCommand) :=
  match splitOnce ' ' input with
  | none => .error "Invalid APPEND command".toList
  | some (tag, commandLine) =>
      match splitOnce ' ' commandLine with
      | none => .error "Invalid APPEND command".toList
      | some (_, arguments) => do
          let (mailbox, flags, dateTime) ← parseAppendArgs arguments
          return (tag, .append mailbox flags dateTime literal)

inductive LiteralType
  | synchronizing
  | nonSynchronizing
  deriving DecidableEq, Repr

def hasLiteral (input : Text) : Option (Nat × LiteralType) :=
  match rsplitOnce '\x7b' input with
  | none => none
  | some (_, after) =>
      match splitOnce '\x7d' after with
      | none => none
      | some (size, _) =>
          if size = [] ∨ size.head? = some '+' ∨ size.head? = some '-' then none
          else if size.getLast? = some '+' then
            (parseUsize size.dropLast).map (·, .nonSynchronizing)
          else (parseUsize size).map (·, .synchronizing)

end Rusmes.ImapParser
