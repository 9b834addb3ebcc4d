import Rusmes.Storage.Types

/-!
The types of `rusmes-jmap` behind the Email methods, and who owns an account. A map of a
request or of an answer is the list of its entries in the order it is walked; a moment is
counted in seconds.
-/

namespace Rusmes

open WireText

inductive JsonValue
  | null
  | bool (value : Bool)
  | number (literal : Text)
  | string (value : Text)
  | array (items : List JsonValue)
  | object (entries : List (Text × JsonValue))

def JsonValue.asBool : JsonValue → Option Bool
  | .bool value => some value
  | _ => none

def JsonValue.asObject : JsonValue → Option (List (Text × JsonValue))
  | .object entries => some entries
  | _ => none

structure Principal where
  username : Text
  accountId : Text
  scopes : List Text
  deriving DecidableEq, Repr

def scopeAdmin : Text := "rusmes:admin:any-account".toList

def dashed (character : Char) : Char := if character = '@' then '-' else character

def deriveAccountId (username : Text) : Text := "account-".toList ++ username.map dashed

def Principal.fromUsername (username : Text) : Principal :=
  { username, accountId := deriveAccountId username, scopes := [] }

def Principal.ownsAccount (principal : Principal) (requested : Text) : Bool :=
  principal.accountId = requested || principal.scopes.any (· = scopeAdmin)

structure ForbiddenError where
  requestedAccountId : Text
  principalAccountId : Text
  deriving DecidableEq, Repr

def ForbiddenError.display (error : ForbiddenError) : Text :=
  "urn:ietf:params:jmap:error:forbidden: requested account '".toList ++
    error.requestedAccountId ++ "' is not owned by principal (owns '".toList ++
      error.principalAccountId ++ "')".toList

/-- What ends a method: an error with its text, one of the two kinds of errors the methods
tell apart, or a panic. -/
inductive JmapFault
  | message (text : Text)
  | notFound (id : Text)
  | forbidden (error : ForbiddenError)
  | panicked
  deriving DecidableEq, Repr

def JmapFault.display : JmapFault → Text
  | .message text => text
  | .notFound id => "notFound: ".toList ++ id
  | .forbidden error => error.display
  | .panicked => []

structure JmapWorld (σ : Type) where
  store : σ
  draws : Nat

abbrev JmapProgram (σ : Type) := Effect JmapFault (JmapWorld σ)

/-- What the methods are given. `mailboxDirectories` gives the names of the directories the
search over all mailboxes finds under its fixed paths. -/
structure JmapContext (σ : Type) extends CaseMapping where
  messageStore : MessageStore σ
  getMessageThreadId : MessageId → Effect Text σ (Option Text)
  assignedThread : MessageMetadata → Option Text
  mailboxDirectories : Effect Text σ (List Text)
  computeBlobId : Octets → Text
  parseRfcDate : Text → Option Int
  formatRfcDate : Int → Text
  uuidError : Text → Text
  now : Nat → Int
  newUuid : Nat → BitVec 128

section Calls

variable {σ α : Type}

def stored (call : Effect Text σ α) : JmapProgram σ α := fun world =>
  let (outcome, after) := call world.store
  (outcome.mapError .message, { world with store := after })

def utcNow (ctx : JmapContext σ) : JmapProgram σ Int := fun world =>
  (.ok (ctx.now world.draws), { world with draws := world.draws + 1 })

def drawId (ctx : JmapContext σ) : JmapProgram σ (BitVec 128) := fun world =>
  (.ok (ctx.newUuid world.draws), { world with draws := world.draws + 1 })

/-- An error is handed to the caller as a value; a panic is not. -/
def caught (action : JmapProgram σ α) : JmapProgram σ (Except JmapFault α) := fun world =>
  match action world with
  | (.error .panicked, after) => (.error .panicked, after)
  | (outcome, after) => (.ok outcome, after)

def ensureAccountOwnership (requested : Text) (principal : Principal) : JmapProgram σ Unit :=
  if principal.ownsAccount requested then pure ()
  else Effect.fail (.forbidden ⟨requested, principal.accountId⟩)

end Calls

def timestampText (moment : Int) : Text :=
  if moment < 0 then '-' :: decimal moment.natAbs else decimal moment.natAbs

structure EmailAddress where
  name : Option Text
  email : Text
  deriving DecidableEq, Repr

structure Email where
  id : Text
  blobId : Text
  threadId : Option Text
  mailboxIds : List (Text × Bool)
  keywords : List (Text × Bool)
  size : Nat
  receivedAt : Int
  messageId : Option (List Text)
  inReplyTo : Option (List Text)
  references : Option (List Text)
  sender : Option (List EmailAddress)
  from_ : Option (List EmailAddress)
  to_ : Option (List EmailAddress)
  cc : Option (List EmailAddress)
  bcc : Option (List EmailAddress)
  replyTo : Option (List EmailAddress)
  subject : Option Text
  sentAt : Option Int
  hasAttachment : Bool
  preview : Option Text
  deriving DecidableEq, Repr

structure EmailGetRequest where
  accountId : Text
  ids : Option (List Text)

structure EmailGetResponse where
  accountId : Text
  state : Text
  list : List Email
  notFound : List Text
  deriving DecidableEq, Repr

structure EmailBodyPart where
  partId : Text

structure EmailBodyValue where
  value : Text

structure EmailSetObject where
  mailboxIds : List (Text × Bool)
  keywords : Option (List (Text × Bool))
  from_ : Option (List EmailAddress)
  to_ : Option (List EmailAddress)
  cc : Option (List EmailAddress)
  bcc : Option (List EmailAddress)
  replyTo : Option (List EmailAddress)
  sender : Option (List EmailAddress)
  subject : Option Text
  sentAt : Option Int
  inReplyTo : Option (List Text)
  references : Option (List Text)
  messageId : Option (List Text)
  bodyValues : Option (List (Text × EmailBodyValue))
  textBody : Option (List EmailBodyPart)

structure EmailSetRequest where
  accountId : Text
  create : Option (List (Text × EmailSetObject))
  update : Option (List (Text × JsonValue))
  destroy : Option (List Text)

structure JmapSetError where
  errorType : Text
  description : Option Text
  deriving DecidableEq, Repr

structure EmailSetResponse where
  accountId : Text
  oldState : Text
  newState : Text
  created : Option (List (Text × Email))
  updated : Option (List (Text × Option Email))
  destroyed : Option (List Text)
  notCreated : Option (List (Text × JmapSetError))
  notUpdated : Option (List (Text × JmapSetError))
  notDestroyed : Option (List (Text × JmapSetError))
  deriving DecidableEq, Repr

structure EmailFilterCondition where
  inMailbox : Option Text

structure EmailQueryRequest where
  accountId : Text
  filter : Option EmailFilterCondition
  position : Option Int64
  limit : Option UInt64
  calculateTotal : Option Bool

structure EmailQueryResponse where
  accountId : Text
  queryState : Text
  canCalculateChanges : Bool
  position : Int64
  ids : List Text
  total : Option Nat
  limit : Option UInt64
  deriving DecidableEq

end Rusmes
