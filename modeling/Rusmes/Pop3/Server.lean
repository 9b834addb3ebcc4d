import Rusmes.Library.Table
import Rusmes.Pop3.Session

/-!
Any number of POP3 sessions over one backend, one store and one lock manager. The
handling of a connection is cut where it waits: for a line, for the lock of a
maildrop, for the maildrop itself, for an answer to be written, for deletions to be
applied. Between two such points any other connection may run.
-/

namespace Rusmes

open WireText

inductive Pop3Activity
  | reading
  | entering (username : Username) (report : LoginReport)
  | loading (username : Username) (report : LoginReport)
  | answering (response : Pop3Response)
  | closing
  | ended

inductive Heard
  | entered
  | command (command : Pop3Command) (status : Pop3Status)
  deriving DecidableEq, Repr

structure Pop3Connection where
  session : Pop3Session
  activity : Pop3Activity
  transcript : List Heard

/-- The registered users, and whether the maildrop of each is locked. -/
abbrev MaildropLockManager := Table Text Bool

namespace MaildropLockManager

def locked (manager : MaildropLockManager) (user : Text) : Bool :=
  (manager.lookup user).getD false

def tryAcquire (manager : MaildropLockManager) (user : Text) : Option MaildropLockManager :=
  if locked manager user then none else some (AList.insert user true manager)

def release (manager : MaildropLockManager) (guard : Option Text) : MaildropLockManager :=
  match guard with
  | none => manager
  | some user => AList.insert user false manager

end MaildropLockManager

inductive Pop3Input
  | line (text : Text) (entropy : Entropy)
  | hangUp
  | proceed
  | unwritten
  | vanish

inductive Pop3Happening
  | connect (timestamp : Text)
  | input (index : Nat) (input : Pop3Input)

/-- `deletions` lists the calls of `delete_messages`, with the connection that made
each; nothing reads it. -/
structure Pop3Server (β σ : Type) where
  connections : List Pop3Connection
  locks : MaildropLockManager
  auth : β
  store : σ
  deletions : List (Nat × List MessageId)

def Pop3Connection.held (connection : Pop3Connection) : Option Text :=
  match connection.activity with
  | .loading username _ => some username.text
  | .ended => none
  | _ => connection.session.maildropGuard

namespace Pop3Server

variable {β σ : Type} (services : Pop3Services β σ)

def put (server : Pop3Server β σ) (index : Nat) (connection : Pop3Connection) : Pop3Server β σ :=
  { server with connections := server.connections.set index connection }

def finish (server : Pop3Server β σ) (index : Nat) (connection : Pop3Connection) :
    Pop3Server β σ :=
  let session := { connection.session with maildropGuard := none }
  { server.put index { connection with session, activity := .ended } with
    locks := MaildropLockManager.release server.locks connection.held }

def leave (server : Pop3Server β σ) (index : Nat) (connection : Pop3Connection) :
    Pop3Server β σ :=
  if connection.session.state = .update then
    server.put index { connection with activity := .closing }
  else server.finish index connection

def heard (reading : Pop3Session.Reading) (response : Pop3Response) : List Heard :=
  match reading with
  | .command command => [.command command response.status]
  | _ => []

def receive (server : Pop3Server β σ) (index : Nat) (connection : Pop3Connection) (line : Text)
    (entropy : Entropy) : Pop3Server β σ :=
  let (handled, world) := Pop3Session.handleLine services entropy line
    ⟨connection.session, server.auth, server.store⟩
  let server := { server with auth := world.auth, store := world.store }
  match handled with
  | .answer response =>
      let reading := connection.session.readLine services line
      server.put index ⟨world.session, .answering response,
        connection.transcript ++ heard reading response⟩
  | .enter username report =>
      server.put index { connection with
        session := world.session, activity := .entering username report }

def acquire (server : Pop3Server β σ) (index : Nat) (connection : Pop3Connection)
    (username : Username) (report : LoginReport) : Pop3Server β σ :=
  match MaildropLockManager.tryAcquire server.locks username.text with
  | none =>
      server.put index { connection with
        activity := .answering (.err "maildrop locked".toList) }
  | some locks =>
      { server.put index { connection with activity := .loading username report } with locks }

def load (server : Pop3Server β σ) (index : Nat) (connection : Pop3Connection)
    (username : Username) : Pop3Server β σ :=
  let (outcome, session, store) :=
    Pop3Session.loadMailbox services username connection.session server.store
  let server := { server with store }
  match outcome with
  | .ok () =>
      let summary :=
        Pop3Session.sizeSummary session.messages.length (Pop3Session.totalSize session.messages)
      let session :=
        { session with
          username := some username, maildropGuard := some username.text, state := .transaction }
      server.put index ⟨session, .answering (.ok summary), connection.transcript ++ [.entered]⟩
  | .error _ =>
      { server.put index { connection with
          session, activity := .answering (.err "Mailbox unavailable".toList) } with
        locks := MaildropLockManager.release server.locks (some username.text) }

/-- Nothing is deleted when nothing is marked; an error is logged and forgotten. -/
def applyDeletions (server : Pop3Server β σ) (index : Nat) (session : Pop3Session) :
    Pop3Server β σ :=
  let ids := session.deletedIds
  if ids = [] then server
  else
    { server with
      store := (services.messageStore.deleteMessages ids server.store).2
      deletions := server.deletions ++ [(index, ids)] }

def advance (server : Pop3Server β σ) (index : Nat) (connection : Pop3Connection) :
    Pop3Input → Pop3Server β σ
  | .vanish =>
      match connection.activity with
      | .ended => server
      | _ => server.finish index connection
  | .line text entropy =>
      match connection.activity with
      | .reading => receive services server index connection text entropy
      | _ => server
  | .hangUp =>
      match connection.activity with
      | .reading => server.leave index connection
      | _ => server
  | .unwritten =>
      match connection.activity with
      | .answering _ => server.finish index connection
      | _ => server
  | .proceed =>
      match connection.activity with
      | .entering username report => server.acquire index connection username report
      | .loading username _ => load services server index connection username
      | .answering _ =>
          if connection.session.state = .update then server.leave index connection
          else server.put index { connection with activity := .reading }
      | .closing =>
          (applyDeletions services server index connection.session).finish index connection
      | _ => server

def step (server : Pop3Server β σ) : Pop3Happening → Pop3Server β σ
  | .connect timestamp =>
      { server with connections := server.connections ++ [⟨.new timestamp, .reading, []⟩] }
  | .input index input =>
      match server.connections[index]? with
      | none => server
      | some connection => advance services server index connection input

def run (server : Pop3Server β σ) (happenings : List Pop3Happening) : Pop3Server β σ :=
  happenings.foldl (step services) server

def start (auth : β) (store : σ) : Pop3Server β σ := ⟨[], ∅, auth, store, []⟩

end Pop3Server

end Rusmes
