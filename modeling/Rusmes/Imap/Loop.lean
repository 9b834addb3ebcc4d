import Rusmes.Imap.Messages
import Rusmes.Imap.Parser

/-!
The session loop of `server.rs`. A turn takes one line and the octets the client
sends after it, of which a literal takes what it needs; what the loop writes and
whether it goes on is the result.
-/

namespace Rusmes

open WireText ImapResponse ImapParser

variable {σ β : Type}

def writeResponse (response : ImapResponse) : Handler σ β Text := do
  let world ← Effect.read
  let (lines, session) := world.session.drainMailboxEvents world.registry
  setSession fun _ => session
  return lines.flatMap (· ++ lineEnd) ++ response.format

structure SessionLoop (σ β : Type) where
  world : World σ β
  written : Text
  deflateLayers : Nat
  ended : Bool
  log : List (ImapCommand × ImapResponse)

namespace SessionLoop

def start (world : World σ β) : SessionLoop σ β := ⟨world, [], 0, false, []⟩

def write (loop : SessionLoop σ β) (text : Text) : SessionLoop σ β :=
  { loop with written := loop.written ++ text }

def updateSession (loop : SessionLoop σ β) (change : ImapSession → ImapSession) : SessionLoop σ β :=
  { loop with world := { loop.world with session := change loop.world.session } }

/-- What follows an answer: the switch to a compressed stream, the IDLE loop up to the
client's DONE, or the end. -/
def settle (loop : SessionLoop σ β) : SessionLoop σ β :=
  if loop.world.session.compressPending then
    { loop.updateSession fun session => { session with compressPending := false } with
      deflateLayers := loop.deflateLayers + 1 }
  else
    match loop.world.session.state with
    | .idle mailboxId =>
        let tag := loop.world.session.tag.getD "A001".toList
        (loop.write (ok tag "IDLE terminated".toList).format).updateSession fun session =>
          { session with state := .selected mailboxId, tag := none }
    | .logout => { loop with ended := true }
    | _ => loop

def runCommand (ctx : HandlerContext σ β) (loop : SessionLoop σ β) (tag : Text)
    (command : ImapCommand) : SessionLoop σ β :=
  match handleCommand ctx tag command loop.world with
  | (.error _, world) => { loop with world, ended := true }
  | (.ok response, world) =>
      match writeResponse response world with
      | (.error _, world) => { loop with world, ended := true }
      | (.ok text, world) =>
          settle { loop.write text with world, log := loop.log ++ [(command, response)] }

end SessionLoop

section RunCommand

variable {ctx : HandlerContext σ β} {world : World σ β} {loop : SessionLoop σ β}

theorem drainMailboxEvents_snd (registry : MailboxRegistry) (session : ImapSession) :
    ∃ receiver, (session.drainMailboxEvents registry).2 =
      { session with mailboxEventRx := receiver } := by
  rw [ImapSession.drainMailboxEvents]
  cases session.mailboxEventRx with
  | none => exact ⟨_, rfl⟩
  | some receiver => exact ⟨_, rfl⟩

theorem SessionLoop.runCommand_eq_settle {tag : Text} {command : ImapCommand}
    {response : ImapResponse}
    (handled : handleCommand ctx tag command loop.world = (.ok response, world)) :
    ∃ events receiver, loop.runCommand ctx tag command =
      settle
        { loop with
          written := loop.written ++ (events ++ response.format)
          world := { world with session := { world.session with mailboxEventRx := receiver } }
          log := loop.log ++ [(command, response)] } := by
  obtain ⟨receiver, drained⟩ := drainMailboxEvents_snd world.registry world.session
  refine ⟨(world.session.drainMailboxEvents world.registry).1.flatMap (· ++ lineEnd), receiver, ?_⟩
  rw [runCommand, handled, ← drained]
  rfl

end RunCommand

def bufferBound : Nat := UInt64.size / 2

inductive LineReading
  | command (tag : Text) (command : ImapCommand)
  | refused (response : ImapResponse)
  | panicked
  deriving DecidableEq

/-- A line that announces a literal: the octets of the literal and two more, taken for
its line end, are read before the line is parsed as APPEND. -/
def readLiteral (line : Text) (size : Nat) (following : Octets) : LineReading :=
  if bufferBound ≤ size then .panicked
  else if following.length < size + 2 then
    .refused (bad ['*'] "Literal error: early eof".toList)
  else
    match parseAppendCommand line (following.take size) with
    | .ok (tag, command) => .command tag command
    | .error error =>
        .refused (bad ['*'] ("Literal error: Failed to parse APPEND command: ".toList ++ error))

def readCommandLine (upper : Text → Text) (line : Text) (following : Octets) : LineReading :=
  match hasLiteral line with
  | some (size, _) => readLiteral line size following
  | none =>
      match ImapParser.parseCommand upper line with
      | .ok (tag, command) => .command tag command
      | .error error => .refused (bad ['*'] ("Parse error: ".toList ++ error))

def continuation (line : Text) : Text :=
  match hasLiteral line with
  | some (_, .synchronizing) => "+ Ready for literal data\r\n".toList
  | _ => []

/-- One turn: a line the loop reads, and what the client sends after it. A line that is
not UTF-8 is a read error. -/
def SessionLoop.turn (ctx : HandlerContext σ β) (loop : SessionLoop σ β) (line following : Octets) :
    SessionLoop σ β :=
  if loop.ended then loop
  else
    match decodeUtf8 line with
    | none => { loop with ended := true }
    | some [] => { loop with ended := true }
    | some text =>
        let trimmed := trim text
        let loop := loop.write (continuation trimmed)
        match readCommandLine ctx.toUppercase trimmed following with
        | .command tag command => loop.runCommand ctx tag command
        | .refused response => loop.write response.format
        | .panicked => { loop with ended := true }

end Rusmes
