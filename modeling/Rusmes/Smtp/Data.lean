import Rusmes.Library.Machine
import Rusmes.Smtp.Session

/-!
The receiver of `session/data.rs`: the lines of a message are read up to the end
of data, un-stuffed and kept in memory or, past a threshold, in a temporary file.
The reading loop is a machine on what is left of the stream.
-/

namespace Rusmes

open WireText Machine

variable {σ : Type}

inductive TempfileOperation
  | create (directory : Text)
  | write (octets : Octets)
  | flush
  | keep
  | reopen
  deriving DecidableEq, Repr

/-- What a connection needs besides the services: the outcome of operations on
temporary files, of sending octets to the client, and the two timeouts. -/
structure SmtpEnv (σ : Type) extends SmtpServices σ where
  tempfile : TempfileOperation → σ → Except Text Unit × σ
  send : Octets → σ → Bool × σ
  connectionTimeout : σ → Bool × σ
  idleTimeout : σ → Bool × σ

/-- The hybrid sink: a buffer in memory, or the contents of a temporary file once
it has been spilled. -/
inductive Sink
  | memory (memBuf : Octets)
  | spilled (contents : Octets)
  deriving DecidableEq, Repr

def Sink.empty : Sink :=
  .memory []

def Sink.octets : Sink → Octets
  | .memory memBuf => memBuf
  | .spilled contents => contents

def writeTempfile (env : SmtpEnv σ) (failure : Text) (contents octets : Octets) (world : σ) :
    Except Text Sink × σ :=
  match env.tempfile (.write octets) world with
  | (.error error, world) => (.error (failure ++ error), world)
  | (.ok (), world) => (.ok (.spilled (contents ++ octets)), world)

def spill (env : SmtpEnv σ) (config : SmtpConfig) (memBuf : Octets) (world : σ) :
    Except Text Sink × σ :=
  match env.tempfile (.create config.dataSpillDir) world with
  | (.error error, world) =>
      (.error ("Failed to create tempfile for DATA spill: ".toList ++ error), world)
  | (.ok (), world) =>
      writeTempfile env "Failed to flush mem_buf to tempfile: ".toList [] memBuf world

def writeChunk (env : SmtpEnv σ) (contents chunk : Octets) (world : σ) : Except Text Sink × σ :=
  writeTempfile env "Failed to write DATA chunk to tempfile: ".toList contents chunk world

def storeChunk (env : SmtpEnv σ) (config : SmtpConfig) (sink : Sink) (chunk : Octets) (world : σ) :
    Except Text Sink × σ :=
  match sink with
  | .spilled contents => writeChunk env contents chunk world
  | .memory memBuf =>
      if memBuf.length + chunk.length > config.dataTempfileThreshold then
        match spill env config memBuf world with
        | (.error error, world) => (.error error, world)
        | (.ok spilled, world) => writeChunk env spilled.octets chunk world
      else (.ok (.memory (memBuf ++ chunk)), world)

def saturatingAdd (first second : Nat) : Nat :=
  min (first + second) (usizeBound - 1)

/-- Dot-unstuffing: a line that starts with two dots loses one. -/
def unstuff (line : Text) : Text :=
  if ['.', '.'] <+: line then line.tail else line

structure Receiving (σ : Type) where
  input : Octets
  sink : Sink
  totalBytes : Nat
  world : σ

inductive Verdict
  | complete (sink : Sink) (messageSize : Nat)
  | tooLarge
  | failed (error : Text)
  deriving DecidableEq, Repr

structure Received (σ : Type) where
  verdict : Verdict
  input : Octets
  world : σ

def receiveStep (env : SmtpEnv σ) (config : SmtpConfig) (receiving : Receiving σ) :
    Progress (Receiving σ) (Received σ) :=
  match readLine receiving.input with
  | (.eof, input) =>
      .ended ⟨.failed "Unexpected EOF during DATA".toList, input, receiving.world⟩
  | (.invalid, input) =>
      .ended ⟨.failed "stream did not contain valid UTF-8".toList, input, receiving.world⟩
  | (.line line, input) =>
      if trim line = ['.'] then
        .ended ⟨.complete receiving.sink receiving.totalBytes, input, receiving.world⟩
      else
        let chunk := encodeUtf8 (unstuff line)
        let newTotal := saturatingAdd receiving.totalBytes chunk.length
        if newTotal > config.maxMessageSize then .ended ⟨.tooLarge, input, receiving.world⟩
        else
          match storeChunk env config receiving.sink chunk receiving.world with
          | (.error error, world) => .ended ⟨.failed error, input, world⟩
          | (.ok sink, world) => .next ⟨input, sink, newTotal, world⟩

/-- The reading loop. Every round takes an octet or ends, so the bound is never
what stops it. -/
def receiveMessage (env : SmtpEnv σ) (config : SmtpConfig) (input : Octets) (world : σ) :
    Received σ :=
  match iterate (receiveStep env config) (input.length + 1) ⟨input, .empty, 0, world⟩ with
  | .ended received => received
  | .next receiving =>
      ⟨.failed "Unexpected EOF during DATA".toList, receiving.input, receiving.world⟩

theorem readLine_shorter {stream rest : Octets} {line : Text}
    (read : readLine stream = (.line line, rest)) : rest.length < stream.length := by
  by_cases empty : stream = []
  · subst empty
    cases read
  · have shorter := takeLine_shorter empty
    simp only [readLine, List.isEmpty_iff, empty, if_false] at read
    split at read
    · simp only [Prod.mk.injEq] at read
      rw [← read.2]
      exact shorter
    · cases read

theorem receiveStep_shorter {env : SmtpEnv σ} {config : SmtpConfig} {receiving after : Receiving σ}
    (stepped : receiveStep env config receiving = .next after) :
    after.input.length < receiving.input.length := by
  simp only [receiveStep] at stepped
  split at stepped
  · cases stepped
  · cases stepped
  · rename_i line input read
    have shorter := readLine_shorter read
    split at stepped
    · cases stepped
    · split at stepped
      · cases stepped
      · split at stepped
        · cases stepped
        · simp only [Progress.next.injEq] at stepped
          rw [← stepped]
          exact shorter

theorem receiveMessage_ends (env : SmtpEnv σ) (config : SmtpConfig) (input : Octets) (world : σ) :
    iterate (receiveStep env config) (input.length + 1) ⟨input, .empty, 0, world⟩ =
      .ended (receiveMessage env config input world) := by
  obtain ⟨received, ended⟩ := iterate_ends (receiveStep env config)
    (fun receiving => receiving.input.length) (fun _ _ => receiveStep_shorter)
    ⟨input, .empty, 0, world⟩
  rw [receiveMessage, ended]

def maxAllowed (declaredSize : Nat) : Nat :=
  (declaredSize + declaredSize / 10) % usizeBound

/-- The sink as a message body. A spilled body is flushed, kept and opened again. -/
def buildMessageBody (env : SmtpEnv σ) (sink : Sink) (world : σ) :
    Except Text MessageBody × σ :=
  match sink with
  | .memory memBuf => (.ok (.small memBuf), world)
  | .spilled contents =>
      match env.tempfile .flush world with
      | (.error error, world) => (.error ("Failed to flush tempfile: ".toList ++ error), world)
      | (.ok (), world) =>
          match env.tempfile .keep world with
          | (.error error, world) => (.error ("Failed to keep tempfile: ".toList ++ error), world)
          | (.ok (), world) =>
              match env.tempfile .reopen world with
              | (.error error, world) =>
                  (.error ("Failed to open kept tempfile as LargeBody: ".toList ++ error), world)
              | (.ok (), world) => (.ok (.large ⟨contents, contents.length⟩), world)

structure AcceptedMessage where
  sender : Option MailAddress
  recipients : List MailAddress
  body : MessageBody
  deriving DecidableEq, Repr

/-- The mail `process_accepted_message` hands to the router. How header fields
are found in the octets is a parameter. -/
def acceptedMail (toLowercase : Text → Text)
    (parseHeaders : Octets → Except Text (List (Text × Text) × Nat))
    (id : MailId) (messageId : MessageId) (message : AcceptedMessage) : Except Text Mail := do
  let rawBytes := message.body.octets
  let (fields, bodyOffset) ← parseHeaders rawBytes
  let headerMap := fields.foldl
    (fun headerMap field => headerMap.insert toLowercase field.1 field.2) (∅ : HeaderMap)
  return Mail.new id messageId message.sender message.recipients
    ⟨headerMap, .small (rawBytes.drop bodyOffset)⟩ none none

theorem acceptedMail_recipients {toLowercase : Text → Text}
    {parseHeaders : Octets → Except Text (List (Text × Text) × Nat)} {id : MailId}
    {messageId : MessageId} {message : AcceptedMessage} {mail : Mail}
    (accepted : acceptedMail toLowercase parseHeaders id messageId message = .ok mail) :
    mail.recipients = message.recipients := by
  cases found : parseHeaders message.body.octets with
  | error error =>
      simp only [acceptedMail, found] at accepted
      cases accepted
  | ok parsed =>
      simp only [acceptedMail, found] at accepted
      cases accepted
      rfl

end Rusmes
