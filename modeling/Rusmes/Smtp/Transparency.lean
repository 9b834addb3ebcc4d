import Rusmes.Smtp.Payload

/-!
Dot-stuffing, there and back. A client that doubles the leading dots of its lines
and ends with a single dot has its message accepted line by line, as long as no
line is a dot among white space and the sizes it keeps to are those it announced.
-/

namespace Rusmes

open WireText Machine

variable {σ : Type}

def crlf : Text := ['\r', '\n']

def stuff (line : Text) : Text :=
  if line.head? = some '.' then '.' :: line else line

def transmitted (lines : List Text) : Octets :=
  (lines.map fun line => encodeUtf8 (stuff line ++ crlf)).flatten ++ endOfData

def messageOctets (lines : List Text) : Octets :=
  (lines.map fun line => encodeUtf8 (line ++ crlf)).flatten

theorem unstuff_stuff (line : Text) : unstuff (stuff line ++ crlf) = line ++ crlf := by
  cases line with
  | nil => rfl
  | cons first rest =>
      by_cases dot : first = '.'
      · subst dot
        simp [stuff, unstuff]
      · have single : ¬['.', '.'] <+: first :: rest ++ crlf := by
          rintro ⟨others, shape⟩
          exact dot (List.cons.inj shape).1.symm
        simp only [stuff, List.head?_cons, Option.some.injEq, dot, if_false, unstuff, single]

theorem trim_append_crlf {line : Text} (dotted : trim (line ++ crlf) = ['.']) :
    trim line = ['.'] := by
  have solid : isWhitespace '.' = false := by decide
  obtain ⟨before, after, shape, leading, trailing⟩ := (trim_eq_singleton solid _).mp dotted
  rcases List.append_eq_append_iff.mp shape with ⟨gap, _, ending⟩ | ⟨inner, rfl, ending⟩
  · have inside : '.' ∈ crlf := by
      rw [ending]
      simp
    exact absurd inside (by decide)
  · cases inner with
    | nil =>
        have inside : '.' ∈ crlf := by
          rw [List.nil_append] at ending
          rw [← ending]
          simp
        exact absurd inside (by decide)
    | cons first others =>
        rw [List.cons_append, List.cons.injEq] at ending
        obtain ⟨rfl, rfl⟩ := ending
        refine (trim_eq_singleton solid _).mpr ⟨before, others, rfl, leading, ?_⟩
        intro blank member
        exact trailing blank (List.mem_append_left _ member)

theorem trim_stuff {line : Text} (undotted : line.head? ≠ some '.' → trim line ≠ ['.']) :
    trim (stuff line ++ crlf) ≠ ['.'] := by
  have solid : isWhitespace '.' = false := by decide
  by_cases dot : line.head? = some '.'
  · obtain ⟨rest, rfl⟩ := List.head?_eq_some_iff.mp dot
    intro dotted
    obtain ⟨before, after, shape, leading, trailing⟩ := (trim_eq_singleton solid _).mp dotted
    simp only [stuff, List.head?_cons, if_true, List.cons_append] at shape
    cases before with
    | nil =>
        rw [List.nil_append, List.cons.injEq] at shape
        have blank := trailing '.' (by rw [← shape.2]; exact List.mem_cons_self)
        rw [solid] at blank
        cases blank
    | cons first others =>
        rw [List.cons_append, List.cons.injEq] at shape
        have blank := leading '.' (by rw [shape.1]; exact List.mem_cons_self)
        rw [solid] at blank
        cases blank
  · simp only [stuff, dot, if_false]
    intro dotted
    exact undotted dot (trim_append_crlf dotted)

theorem newline_absent {line : Text} (unbroken : '\n' ∉ line) :
    (10 : UInt8) ∉ encodeUtf8 (stuff line ++ ['\r']) := by
  have octet := ascii_mem_encodeUtf8 (by decide : '\n'.toNat < 128) (stuff line ++ ['\r'])
  intro member
  have inside : '\n' ∈ stuff line ++ ['\r'] := octet.mp member
  simp only [stuff] at inside
  split at inside
  · simp [unbroken] at inside
  · simp [unbroken] at inside

theorem splitLines_transmitted {lines : List Text} (unbroken : ∀ line ∈ lines, '\n' ∉ line)
    (rest : Octets) :
    splitLines (transmitted lines ++ rest) =
      lines.map (fun line => encodeUtf8 (stuff line ++ crlf)) ++ endOfData :: splitLines rest := by
  induction lines with
  | nil => exact splitLines_line (by decide : (10 : UInt8) ∉ [46, 13]) rest
  | cons line lines ih =>
      have first : encodeUtf8 (stuff line ++ crlf) = encodeUtf8 (stuff line ++ ['\r']) ++ [10] := by
        rw [show stuff line ++ crlf = (stuff line ++ ['\r']) ++ ['\n'] by simp [crlf],
          encodeUtf8_append]
        rfl
      have shape : transmitted (line :: lines) ++ rest =
          encodeUtf8 (stuff line ++ ['\r']) ++ 10 :: (transmitted lines ++ rest) := by
        simp only [transmitted, List.map_cons, List.flatten_cons, first, List.append_assoc,
          List.cons_append, List.nil_append]
      rw [shape, splitLines_line (newline_absent (unbroken line List.mem_cons_self)),
        ih (fun other member => unbroken other (List.mem_cons_of_mem _ member)), ← first]
      rfl

theorem unstuffOctets_transmitted (line : Text) :
    unstuffOctets (encodeUtf8 (stuff line ++ crlf)) = encodeUtf8 (line ++ crlf) := by
  rw [← encodeUtf8_unstuff (decodeUtf8_encodeUtf8 _), unstuff_stuff]

theorem unstuffOctets_map_transmitted (lines : List Text) :
    (lines.map fun line => encodeUtf8 (stuff line ++ crlf)).map unstuffOctets =
      lines.map fun line => encodeUtf8 (line ++ crlf) := by
  rw [List.map_map]
  exact List.map_congr_left fun line _ => unstuffOctets_transmitted line

theorem totalSize_le (total : Nat) (chunks : List Octets) :
    totalSize total chunks ≤ total + chunks.flatten.length := by
  induction chunks generalizing total with
  | nil => simp [totalSize]
  | cons chunk rest ih =>
      have bound := ih (saturatingAdd total chunk.length)
      have step : saturatingAdd total chunk.length ≤ total + chunk.length := Nat.min_le_left _ _
      have unfolded : totalSize total (chunk :: rest) =
          totalSize (saturatingAdd total chunk.length) rest := rfl
      rw [unfolded, List.flatten_cons, List.length_append]
      omega

section Working

variable {env : SmtpEnv σ} (files : ∀ operation world, (env.tempfile operation world).1 = .ok ())

include files

theorem tempfile_ok (operation : TempfileOperation) (world : σ) :
    ∃ next, env.tempfile operation world = (.ok (), next) := by
  refine ⟨(env.tempfile operation world).2, ?_⟩
  rw [← files operation world]

theorem writeTempfile_ok (failure : Text) (contents octets : Octets) (world : σ) :
    ∃ after next, writeTempfile env failure contents octets world = (.ok after, next) := by
  obtain ⟨next, wrote⟩ := tempfile_ok files (.write octets) world
  exact ⟨.spilled (contents ++ octets), next, by simp only [writeTempfile, wrote]⟩

theorem spill_ok (config : SmtpConfig) (memBuf : Octets) (world : σ) :
    ∃ after next, spill env config memBuf world = (.ok after, next) := by
  obtain ⟨next, created⟩ := tempfile_ok files (.create config.dataSpillDir) world
  simp only [spill, created]
  exact writeTempfile_ok files _ [] memBuf next

theorem storeChunk_ok (config : SmtpConfig) (sink : Sink) (chunk : Octets) (world : σ) :
    ∃ after next, storeChunk env config sink chunk world = (.ok after, next) := by
  cases sink with
  | spilled contents => exact writeTempfile_ok files _ contents chunk world
  | memory memBuf =>
      by_cases large : memBuf.length + chunk.length > config.dataTempfileThreshold
      · obtain ⟨spilled, between, moved⟩ := spill_ok files config memBuf world
        simp only [storeChunk, large, if_true, moved]
        exact writeTempfile_ok files _ spilled.octets chunk between
      · exact ⟨.memory (memBuf ++ chunk), world, by simp only [storeChunk, large, if_false]⟩

theorem storesAll_ok (config : SmtpConfig) (chunks : List Octets) (sink : Sink) (world : σ) :
    StoresAll env config chunks sink world := by
  induction chunks generalizing sink world with
  | nil => trivial
  | cons chunk rest ih =>
      obtain ⟨after, next, stored⟩ := storeChunk_ok files config sink chunk world
      exact ⟨after, next, stored, ih after next⟩

theorem buildMessageBody_ok (sink : Sink) (world : σ) :
    ∃ body next, buildMessageBody env sink world = (.ok body, next) ∧
      body.octets = sink.octets := by
  cases sink with
  | memory memBuf => exact ⟨.small memBuf, world, rfl, rfl⟩
  | spilled contents =>
      obtain ⟨first, flushed⟩ := tempfile_ok files .flush world
      obtain ⟨second, kept⟩ := tempfile_ok files .keep first
      obtain ⟨third, opened⟩ := tempfile_ok files .reopen second
      exact ⟨.large ⟨contents, contents.length⟩, third,
        by simp only [buildMessageBody, flushed, kept, opened], rfl⟩

theorem digestible_transmitted {config : SmtpConfig} {lines : List Text}
    (undotted : ∀ line ∈ lines, line.head? ≠ some '.' → trim line ≠ ['.'])
    (within : (messageOctets lines).length ≤ config.maxMessageSize) (world : σ) :
    Digestible env config (lines.map fun line => encodeUtf8 (stuff line ++ crlf)) .empty 0 world where
  readable := by
    intro octets member
    obtain ⟨line, inside, rfl⟩ := List.mem_map.mp member
    exact ⟨stuff line ++ crlf, decodeUtf8_encodeUtf8 _, trim_stuff (undotted line inside)⟩
  within := by
    refine Or.inr (Nat.le_trans (totalSize_le _ _) ?_)
    rw [unstuffOctets_map_transmitted, Nat.zero_add]
    exact within
  stored := storesAll_ok files config _ _ world

theorem receiveMessage_transmitted (config : SmtpConfig) {lines : List Text}
    (unbroken : ∀ line ∈ lines, '\n' ∉ line)
    (undotted : ∀ line ∈ lines, line.head? ≠ some '.' → trim line ≠ ['.'])
    (within : (messageOctets lines).length ≤ config.maxMessageSize) (rest : Octets) (world : σ) :
    ∃ sink size next,
      receiveMessage env config (transmitted lines ++ rest) world =
        ⟨.complete sink size, rest, next⟩ ∧
      sink.octets = messageOctets lines ∧ size ≤ (messageOctets lines).length := by
  have clean := digestible_transmitted files undotted within world
  obtain ⟨sink, next, digested, kept⟩ := digest_digestible clean (endOfData :: splitLines rest)
  rw [unstuffOctets_map_transmitted] at digested kept
  rw [receiveMessage_digest, splitLines_transmitted unbroken, digested, digest_endOfData,
    splitLines_flatten]
  refine ⟨sink, _, next, rfl, ?_, ?_⟩
  · rw [kept]
    rfl
  · have bound := totalSize_le 0 (lines.map fun line => encodeUtf8 (line ++ crlf))
    rw [Nat.zero_add] at bound
    exact bound

end Working

namespace Connection

theorem finishMessage_sent {env : SmtpEnv σ} (sends : ∀ octets world, (env.send octets world).1)
    (response : SmtpResponse) (messages : List AcceptedMessage) (connection : Connection σ)
    (alive : connection.broken = false) :
    ∃ after, finishMessage env response messages connection = (.ok (), after) ∧
      after.input = connection.input ∧ after.queued = connection.queued ++ messages ∧
      after.session.state = .authenticated := by
  rcases outcome : env.send (encodeUtf8 response.format) connection.world with ⟨sent, next⟩
  have fine := sends (encodeUtf8 response.format) connection.world
  rw [outcome] at fine
  simp only at fine
  subst fine
  simp only [finishMessage, writeResponse, alive, Bool.false_eq_true, if_false, outcome]
  exact ⟨_, rfl, rfl, rfl, rfl⟩

/-- The lines sent are queued as one message, octet for octet, and nothing after
the end of data is touched. -/
def AcceptsLines (env : SmtpEnv σ) (connection : Connection σ) (lines : List Text)
    (rest : Octets) : Prop :=
  ∃ after body,
    handleDataInput env connection = (.ok (), after) ∧ after.input = rest ∧
      after.session.state = .authenticated ∧
      after.queued = connection.queued ++ [⟨connection.session.transaction.sender,
        connection.session.transaction.recipients, body⟩] ∧
      body.octets = messageOctets lines

/-- A message sent with its dots doubled is accepted exactly as it was before, if
it keeps to the size limit and to the size declared, none of its lines is a dot
after white space, temporary files work and the client takes the reply. -/
theorem handleDataInput_transmitted (env : SmtpEnv σ) (connection : Connection σ)
    (lines : List Text) (rest : Octets)
    (files : ∀ operation world, (env.tempfile operation world).1 = .ok ())
    (sends : ∀ octets world, (env.send octets world).1 = true)
    (alive : connection.broken = false)
    (input : connection.input = transmitted lines ++ rest)
    (unbroken : ∀ line ∈ lines, '\r' ∉ line ∧ '\n' ∉ line)
    (within : (messageOctets lines).length ≤ connection.session.config.maxMessageSize)
    (declared : ∀ size, connection.session.transaction.declaredSize = some size →
      (messageOctets lines).length ≤ maxAllowed size)
    (undotted : ∀ line ∈ lines, line.head? ≠ some '.' → trim line ≠ ['.']) :
    AcceptsLines env connection lines rest := by
  obtain ⟨sink, size, next, received, kept, bound⟩ := receiveMessage_transmitted
    files connection.session.config (fun line member => (unbroken line member).2)
    undotted within rest connection.world
  have undeclared : exceedsDeclared connection.session.transaction size = none := by
    simp only [exceedsDeclared, Option.filter_eq_none_iff]
    intro declaredSize found
    have allowed := declared declaredSize found
    simp only [decide_eq_true_eq]
    omega
  obtain ⟨body, last, built, same⟩ := buildMessageBody_ok files sink next
  have handled : handleDataInput env connection =
      finishMessage env (.ok "Message accepted for delivery".toList)
        [⟨connection.session.transaction.sender, connection.session.transaction.recipients, body⟩]
        { connection with
          input := rest
          world := last
          session := { connection.session with transaction.messageSize := size } } := by
    simp only [handleDataInput, input, received, undeclared, built]
  obtain ⟨after, finished, left, queued, state⟩ := finishMessage_sent sends
    (.ok "Message accepted for delivery".toList)
    [⟨connection.session.transaction.sender, connection.session.transaction.recipients, body⟩]
    { connection with
      input := rest
      world := last
      session := { connection.session with transaction.messageSize := size } } alive
  exact ⟨after, body, handled.trans finished, left, state, queued, same.trans kept⟩

end Connection

def sendingLines (size : String) (lines : List Text) : Opening Unit :=
  ⟨mxConfig, .v4 0, encodeUtf8 ("EHLO client\r\nMAIL FROM:<alice@example.com>" ++ size ++
    "\r\nRCPT TO:<bob@example.com>\r\nDATA\r\n").toList ++ transmitted lines, ()⟩

theorem dottedLines_accepted :
    ∃ connection,
      (sendingLines " SIZE=20" [".".toList, "..hello".toList]).Reaches openEnv 4 connection ∧
      Connection.AcceptsLines openEnv connection [".".toList, "..hello".toList] [] := by
  have ran : ((sendingLines " SIZE=20" [".".toList, "..hello".toList]).run openEnv 4).goesOn
      (fun connection => connection.broken = false ∧
        connection.input = transmitted [".".toList, "..hello".toList] ++ [] ∧
        12 ≤ connection.session.config.maxMessageSize ∧
        connection.session.transaction.declaredSize = some 20) = true := by
    decide +kernel
  obtain ⟨connection, reached, found⟩ := Progress.goesOn_iff.mp ran
  rw [decide_eq_true_eq] at found
  obtain ⟨alive, input, within, declared⟩ := found
  refine ⟨connection, reached, Connection.handleDataInput_transmitted openEnv connection _ []
    (fun _ _ => rfl) (fun _ _ => rfl) alive input (by decide +kernel) within ?_
    (by decide +kernel)⟩
  intro size found
  rw [declared] at found
  cases found
  decide +kernel

/-- A message above the size declared is refused, and a dot after a space ends
the message before it. -/
theorem transmission_not_accepted :
    (∃ connection,
      (sendingLines " SIZE=1" ["hello".toList]).Reaches openEnv 4 connection ∧
      connection.receiving = true ∧ connection.input = transmitted ["hello".toList] ∧
      (messageOctets ["hello".toList]).length ≤ connection.session.config.maxMessageSize ∧
      ¬Connection.AcceptsLines openEnv connection ["hello".toList] []) ∧
    ∃ connection,
      (sendingLines "" [" .".toList]).Reaches openEnv 4 connection ∧
      connection.receiving = true ∧ connection.input = transmitted [" .".toList] ∧
      (messageOctets [" .".toList]).length ≤ connection.session.config.maxMessageSize ∧
      ¬Connection.AcceptsLines openEnv connection [" .".toList] [] := by
  constructor
  · have ran : ((sendingLines " SIZE=1" ["hello".toList]).run openEnv 4).goesOn
        (fun connection => connection.receiving = true ∧
          connection.input = transmitted ["hello".toList] ∧
          (messageOctets ["hello".toList]).length ≤ connection.session.config.maxMessageSize ∧
          (Connection.handleDataInput openEnv connection).2.queued = []) = true := by
      decide +kernel
    obtain ⟨connection, reached, found⟩ := Progress.goesOn_iff.mp ran
    rw [decide_eq_true_eq] at found
    obtain ⟨receiving, input, within, refused⟩ := found
    refine ⟨connection, reached, receiving, input, within, ?_⟩
    rintro ⟨after, body, handled, _, _, queued, _⟩
    rw [handled] at refused
    rw [show after.queued = [] from refused] at queued
    exact absurd queued.symm (by simp)
  · have ran : ((sendingLines "" [" .".toList]).run openEnv 4).goesOn
        (fun connection => connection.receiving = true ∧
          connection.input = transmitted [" .".toList] ∧
          (messageOctets [" .".toList]).length ≤ connection.session.config.maxMessageSize ∧
          (Connection.handleDataInput openEnv connection).2.input ≠ []) = true := by
      decide +kernel
    obtain ⟨connection, reached, found⟩ := Progress.goesOn_iff.mp ran
    rw [decide_eq_true_eq] at found
    obtain ⟨receiving, input, within, remains⟩ := found
    refine ⟨connection, reached, receiving, input, within, ?_⟩
    rintro ⟨after, body, handled, left, _⟩
    rw [handled] at remains
    exact remains left

end Rusmes
