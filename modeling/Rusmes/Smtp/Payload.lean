import Rusmes.Smtp.Dialogue

/-!
Where the text of a message ends. Reading line by line, the receiver stops at the
end of data if it can digest every line before it, and only then does the loop go
on with the command that follows. A line it cannot digest makes it stop early and
leaves the rest of the message to be read as commands.
-/

namespace Rusmes

open WireText Machine

variable {σ : Type}

def endOfData : Octets := [46, 13, 10]

def digest (env : SmtpEnv σ) (config : SmtpConfig) :
    List Octets → Sink → Nat → σ → Received σ
  | [], _, _, world => ⟨.failed "Unexpected EOF during DATA".toList, [], world⟩
  | line :: rest, sink, total, world =>
      match decodeUtf8 line with
      | none => ⟨.failed "stream did not contain valid UTF-8".toList, rest.flatten, world⟩
      | some text =>
          if trim text = ['.'] then ⟨.complete sink total, rest.flatten, world⟩
          else
            let chunk := encodeUtf8 (unstuff text)
            let newTotal := saturatingAdd total chunk.length
            if newTotal > config.maxMessageSize then ⟨.tooLarge, rest.flatten, world⟩
            else
              match storeChunk env config sink chunk world with
              | (.error error, world) => ⟨.failed error, rest.flatten, world⟩
              | (.ok sink, world) => digest env config rest sink newTotal world

theorem iterate_receiveStep_digest (env : SmtpEnv σ) (config : SmtpConfig) (lines : List Octets)
    {stream : Octets} (split : splitLines stream = lines) (sink : Sink) (total : Nat) (world : σ)
    {rounds : Nat} (enough : lines.length < rounds) :
    iterate (receiveStep env config) rounds ⟨stream, sink, total, world⟩ =
      .ended (digest env config lines sink total world) := by
  induction lines generalizing stream sink total world rounds with
  | nil =>
      have empty : stream = [] := by
        rw [← splitLines_flatten stream, split]
        rfl
      subst empty
      obtain ⟨rounds, rfl⟩ := Nat.exists_eq_succ_of_ne_zero (Nat.ne_of_gt enough)
      apply iterate_ended
      rfl
  | cons line rest ih =>
      obtain ⟨rounds, rfl⟩ := Nat.exists_eq_succ_of_ne_zero (Nat.ne_of_gt (Nat.zero_lt_of_lt enough))
      obtain ⟨read, again⟩ := readLine_splitLines split
      simp only [List.length_cons, Nat.succ_eq_add_one, Nat.add_lt_add_iff_right] at enough
      cases decoded : decodeUtf8 line with
      | none =>
          rw [decoded] at read
          apply iterate_ended
          simp [receiveStep, read, digest, decoded]
      | some text =>
          rw [decoded] at read
          by_cases dot : trim text = ['.']
          · apply iterate_ended
            simp [receiveStep, read, digest, decoded, dot]
          · by_cases large : saturatingAdd total (encodeUtf8 (unstuff text)).length >
                config.maxMessageSize
            · apply iterate_ended
              simp [receiveStep, read, digest, decoded, dot, large]
            · rcases stored : storeChunk env config sink (encodeUtf8 (unstuff text)) world with
                ⟨result, next⟩
              cases result with
              | error error =>
                  apply iterate_ended
                  simp [receiveStep, read, digest, decoded, dot, large, stored]
              | ok after =>
                  have stepped : receiveStep env config ⟨stream, sink, total, world⟩ =
                      .next ⟨rest.flatten, after,
                        saturatingAdd total (encodeUtf8 (unstuff text)).length, next⟩ := by
                    simp [receiveStep, read, dot, large, stored]
                  rw [iterate_next stepped, ih again after _ next enough]
                  simp [digest, decoded, dot, large, stored]

theorem receiveMessage_digest (env : SmtpEnv σ) (config : SmtpConfig) (input : Octets) (world : σ) :
    receiveMessage env config input world =
      digest env config (splitLines input) .empty 0 world := by
  have ended := receiveMessage_ends env config input world
  have short := splitLines_length_le input
  rw [iterate_receiveStep_digest env config (splitLines input) rfl .empty 0 world (by omega)] at ended
  exact (Progress.ended.inj ended).symm

/-! What the receiver can digest. -/

def unstuffOctets (line : Octets) : Octets :=
  if [46, 46] <+: line then line.tail else line

theorem encodeUtf8_unstuff {line : Octets} {text : Text}
    (decoded : decodeUtf8 line = some text) : encodeUtf8 (unstuff text) = unstuffOctets line := by
  have ascii : '.'.toNat < 128 := by decide
  have dot (rest : Text) : encodeUtf8 ('.' :: rest) = 46 :: encodeUtf8 rest :=
    encodeUtf8_cons_ascii ascii rest
  rw [← encodeUtf8_of_decodeUtf8 decoded]
  by_cases doubled : ['.', '.'] <+: text
  · obtain ⟨rest, rfl⟩ := doubled
    simp [unstuff, unstuffOctets, dot]
  · have single : ¬[46, 46] <+: encodeUtf8 text := by
      rintro ⟨octets, starts⟩
      obtain ⟨rest, rfl, more⟩ := encodeUtf8_eq_cons_ascii ascii starts.symm
      obtain ⟨rest, rfl, _⟩ := encodeUtf8_eq_cons_ascii ascii more
      exact doubled ⟨rest, rfl⟩
    simp [unstuff, unstuffOctets, doubled, single]

def StoresAll (env : SmtpEnv σ) (config : SmtpConfig) : List Octets → Sink → σ → Prop
  | [], _, _ => True
  | chunk :: rest, sink, world =>
      ∃ after next, storeChunk env config sink chunk world = (.ok after, next) ∧
        StoresAll env config rest after next

def totalSize (total : Nat) (chunks : List Octets) : Nat :=
  chunks.foldl (fun size chunk => saturatingAdd size chunk.length) total

/-- Every line is UTF-8 and is not a dot between white space, the message stays
within the size limit, and storing it succeeds. -/
structure Digestible (env : SmtpEnv σ) (config : SmtpConfig) (lines : List Octets) (sink : Sink)
    (total : Nat) (world : σ) : Prop where
  readable : ∀ line ∈ lines, ∃ text, decodeUtf8 line = some text ∧ trim text ≠ ['.']
  within : lines = [] ∨ totalSize total (lines.map unstuffOctets) ≤ config.maxMessageSize
  stored : StoresAll env config (lines.map unstuffOctets) sink world

theorem saturatingAdd_le (first second : Nat) : saturatingAdd first second ≤ usizeBound - 1 :=
  Nat.min_le_right _ _

theorem le_totalSize {total : Nat} (bounded : total ≤ usizeBound - 1) (chunks : List Octets) :
    total ≤ totalSize total chunks := by
  induction chunks generalizing total with
  | nil => exact Nat.le_refl total
  | cons chunk rest ih =>
      have grown : total ≤ saturatingAdd total chunk.length := by
        simp only [saturatingAdd]
        omega
      exact Nat.le_trans grown (ih (saturatingAdd_le _ _))

theorem digestible_cons {env : SmtpEnv σ} {config : SmtpConfig} {line : Octets}
    {rest : List Octets} {sink : Sink} {total : Nat} {world : σ} :
    Digestible env config (line :: rest) sink total world ↔
      ∃ text after next, decodeUtf8 line = some text ∧ trim text ≠ ['.'] ∧
        saturatingAdd total (unstuffOctets line).length ≤ config.maxMessageSize ∧
        storeChunk env config sink (unstuffOctets line) world = (.ok after, next) ∧
        Digestible env config rest after
          (saturatingAdd total (unstuffOctets line).length) next := by
  constructor
  · rintro ⟨readable, within, after, next, stored, storesRest⟩
    obtain ⟨text, decoded, undotted⟩ := readable line List.mem_cons_self
    have fits : totalSize (saturatingAdd total (unstuffOctets line).length)
        (rest.map unstuffOctets) ≤ config.maxMessageSize :=
      within.resolve_left (List.cons_ne_nil line rest)
    have first := Nat.le_trans (le_totalSize (saturatingAdd_le _ _) _) fits
    refine ⟨text, after, next, decoded, undotted, first, stored, ?_, Or.inr fits, storesRest⟩
    exact fun other member => readable other (List.mem_cons_of_mem _ member)
  · rintro ⟨text, after, next, decoded, undotted, first, stored, readable, within, storesRest⟩
    refine ⟨?_, Or.inr ?_, after, next, stored, storesRest⟩
    · intro other member
      rcases List.mem_cons.mp member with rfl | later
      · exact ⟨text, decoded, undotted⟩
      · exact readable other later
    · rcases within with rfl | fits
      · exact first
      · exact fits

theorem writeTempfile_octets {env : SmtpEnv σ} {failure : Text} {contents octets : Octets}
    {world next : σ} {after : Sink}
    (wrote : writeTempfile env failure contents octets world = (.ok after, next)) :
    after.octets = contents ++ octets := by
  simp only [writeTempfile] at wrote
  split at wrote
  · cases wrote
  · cases wrote
    rfl

theorem storeChunk_octets {env : SmtpEnv σ} {config : SmtpConfig} {sink after : Sink}
    {chunk : Octets} {world next : σ}
    (stored : storeChunk env config sink chunk world = (.ok after, next)) :
    after.octets = sink.octets ++ chunk := by
  cases sink with
  | spilled contents => exact writeTempfile_octets stored
  | memory memBuf =>
      simp only [storeChunk] at stored
      split at stored
      · split at stored
        · cases stored
        · rename_i spilled between moved
          have kept : spilled.octets = memBuf := by
            simp only [spill] at moved
            split at moved
            · cases moved
            · rw [writeTempfile_octets moved, List.nil_append]
          rw [writeTempfile_octets stored, kept]
          rfl
      · cases stored
        rfl

theorem digest_digestible {env : SmtpEnv σ} {config : SmtpConfig} {lines : List Octets} {sink : Sink}
    {total : Nat} {world : σ} (clean : Digestible env config lines sink total world)
    (rest : List Octets) :
    ∃ after next, digest env config (lines ++ rest) sink total world =
        digest env config rest after (totalSize total (lines.map unstuffOctets)) next ∧
      after.octets = sink.octets ++ (lines.map unstuffOctets).flatten := by
  induction lines generalizing sink total world with
  | nil => exact ⟨sink, world, rfl, by simp⟩
  | cons line lines ih =>
      obtain ⟨text, after, next, decoded, undotted, fits, stored, later⟩ :=
        digestible_cons.mp clean
      obtain ⟨final, last, digested, kept⟩ := ih later
      refine ⟨final, last, ?_, ?_⟩
      · have small : ¬saturatingAdd total (unstuffOctets line).length > config.maxMessageSize := by
          omega
        simp only [List.cons_append, digest, decoded, undotted, if_false,
          encodeUtf8_unstuff decoded, small, stored]
        exact digested
      · rw [kept, storeChunk_octets stored]
        simp

theorem digest_indigestible {env : SmtpEnv σ} {config : SmtpConfig} {lines : List Octets}
    {sink : Sink} {total : Nat} {world : σ}
    (unclean : ¬Digestible env config lines sink total world) (rest : List Octets) :
    rest.flatten.length ≤
      (digest env config (lines ++ rest) sink total world).input.length := by
  induction lines generalizing sink total world with
  | nil => exact absurd ⟨by simp, Or.inl rfl, trivial⟩ unclean
  | cons line lines ih =>
      have left : rest.flatten.length ≤ (lines ++ rest).flatten.length := by
        rw [List.flatten_append, List.length_append]
        omega
      simp only [List.cons_append, digest]
      split
      · exact left
      · rename_i text decoded
        split
        · exact left
        · rename_i undotted
          rw [encodeUtf8_unstuff decoded]
          split
          · exact left
          · rename_i fits
            split
            · exact left
            · rename_i after next stored
              apply ih
              intro clean
              exact unclean (digestible_cons.mpr
                ⟨text, after, next, decoded, undotted, by omega, stored, clean⟩)

/-! The payload of a stream and the command that follows it. -/

def payloadLines (input : Octets) : List Octets :=
  (splitLines input).takeWhile fun line => line ≠ endOfData

def afterPayload (input : Octets) : Option Octets :=
  match (splitLines input).dropWhile fun line => line ≠ endOfData with
  | [] => none
  | _ :: rest => some rest.flatten

/-- The lines that something is yet to follow: those before the end of data, or all
but the last of a stream without one. -/
def followedLines (input : Octets) : List Octets :=
  if afterPayload input = none then (payloadLines input).dropLast else payloadLines input

/-- The next line read as a command is the one after the end of data, and by then
the session has left state `Data`; if the data never ends, no line is read. -/
def ResumesAfterPayload (input : Octets) (after : Connection σ) : Prop :=
  match afterPayload input with
  | some rest => after.input = rest ∧ after.session.state ≠ .data
  | none => after.input = []

theorem splitLines_terminated {input rest : Octets} (found : afterPayload input = some rest) :
    ∃ tail, splitLines input = payloadLines input ++ endOfData :: tail ∧ rest = tail.flatten := by
  simp only [afterPayload] at found
  split at found
  · cases found
  · rename_i line tail dropped
    have terminator : line = endOfData := by
      have head := List.head?_dropWhile_not (fun line => decide (line ≠ endOfData))
        (splitLines input)
      rw [dropped] at head
      simpa using head
    rw [terminator] at dropped
    refine ⟨tail, ?_, (Option.some.inj found).symm⟩
    rw [payloadLines, ← dropped, List.takeWhile_append_dropWhile]

theorem splitLines_unterminated {input : Octets} (missing : afterPayload input = none) :
    splitLines input = payloadLines input := by
  simp only [afterPayload] at missing
  split at missing
  · rename_i dropped
    have whole := List.takeWhile_append_dropWhile (p := fun line => decide (line ≠ endOfData))
      (l := splitLines input)
    rw [dropped, List.append_nil] at whole
    exact whole.symm
  · cases missing

theorem digest_endOfData (env : SmtpEnv σ) (config : SmtpConfig) (tail : List Octets) (sink : Sink)
    (total : Nat) (world : σ) :
    digest env config (endOfData :: tail) sink total world =
      ⟨.complete sink total, tail.flatten, world⟩ := by
  have decoded : decodeUtf8 endOfData = some ".\r\n".toList := by decide +kernel
  have dot : trim ".\r\n".toList = ['.'] := by decide
  simp only [digest, decoded, dot, if_true]

theorem digest_last (env : SmtpEnv σ) (config : SmtpConfig) (line : Octets) (sink : Sink)
    (total : Nat) (world : σ) : (digest env config [line] sink total world).input = [] := by
  simp only [digest]
  split
  · rfl
  · split
    · rfl
    · split
      · rfl
      · split <;> rfl

namespace Connection

theorem reply_broken {env : SmtpEnv σ} {response : SmtpResponse} {connection after : Connection σ}
    (broken : connection.broken = true) : reply env response connection ≠ .next after := by
  simp [reply, writeResponse, broken]

theorem finishMessage_result {env : SmtpEnv σ} {response : SmtpResponse}
    {messages : List AcceptedMessage} {connection after : Connection σ} {result : Except Text Unit}
    (finished : finishMessage env response messages connection = (result, after)) :
    after.input = connection.input ∧
      ((result = .ok () ∧ after.session.state = .authenticated) ∨
        (result ≠ .ok () ∧ after.broken = true)) := by
  simp only [finishMessage] at finished
  split at finished
  · rename_i written wrote
    cases finished
    refine ⟨(writeResponse_kept wrote).2.2.1, Or.inr ⟨by simp, ?_⟩⟩
    simp only [writeResponse] at wrote
    split at wrote
    · rename_i already
      cases wrote
      exact already
    · split at wrote <;> cases wrote
      rfl
  · rename_i written wrote
    cases finished
    exact ⟨(writeResponse_kept wrote).2.2.1, Or.inl ⟨rfl, rfl⟩⟩

theorem handleDataInput_result {env : SmtpEnv σ} {connection after : Connection σ}
    {result : Except Text Unit} (handled : handleDataInput env connection = (result, after)) :
    after.input = (receiveMessage env connection.session.config connection.input
        connection.world).input ∧
      ((∃ error, (receiveMessage env connection.session.config connection.input
          connection.world).verdict = .failed error) ∨
        (result = .ok () ∧ after.session.state = .authenticated) ∨
        (result ≠ .ok () ∧ after.broken = true)) := by
  simp only [handleDataInput] at handled
  split at handled
  · rename_i error failed
    cases handled
    exact ⟨rfl, Or.inl ⟨error, failed⟩⟩
  · obtain ⟨input, outcome⟩ := finishMessage_result handled
    exact ⟨input, Or.inr outcome⟩
  · split at handled
    · obtain ⟨input, outcome⟩ := finishMessage_result handled
      exact ⟨input, Or.inr outcome⟩
    · split at handled
      all_goals
        obtain ⟨input, outcome⟩ := finishMessage_result handled
        exact ⟨input, Or.inr outcome⟩

theorem dataTurn_next {env : SmtpEnv σ} {connection after : Connection σ}
    (went : dataTurn env connection = .next after) :
    after.input = (receiveMessage env connection.session.config connection.input
        connection.world).input ∧
      ((∃ error, (receiveMessage env connection.session.config connection.input
          connection.world).verdict = .failed error) ∨ after.session.state = .authenticated) := by
  simp only [dataTurn] at went
  split at went
  · rename_i next handled
    obtain ⟨input, outcome⟩ := handleDataInput_result handled
    cases went
    refine ⟨input, ?_⟩
    rcases outcome with failed | ⟨_, state⟩ | ⟨unfinished, _⟩
    · exact Or.inl failed
    · exact Or.inr state
    · exact absurd rfl unfinished
  · rename_i error next handled
    obtain ⟨input, outcome⟩ := handleDataInput_result handled
    rcases outcome with failed | ⟨impossible, _⟩ | ⟨_, broken⟩
    · obtain ⟨_, _, same, _⟩ := reply_next went
      exact ⟨same.trans input, Or.inl failed⟩
    · cases impossible
    · exact absurd went (reply_broken broken)

theorem dataTurn_terminated_iff {env : SmtpEnv σ} {connection after : Connection σ}
    {tail : List Octets}
    (lines : splitLines connection.input = payloadLines connection.input ++ endOfData :: tail)
    (went : dataTurn env connection = .next after) :
    after.input = tail.flatten ∧ after.session.state ≠ .data ↔
      Digestible env connection.session.config (payloadLines connection.input) .empty 0
        connection.world := by
  obtain ⟨input, outcome⟩ := dataTurn_next went
  rw [receiveMessage_digest, lines] at input outcome
  by_cases clean : Digestible env connection.session.config (payloadLines connection.input)
      .empty 0 connection.world
  · obtain ⟨sink, next, digested, _⟩ := digest_digestible clean (endOfData :: tail)
    rw [digested, digest_endOfData] at input outcome
    have state : after.session.state = .authenticated := by
      rcases outcome with ⟨error, impossible⟩ | state
      · cases impossible
      · exact state
    simp only [clean, iff_true]
    exact ⟨input, by simp [state]⟩
  · have longer := digest_indigestible clean (endOfData :: tail)
    rw [← input, List.flatten_cons, List.length_append] at longer
    simp only [clean, iff_false]
    rintro ⟨same, _⟩
    rw [same] at longer
    simp only [endOfData, List.length_cons, List.length_nil] at longer
    omega

theorem dataTurn_unterminated_iff {env : SmtpEnv σ} {connection after : Connection σ}
    {lines : List Octets} (split : splitLines connection.input = lines)
    (went : dataTurn env connection = .next after) :
    after.input = [] ↔
      Digestible env connection.session.config lines.dropLast .empty 0 connection.world := by
  obtain ⟨input, _⟩ := dataTurn_next went
  rw [receiveMessage_digest, split] at input
  rcases List.eq_nil_or_concat lines with rfl | ⟨init, last, rfl⟩
  · have clean : Digestible env connection.session.config [] .empty 0 connection.world :=
      ⟨by simp, Or.inl rfl, trivial⟩
    simp only [List.dropLast_nil, clean, iff_true]
    exact input
  · have member : last ∈ splitLines connection.input := by
      rw [split]
      simp
    have nonempty := List.length_pos_iff.mpr (splitLines_nonempty member)
    rw [List.concat_eq_append] at input ⊢
    rw [List.dropLast_concat]
    by_cases clean : Digestible env connection.session.config init .empty 0 connection.world
    · obtain ⟨sink, next, digested, _⟩ := digest_digestible clean [last]
      rw [digested, digest_last] at input
      simp only [clean, iff_true]
      exact input
    · have longer := digest_indigestible clean [last]
      rw [← input, List.flatten_singleton] at longer
      simp only [clean, iff_false]
      intro drained
      rw [drained, List.length_nil] at longer
      omega

/-- When a turn that reads a message leaves the connection alive, the loop resumes
after the end of data exactly when every line that something follows was one the
receiver can digest. -/
theorem turn_resumes_iff (env : SmtpEnv σ) (connection after : Connection σ)
    (receiving : connection.receiving = true) (went : connection.turn env = .next after) :
    ResumesAfterPayload connection.input after ↔
      Digestible env connection.session.config (followedLines connection.input) .empty 0
        connection.world := by
  simp only [turn, receiving, if_true] at went
  cases found : afterPayload connection.input with
  | some rest =>
      obtain ⟨tail, lines, rfl⟩ := splitLines_terminated found
      simp only [ResumesAfterPayload, followedLines, found, reduceCtorEq, if_false]
      exact dataTurn_terminated_iff lines went
  | none =>
      simp only [ResumesAfterPayload, followedLines, found, if_true]
      exact dataTurn_unterminated_iff (splitLines_unterminated found) went

end Connection

def dataDialogue (payload : Octets) : Opening Unit :=
  ⟨mxConfig, .v4 0, encodeUtf8 ("EHLO client\r\nMAIL FROM:<alice@example.com>\r\n" ++
    "RCPT TO:<bob@example.com>\r\nDATA\r\n").toList ++ payload, ()⟩

theorem dataDialogue_resumes :
    ∃ connection after,
      (dataDialogue (encodeUtf8 "hello\r\n.\r\nNOOP\r\n".toList)).Reaches openEnv 4 connection ∧
      connection.receiving = true ∧ connection.turn openEnv = .next after ∧
      ResumesAfterPayload connection.input after ∧
      Digestible openEnv connection.session.config (followedLines connection.input) .empty 0
        connection.world := by
  have ran : ((dataDialogue (encodeUtf8 "hello\r\n.\r\nNOOP\r\n".toList)).run openEnv 4).goesOn
      (fun connection => connection.receiving && decide (afterPayload connection.input =
          some (encodeUtf8 "NOOP\r\n".toList)) &&
        (connection.turn openEnv).goesOn (fun after =>
          after.input = encodeUtf8 "NOOP\r\n".toList ∧ after.session.state ≠ .data)) = true := by
    decide +kernel
  obtain ⟨connection, reached, found⟩ := Progress.goesOn_iff.mp ran
  rw [Bool.and_eq_true, Bool.and_eq_true, decide_eq_true_eq] at found
  obtain ⟨after, went, left⟩ := Progress.goesOn_iff.mp found.2
  rw [decide_eq_true_eq] at left
  have resumes : ResumesAfterPayload connection.input after := by
    simp only [ResumesAfterPayload, found.1.2]
    exact left
  exact ⟨connection, after, reached, found.1.1, went, resumes,
    (Connection.turn_resumes_iff openEnv connection after found.1.1 went).mp resumes⟩

def latin1Payload : Octets :=
  [99, 97, 102, 233, 13, 10] ++ encodeUtf8 "QUIT\r\n.\r\n".toList

theorem payload_executed :
    ∃ connection after,
      (dataDialogue latin1Payload).Reaches openEnv 4 connection ∧
      connection.receiving = true ∧ connection.turn openEnv = .next after ∧
      ¬ResumesAfterPayload connection.input after ∧ after.session.state = .data ∧
      after.happening openEnv = .command .quit := by
  have ran : ((dataDialogue latin1Payload).run openEnv 4).goesOn
      (fun connection => connection.receiving && decide (afterPayload connection.input =
          some []) &&
        (connection.turn openEnv).goesOn (fun after =>
          after.session.state = .data ∧ after.happening openEnv = .command .quit)) = true := by
    decide +kernel
  obtain ⟨connection, reached, found⟩ := Progress.goesOn_iff.mp ran
  rw [Bool.and_eq_true, Bool.and_eq_true, decide_eq_true_eq] at found
  obtain ⟨after, went, left⟩ := Progress.goesOn_iff.mp found.2
  rw [decide_eq_true_eq] at left
  refine ⟨connection, after, reached, found.1.1, went, ?_, left⟩
  simp only [ResumesAfterPayload, found.1.2]
  exact fun resumed => resumed.2 left.1

end Rusmes
