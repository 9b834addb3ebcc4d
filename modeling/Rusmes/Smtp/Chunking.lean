import Rusmes.Smtp.Dialogue

/-!
What becomes of the octets after a BDAT command. The command is checked and
answered, and the loop goes on with the next line of the stream, so that only an
empty chunk is dealt with as announced.
-/

namespace Rusmes

open WireText Machine

variable {σ : Type}

def SmtpSession.accumulated (session : SmtpSession) : Octets :=
  (session.transaction.bdatState.getD (.new session.config.maxMessageSize)).chunks

theorem SmtpSession.handleBdat_accepted {session : SmtpSession} {chunkSize : Nat}
    (accepted : (session.handleBdat chunkSize).1.code = 250) :
    (session.handleBdat chunkSize).2.transaction.bdatState =
      some (session.transaction.bdatState.getD (.new session.config.maxMessageSize)) := by
  simp only [handleBdat] at accepted ⊢
  split at accepted
  · cases accepted
  · split at accepted
    · cases accepted
    · rename_i transacting valid
      simp only [transacting, valid, if_false]
      split <;> rfl

namespace Connection

theorem awaitLine_input {env : SmtpEnv σ} {connection after : Connection σ} {line : Text}
    (awaited : connection.awaitLine env = .line line after) :
    after.input = (takeLine connection.input).2 := by
  simp only [awaitLine] at awaited
  split at awaited
  · cases awaited
  · split at awaited
    · cases awaited
    · split at awaited
      · cases awaited
      · cases awaited
      · rename_i read
        cases awaited
        exact readLine_rest read

theorem turn_bdat {env : SmtpEnv σ} {connection after : Connection σ} {chunkSize : Nat}
    {last : Bool} (commanded : connection.happening env = .command (.bdat chunkSize last))
    (accepted : (connection.session.handleBdat chunkSize).1.code = 250)
    (went : connection.turn env = .next after) :
    after.input = (takeLine connection.input).2 ∧ after.queued = connection.queued ∧
      after.session.transaction.bdatState =
        some (connection.session.transaction.bdatState.getD
          (.new connection.session.config.maxMessageSize)) := by
  have turned := turn_next went
  rw [commanded] at turned
  cases turned with
  | command line next idle awaited command parsed went =>
      obtain ⟨session, queue, _⟩ := awaitLine_kept awaited
      obtain ⟨moved, queued, input, _⟩ := commandTurn_step went
      refine ⟨input.trans (awaitLine_input awaited), queued.trans queue, ?_⟩
      rw [moved, session]
      exact SmtpSession.handleBdat_accepted accepted

/-- What is to become of the chunk announced by a BDAT command: its octets are gone
from the stream, and the accumulator holds them or, with the last chunk, all that
has been accumulated is queued as one message. -/
structure TakesChunk (connection after : Connection σ) (chunkSize : Nat) (last : Bool) : Prop where
  consumed : after.input = (takeLine connection.input).2.drop chunkSize
  held : last = false → ∃ state, after.session.transaction.bdatState = some state ∧
    state.chunks =
      connection.session.accumulated ++ (takeLine connection.input).2.take chunkSize
  queued : last = true → ∃ body, after.queued = connection.queued ++
    [⟨connection.session.transaction.sender, connection.session.transaction.recipients, body⟩] ∧
    body.octets =
      connection.session.accumulated ++ (takeLine connection.input).2.take chunkSize

/-- An accepted chunk is dealt with as announced exactly when it is empty and not
the last. -/
theorem turn_takesChunk_iff (env : SmtpEnv σ) (connection after : Connection σ) (chunkSize : Nat)
    (last : Bool) (commanded : connection.happening env = .command (.bdat chunkSize last))
    (accepted : (connection.session.handleBdat chunkSize).1.code = 250)
    (went : connection.turn env = .next after) :
    TakesChunk connection after chunkSize last ↔
      (chunkSize = 0 ∨ (takeLine connection.input).2 = []) ∧ last = false := by
  obtain ⟨untouched, same, kept⟩ := turn_bdat commanded accepted went
  constructor
  · intro taken
    have unlast : last = false := by
      cases last with
      | false => rfl
      | true =>
          obtain ⟨body, grown, _⟩ := taken.queued rfl
          rw [same] at grown
          exact absurd (congrArg List.length grown) (by simp)
    obtain ⟨state, found, chunks⟩ := taken.held unlast
    rw [kept] at found
    cases found
    have empty : (takeLine connection.input).2.take chunkSize = [] :=
      List.append_right_eq_self.mp chunks.symm
    exact ⟨List.take_eq_nil_iff.mp empty, unlast⟩
  · rintro ⟨nothing, rfl⟩
    have empty : (takeLine connection.input).2.take chunkSize = [] :=
      List.take_eq_nil_iff.mpr nothing
    refine ⟨?_, ?_, ?_⟩
    · have whole := List.take_append_drop chunkSize (takeLine connection.input).2
      rw [empty, List.nil_append] at whole
      rw [untouched, whole]
    · intro _
      refine ⟨_, kept, ?_⟩
      rw [empty, List.append_nil]
      rfl
    · intro impossible
      cases impossible

end Connection

def chunkDialogue (chunks : String) : Opening Unit :=
  scripted mxConfig ("EHLO client\r\nMAIL FROM:<alice@example.com>\r\n" ++
    "RCPT TO:<bob@example.com>\r\n" ++ chunks)

theorem emptyChunk_taken :
    ∃ connection after,
      (chunkDialogue "BDAT 0\r\nNOOP\r\n").Reaches openEnv 3 connection ∧
      connection.turn openEnv = .next after ∧
      Connection.TakesChunk connection after 0 false := by
  have ran : ((chunkDialogue "BDAT 0\r\nNOOP\r\n").run openEnv 3).goesOn
      (fun connection => connection.happening openEnv = .command (.bdat 0 false) ∧
        (connection.session.handleBdat 0).1.code = 250 ∧
        (connection.turn openEnv).goesOn (fun _ => true) = true) = true := by
    decide +kernel
  obtain ⟨connection, reached, found⟩ := Progress.goesOn_iff.mp ran
  rw [decide_eq_true_eq] at found
  obtain ⟨commanded, accepted, continues⟩ := found
  obtain ⟨after, went, _⟩ := Progress.goesOn_iff.mp continues
  exact ⟨connection, after, reached, went,
    (Connection.turn_takesChunk_iff openEnv connection after 0 false commanded accepted went).mpr
      ⟨Or.inl rfl, rfl⟩⟩

/-- The six octets of the chunk are the line of a command, and are taken for one. -/
theorem chunk_executed :
    ∃ connection after,
      (chunkDialogue "BDAT 6\r\nQUIT\r\n").Reaches openEnv 3 connection ∧
      connection.session.state = .mailTransaction ∧
      connection.session.transaction.isValid = true ∧
      connection.happening openEnv = .command (.bdat 6 false) ∧
      (connection.session.handleBdat 6).1.code = 250 ∧
      connection.turn openEnv = .next after ∧
      ¬Connection.TakesChunk connection after 6 false ∧
      after.happening openEnv = .command .quit := by
  have ran : ((chunkDialogue "BDAT 6\r\nQUIT\r\n").run openEnv 3).goesOn
      (fun connection => connection.session.state = .mailTransaction ∧
        connection.session.transaction.isValid = true ∧
        connection.happening openEnv = .command (.bdat 6 false) ∧
        (connection.session.handleBdat 6).1.code = 250 ∧
        (takeLine connection.input).2.drop 6 = [] ∧
        (connection.turn openEnv).goesOn (fun after =>
          after.input ≠ [] ∧ after.happening openEnv = .command .quit) = true) = true := by
    decide +kernel
  obtain ⟨connection, reached, found⟩ := Progress.goesOn_iff.mp ran
  rw [decide_eq_true_eq] at found
  obtain ⟨transacting, valid, commanded, accepted, whole, continues⟩ := found
  obtain ⟨after, went, left⟩ := Progress.goesOn_iff.mp continues
  rw [decide_eq_true_eq] at left
  refine ⟨connection, after, reached, transacting, valid, commanded, accepted, went, ?_, left.2⟩
  intro taken
  exact left.1 (taken.consumed.trans whole)

end Rusmes
