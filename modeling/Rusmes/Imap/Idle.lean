import Rusmes.Imap.Loop

/-!
The loop of `handle_idle_mode`: a three-way select over the client's next line, an
event of the mailbox and the polling interval. Each turn starts a new `read_line`, and
one that is dropped because another branch was first takes the octets it had already
consumed with it.
-/

namespace Rusmes

open WireText ImapResponse

/-- What the select gets: octets from the client, which the reader consumes at once, the
outcome of `recv`, or a tick with what the counters were then and whether the deadline
has passed. -/
inductive IdleInput
  | read (octets : Octets)
  | endOfInput
  | event (event : MailboxEvent)
  | lagged (skipped : Nat) (current : Except Text MailboxSnapshot)
  | channelClosed
  | tick (current : Except Text MailboxSnapshot) (expired : Bool)

/-- `line` is what the current `read_line` has consumed, `buffered` what has arrived
behind the last line end. -/
structure IdleLoop where
  session : ImapSession
  mailboxId : MailboxId
  lastState : MailboxSnapshot
  receiver : Receiver
  buffered : Octets
  line : Octets
  written : Text
  left : Bool

namespace IdleLoop

def start (session : ImapSession) (mailboxId : MailboxId) (lastState : MailboxSnapshot)
    (receiver : Receiver) : IdleLoop where
  session := { session with mailboxEventRx := none }
  mailboxId := mailboxId
  lastState := lastState
  receiver := receiver
  buffered := []
  line := []
  written := []
  left := false

def leave (loop : IdleLoop) (receiver : Option Receiver) : IdleLoop :=
  let tag := loop.session.tag.getD "A001".toList
  { loop with
    left := true
    written := loop.written ++ (ok tag "IDLE terminated".toList).format
    session :=
      { loop.session with
        mailboxEventRx := receiver, state := .selected loop.mailboxId, tag := none } }

def fail (loop : IdleLoop) : IdleLoop :=
  { loop with
    left := true
    session := { loop.session with state := .selected loop.mailboxId } }

def heard (loop : IdleLoop) (line after : Octets) : IdleLoop :=
  match decodeUtf8 line with
  | none => loop.fail
  | some text =>
      if eqIgnoreAsciiCase (trim text) "DONE".toList then loop.leave (some loop.receiver)
      else { loop with line := [], buffered := after }

def newline : UInt8 := 10

def readLine (loop : IdleLoop) (octets : Octets) : IdleLoop :=
  let available := loop.buffered ++ octets
  if newline ∈ available then
    let before := available.takeWhile (· ≠ newline)
    loop.heard (loop.line ++ before ++ [newline]) (available.drop (before.length + 1))
  else { loop with line := loop.line ++ available, buffered := [] }

def report (loop : IdleLoop) (current : MailboxSnapshot) : IdleLoop :=
  let line (changed : Bool) (count : UInt32) (keyword : String) : Text :=
    if changed then "* ".toList ++ decimal count.toNat ++ ' ' :: keyword.toList ++ lineEnd else []
  { loop with
    written := loop.written ++
      line (current.exists ≠ loop.lastState.exists) current.exists "EXISTS" ++
      line (current.recent ≠ loop.lastState.recent) current.recent "RECENT"
    lastState := current }

def interrupted (loop : IdleLoop) : IdleLoop := { loop with line := [] }

def select (loop : IdleLoop) : IdleInput → IdleLoop
  | .read octets => loop.readLine octets
  | .endOfInput =>
      -- what came last without a line end is still a line
      if loop.line ++ loop.buffered = [] then loop.leave (some loop.receiver)
      else loop.heard (loop.line ++ loop.buffered) []
  | .event event =>
      { loop.interrupted with
        written := loop.written ++ ImapSession.formatMailboxEvent event ++ lineEnd
        receiver := { loop.receiver with position := loop.receiver.position + 1 } }
  | .lagged skipped (.ok current) =>
      { loop.interrupted.report current with
        receiver := { loop.receiver with position := loop.receiver.position + skipped } }
  | .lagged _ (.error _) => loop.fail
  | .channelClosed => loop.leave none
  | .tick (.ok current) expired =>
      let polled := loop.interrupted.report current
      if expired then polled.leave (some polled.receiver) else polled
  | .tick (.error _) _ => loop.fail

def step (loop : IdleLoop) (input : IdleInput) : IdleLoop :=
  if loop.left then loop else loop.select input

def run (loop : IdleLoop) (inputs : List IdleInput) : IdleLoop := inputs.foldl step loop

end IdleLoop

namespace IdleInput

def octets : IdleInput → Octets
  | read octets => octets
  | _ => []

def exits : IdleInput → Bool
  | channelClosed => true
  | lagged _ (.error _) => true
  | tick (.error _) _ => true
  | tick (.ok _) expired => expired
  | _ => false

def interrupts : IdleInput → Bool
  | event _ | lagged _ _ | tick _ _ => true
  | _ => false

end IdleInput

def arrived (inputs : List IdleInput) : Octets := inputs.flatMap IdleInput.octets

def Undisturbed (inputs : List IdleInput) : Prop :=
  ∀ before input after, inputs = before ++ input :: after → input.interrupts →
    arrived before = [] ∨ arrived after = []

def doneLine : Octets := encodeUtf8 "DONE\r\n".toList

namespace IdleLoop

def Returned (loop : IdleLoop) : Prop :=
  loop.left = true ∧ loop.session.state = .selected loop.mailboxId

theorem heard_doneLine (loop : IdleLoop) (after : Octets) :
    (loop.heard doneLine after).Returned := by
  have done : eqIgnoreAsciiCase (trim "DONE\r\n".toList) "DONE".toList = true := by decide
  rw [heard, doneLine, decodeUtf8_encodeUtf8]
  dsimp only
  rw [if_pos done]
  exact ⟨rfl, rfl⟩

theorem heard_cut (loop : IdleLoop) {lost line : Octets} (some : lost ≠ [])
    (cut : lost ++ line = doneLine) (after : Octets) :
    loop.heard line after = { loop with line := [], buffered := after } := by
  have short : lost.length ≤ 6 := by
    have total := congrArg List.length cut
    simp only [List.length_append] at total
    have bound : doneLine.length = 6 := by decide
    omega
  have rest : line = encodeUtf8 ("DONE\r\n".toList.drop lost.length) := by
    have dropped : line = doneLine.drop lost.length := by rw [← cut, List.drop_left]
    rw [dropped]
    have ascii : ∀ skipped ≤ 6,
        doneLine.drop skipped = encodeUtf8 ("DONE\r\n".toList.drop skipped) := by decide
    exact ascii _ short
  have other : ∀ skipped ≤ 6, skipped ≠ 0 →
      eqIgnoreAsciiCase (trim ("DONE\r\n".toList.drop skipped)) "DONE".toList = false := by
    decide
  have positive : lost.length ≠ 0 := fun empty => some (List.eq_nil_of_length_eq_zero empty)
  rw [heard, rest, decodeUtf8_encodeUtf8]
  dsimp only
  rw [if_neg (by rw [other _ short positive]; decide)]

theorem newline_last {first rest : Octets} (split : first ++ rest = doneLine)
    (here : newline ∈ first) : rest = [] := by
  rcases List.eq_nil_or_concat rest with empty | ⟨body, last, whole⟩
  · exact empty
  · have ends : doneLine = encodeUtf8 "DONE\r".toList ++ [newline] := by decide
    rw [whole, List.concat_eq_append, ends, ← List.append_assoc] at split
    have same := (List.append_inj' split rfl).1
    have nowhere : newline ∉ first ++ body := by
      rw [same]
      decide
    exact absurd (List.mem_append_left _ here) nowhere

theorem readLine_part {loop : IdleLoop} {octets : Octets} (empty : loop.buffered = [])
    (nowhere : newline ∉ octets) :
    loop.readLine octets = { loop with line := loop.line ++ octets, buffered := [] } := by
  rw [readLine, empty, List.nil_append, if_neg nowhere]

theorem readLine_end {loop : IdleLoop} {lost octets : Octets} (empty : loop.buffered = [])
    (whole : lost ++ (loop.line ++ octets) = doneLine) (here : newline ∈ octets) :
    loop.readLine octets = loop.heard (loop.line ++ octets) [] := by
  -- the newline of the line is its last octet
  obtain ⟨body, last, rfl⟩ : ∃ body last, octets = body ++ [last] := by
    rcases List.eq_nil_or_concat octets with nothing | ⟨body, last, concat⟩
    · rw [nothing] at here
      cases here
    · exact ⟨body, last, by rw [concat, List.concat_eq_append]⟩
  have ends : doneLine = encodeUtf8 "DONE\r".toList ++ [newline] := by decide
  have parts : lost ++ (loop.line ++ body) ++ [last] = encodeUtf8 "DONE\r".toList ++ [newline] := by
    rw [← ends, ← whole]
    simp
  obtain ⟨same, final⟩ := List.append_inj' parts rfl
  have nowhere : newline ∉ body := by
    intro inside
    have member : newline ∈ encodeUtf8 "DONE\r".toList := by
      rw [← same]
      simp [inside]
    revert member
    decide
  rw [List.cons.inj final |>.1] at here ⊢
  have taken : (body ++ [newline]).takeWhile (· ≠ newline) = body := by
    rw [List.takeWhile_append_of_pos]
    · simp
    · intro octet member
      simp only [ne_eq, decide_not, Bool.not_eq_eq_eq_not, Bool.not_true, decide_eq_false_iff_not]
      rintro rfl
      exact nowhere member
  rw [readLine, empty, List.nil_append, if_pos here]
  dsimp only
  rw [taken]
  simp

theorem step_left {loop : IdleLoop} (left : loop.left = true) (input : IdleInput) :
    loop.step input = loop := by
  rw [step, if_pos left]

theorem run_left {loop : IdleLoop} (left : loop.left = true) (inputs : List IdleInput) :
    loop.run inputs = loop := by
  induction inputs with
  | nil => rfl
  | cons input inputs ih => rw [run, List.foldl_cons, step_left left, ← run, ih]

theorem step_going {loop : IdleLoop} (going : loop.left = false) (input : IdleInput) :
    loop.step input = loop.select input := by
  rw [step, if_neg (by rw [going]; decide)]

theorem step_exits {loop : IdleLoop} (going : loop.left = false) {input : IdleInput}
    (exits : input.exits = true) : (loop.step input).Returned := by
  rw [step_going going]
  match input, exits with
  | .channelClosed, _ => exact ⟨rfl, rfl⟩
  | .lagged skipped (.error error), _ => exact ⟨rfl, rfl⟩
  | .tick (.error error) expired, _ => exact ⟨rfl, rfl⟩
  | .tick (.ok current) true, _ => exact ⟨rfl, rfl⟩

theorem step_interrupts {loop : IdleLoop} (going : loop.left = false) {input : IdleInput}
    (stays : input.exits = false) (interrupts : input.interrupts = true) :
    (loop.step input).left = false ∧ (loop.step input).line = [] ∧
      (loop.step input).buffered = loop.buffered := by
  rw [step_going going]
  match input, stays, interrupts with
  | .event event, _, _ => exact ⟨going, rfl, rfl⟩
  | .lagged skipped (.ok current), _, _ => exact ⟨going, rfl, rfl⟩
  | .tick (.ok current) false, _, _ => exact ⟨going, rfl, rfl⟩

theorem heard_settled {loop : IdleLoop} (going : loop.left = false) (line after : Octets) :
    (loop.heard line after).left = false ∨ (loop.heard line after).Returned := by
  rw [heard]
  split
  · exact .inr ⟨rfl, rfl⟩
  · split
    · exact .inr ⟨rfl, rfl⟩
    · exact .inl going

theorem step_settled {loop : IdleLoop} (going : loop.left = false) (input : IdleInput) :
    (loop.step input).left = false ∨ (loop.step input).Returned := by
  by_cases exits : input.exits = true
  · exact .inr (step_exits going exits)
  by_cases interrupts : input.interrupts = true
  · exact .inl (step_interrupts going (Bool.eq_false_of_not_eq_true exits) interrupts).1
  rw [step_going going]
  match input, exits, interrupts with
  | .read octets, _, _ =>
      rw [select, readLine]
      dsimp only
      split
      · exact heard_settled going _ _
      · exact .inl going
  | .endOfInput, _, _ =>
      rw [select]
      split
      · exact .inr ⟨rfl, rfl⟩
      · exact heard_settled going _ _
  | .event _, _, interrupts => exact absurd rfl interrupts
  | .lagged _ _, _, interrupts => exact absurd rfl interrupts
  | .tick _ _, _, interrupts => exact absurd rfl interrupts
  | .channelClosed, exits, _ => exact absurd rfl exits

/-! Runs. -/

theorem run_cons (loop : IdleLoop) (input : IdleInput) (inputs : List IdleInput) :
    loop.run (input :: inputs) = (loop.step input).run inputs := rfl

theorem run_settled {loop : IdleLoop} (going : loop.left = false) (inputs : List IdleInput) :
    (loop.run inputs).left = false ∨ (loop.run inputs).Returned := by
  induction inputs generalizing loop with
  | nil => exact .inl going
  | cons input inputs ih =>
      rw [run_cons]
      rcases step_settled going input with going | returned
      · exact ih going
      · rw [run_left returned.1]
        exact .inr returned

theorem run_exits {loop : IdleLoop} (going : loop.left = false) {inputs : List IdleInput}
    (exits : inputs.any IdleInput.exits = true) : (loop.run inputs).Returned := by
  induction inputs generalizing loop with
  | nil => cases exits
  | cons input inputs ih =>
      rw [run_cons]
      rcases step_settled going input with still | returned
      · rw [List.any_cons, Bool.or_eq_true] at exits
        rcases exits with now | later
        · have returned := (step_exits going now).1
          rw [still] at returned
          cases returned
        · exact ih still later
      · rw [run_left returned.1]
        exact returned

/-- Nothing but the client's octets and harmless interruptions. -/
def Quiet (inputs : List IdleInput) : Prop :=
  ∀ input ∈ inputs, input.exits = false ∧ input ≠ .endOfInput

theorem quiet_cons {input : IdleInput} {inputs : List IdleInput} (quiet : Quiet (input :: inputs)) :
    ((∃ octets, input = .read octets) ∨ input.interrupts = true) ∧ input.exits = false ∧
      Quiet inputs := by
  obtain ⟨stays, going⟩ := quiet input List.mem_cons_self
  refine ⟨?_, stays, fun other member => quiet other (List.mem_cons_of_mem _ member)⟩
  cases input with
  | read octets => exact .inl ⟨octets, rfl⟩
  | endOfInput => exact absurd rfl going
  | channelClosed => cases stays
  | event | lagged | tick => exact .inr rfl

theorem arrived_read (octets : Octets) (inputs : List IdleInput) :
    arrived (.read octets :: inputs) = octets ++ arrived inputs := rfl

theorem arrived_interrupts {input : IdleInput} (interrupts : input.interrupts = true)
    (inputs : List IdleInput) : arrived (input :: inputs) = arrived inputs := by
  cases input with
  | read | endOfInput | channelClosed => cases interrupts
  | event | lagged | tick => rfl

theorem run_lost {loop : IdleLoop} {inputs : List IdleInput} (going : loop.left = false)
    (empty : loop.buffered = []) {lost : Octets} (some : lost ≠ [])
    (cut : lost ++ (loop.line ++ arrived inputs) = doneLine) (quiet : Quiet inputs) :
    (loop.run inputs).left = false := by
  induction inputs generalizing loop lost with
  | nil => exact going
  | cons input inputs ih =>
      obtain ⟨⟨octets, rfl⟩ | interrupts, stays, quiet⟩ := quiet_cons quiet
      · rw [run_cons, step_going going, select]
        rw [arrived_read] at cut
        by_cases here : newline ∈ octets
        · have ended : arrived inputs = [] := by
            have split : lost ++ (loop.line ++ octets) ++ arrived inputs = doneLine := by
              rw [← cut]
              simp
            exact newline_last split (by simp [here])
          rw [ended, List.append_nil] at cut
          rw [readLine_end empty cut here, heard_cut loop some cut]
          have all : doneLine ++ ([] ++ arrived inputs) = doneLine := by rw [ended]; decide
          exact ih going rfl (by decide) all quiet
        · rw [readLine_part empty here]
          exact ih going rfl some (by rw [← cut, List.append_assoc]) quiet
      · rw [run_cons]
        obtain ⟨going, line, buffered⟩ := step_interrupts going stays interrupts
        rw [arrived_interrupts interrupts, ← List.append_assoc] at cut
        refine ih going (buffered.trans empty) (List.append_ne_nil_of_left_ne_nil some loop.line) ?_
          quiet
        rw [line]
        exact cut

theorem arrived_append (first second : List IdleInput) :
    arrived (first ++ second) = arrived first ++ arrived second := List.flatMap_append

theorem newline_read {line octets : Octets} (whole : line ++ octets = doneLine)
    (some : octets ≠ []) : newline ∈ octets := by
  have last : (line ++ octets).getLast? = .some newline := by
    rw [whole]
    decide
  rw [List.getLast?_append_of_ne_nil _ some] at last
  exact List.mem_of_getLast? last

theorem run_left_iff {loop : IdleLoop} {inputs : List IdleInput} (going : loop.left = false)
    (empty : loop.buffered = []) (whole : loop.line ++ arrived inputs = doneLine)
    (waiting : arrived inputs ≠ []) (quiet : Quiet inputs) :
    (loop.run inputs).left = true ↔
      ∀ before input after, inputs = before ++ input :: after → input.interrupts = true →
        loop.line ++ arrived before = [] ∨ arrived after = [] := by
  induction inputs generalizing loop with
  | nil => exact absurd rfl waiting
  | cons input inputs ih =>
      obtain ⟨⟨octets, rfl⟩ | interrupts, stays, quiet⟩ := quiet_cons quiet
      · rw [arrived_read] at whole waiting
        rw [run_cons, step_going going, select]
        by_cases here : newline ∈ octets
        · have ended : arrived inputs = [] :=
            newline_last (by rw [← whole, List.append_assoc]) (List.mem_append_right loop.line here)
          rw [ended, List.append_nil] at whole
          have returned := heard_doneLine loop []
          rw [readLine_end empty (by rw [List.nil_append, whole]) here, whole,
            run_left returned.1]
          refine iff_of_true returned.1 ?_
          intro before input after split interrupts
          cases before with
          | nil =>
              cases split
              cases interrupts
          | cons first before =>
              rw [List.cons_append, List.cons.injEq] at split
              rw [split.2, arrived_append] at ended
              have tail := (List.append_eq_nil_iff.mp ended).2
              exact .inr (List.append_eq_nil_iff.mp tail).2
        · rw [readLine_part empty here]
          have still : arrived inputs ≠ [] := by
            intro ended
            rw [ended, List.append_nil] at whole waiting
            exact here (newline_read whole waiting)
          have later := @ih { loop with line := loop.line ++ octets, buffered := [] } going rfl
            (by rw [← whole, List.append_assoc]) still quiet
          rw [later]
          constructor
          · intro heard before input after split interrupts
            cases before with
            | nil =>
                cases split
                cases interrupts
            | cons first before =>
                rw [List.cons_append, List.cons.injEq] at split
                obtain ⟨rfl, split⟩ := split
                rw [arrived_read, ← List.append_assoc]
                exact heard before input after split interrupts
          · intro heard before input after split interrupts
            have early := heard (.read octets :: before) input after (by rw [split]; rfl) interrupts
            rwa [arrived_read, ← List.append_assoc] at early
      · rw [run_cons]
        obtain ⟨goes, line, buffered⟩ := step_interrupts going stays interrupts
        rw [arrived_interrupts interrupts] at whole waiting
        by_cases unread : loop.line = []
        · rw [ih goes (buffered.trans empty) (by rw [line, ← unread, whole]) waiting quiet, line,
            unread]
          constructor
          · intro heard before other after split others
            cases before with
            | nil => exact .inl rfl
            | cons first before =>
                rw [List.cons_append, List.cons.injEq] at split
                obtain ⟨rfl, split⟩ := split
                rw [arrived_interrupts interrupts]
                exact heard before other after split others
          · intro heard before other after split others
            have later := heard (input :: before) other after (by rw [split]; rfl) others
            rwa [arrived_interrupts interrupts] at later
        · have lost := run_lost goes (buffered.trans empty) unread (by rw [line]; exact whole) quiet
          rw [lost]
          refine iff_of_false (by decide) ?_
          intro heard
          rcases heard [] input inputs rfl interrupts with nothing | nothing
          · exact unread (List.append_eq_nil_iff.mp nothing).1
          · exact waiting nothing

end IdleLoop

/-- DONE is heard exactly when no other branch of the select comes between two parts of
it, unless the loop ends for another reason anyway. -/
theorem idle_hears_done_iff (session : ImapSession) (id : MailboxId) (lastState : MailboxSnapshot)
    (receiver : Receiver) {inputs : List IdleInput} (sent : arrived inputs = doneLine)
    (connected : ∀ input ∈ inputs, input ≠ .endOfInput) :
    ((IdleLoop.start session id lastState receiver).run inputs).Returned ↔
      inputs.any IdleInput.exits = true ∨ Undisturbed inputs := by
  by_cases exits : inputs.any IdleInput.exits = true
  · exact iff_of_true (IdleLoop.run_exits rfl exits) (.inl exits)
  · have quiet : IdleLoop.Quiet inputs := by
      intro input member
      refine ⟨?_, connected input member⟩
      by_contra leaves
      exact exits (List.any_eq_true.mpr ⟨input, member, Bool.eq_true_of_not_eq_false leaves⟩)
    have left := @IdleLoop.run_left_iff (.start session id lastState receiver) inputs rfl rfl
      sent (by rw [sent]; decide) quiet
    have settled := @IdleLoop.run_settled (.start session id lastState receiver) rfl inputs
    rw [or_iff_right exits]
    constructor
    · intro returned
      exact left.mp returned.1
    · intro undisturbed
      have gone := left.mpr undisturbed
      rcases settled with going | returned
      · rw [gone] at going
        cases going
      · exact returned

def idlingSession : ImapSession :=
  { ImapSession.new with state := .idle ⟨0⟩, tag := some "a".toList }

def eventFirst : List IdleInput :=
  [.event (.exists 1), .read (encodeUtf8 "DO".toList), .read (encodeUtf8 "NE\r\n".toList)]

theorem idle_hears_done_event_first : arrived eventFirst = doneLine ∧
    ((IdleLoop.start idlingSession ⟨0⟩ ⟨0, 0⟩ ⟨⟨0⟩, 0⟩).run eventFirst).Returned := by
  refine ⟨by decide, ?_⟩
  apply (idle_hears_done_iff idlingSession ⟨0⟩ ⟨0, 0⟩ ⟨⟨0⟩, 0⟩ (by decide) ?_).mpr
  · right
    intro before input after split interrupts
    match before, split with
    | [], _ => exact .inl rfl
    | [_], split =>
        cases split
        cases interrupts
    | [_, _], split =>
        cases split
        cases interrupts
    | _ :: _ :: _ :: rest, split => cases rest <;> cases split
  · intro input member
    simp only [eventFirst, List.mem_cons, List.not_mem_nil, or_false] at member
    rcases member with rfl | rfl | rfl <;> nofun

def eventBetween : List IdleInput :=
  [.read (encodeUtf8 "DO".toList), .event (.exists 1), .read (encodeUtf8 "NE\r\n".toList)]

theorem idle_deaf_event_between : arrived eventBetween = doneLine ∧
    ¬((IdleLoop.start idlingSession ⟨0⟩ ⟨0, 0⟩ ⟨⟨0⟩, 0⟩).run eventBetween).Returned := by
  refine ⟨by decide, ?_⟩
  have going := @IdleLoop.run_lost _ [.read (encodeUtf8 "NE\r\n".toList)]
    (rfl : (IdleLoop.run (.start idlingSession ⟨0⟩ ⟨0, 0⟩ ⟨⟨0⟩, 0⟩)
      (eventBetween.take 2)).left = false) rfl (encodeUtf8 "DO".toList) (by decide) (by decide)
    (by intro input member; rw [List.mem_singleton.mp member]; exact ⟨rfl, nofun⟩)
  intro returned
  cases going.symm.trans returned.1

theorem settle_eq_idle {σ β : Type} {loop : SessionLoop σ β} {id : MailboxId} {receiver : Receiver}
    (plain : loop.world.session.compressPending = false)
    (idling : loop.world.session.state = .idle id)
    (watching : loop.world.session.mailboxEventRx = some receiver) (lastState : MailboxSnapshot) :
    let idle := (IdleLoop.start loop.world.session id lastState receiver).run [.read doneLine]
    loop.settle.world.session = idle.session ∧ loop.settle.written = loop.written ++ idle.written := by
  have heard : (IdleLoop.start loop.world.session id lastState receiver).run [.read doneLine] =
      (IdleLoop.start loop.world.session id lastState receiver).leave (some receiver) := by
    have done : eqIgnoreAsciiCase (trim "DONE\r\n".toList) "DONE".toList = true := by decide
    have read := @IdleLoop.readLine_end (.start loop.world.session id lastState receiver) [] doneLine
      rfl rfl (by decide)
    rw [IdleLoop.run_cons, IdleLoop.step_going rfl, IdleLoop.select, read]
    rw [IdleLoop.run, List.foldl_nil, IdleLoop.start, List.nil_append, IdleLoop.heard, doneLine,
      decodeUtf8_encodeUtf8]
    dsimp only
    rw [if_pos done]
  rw [heard, SessionLoop.settle, if_neg (by rw [plain]; decide), idling]
  refine ⟨?_, rfl⟩
  simp [SessionLoop.updateSession, SessionLoop.write, IdleLoop.leave, IdleLoop.start, watching]

end Rusmes
