import Rusmes.Imap.Backend
import Rusmes.Imap.Steps

/-!
How often a session can be switched to a compressed stream. The flag that refuses a
second COMPRESS is cleared by the loop as soon as the first has been answered.
-/

namespace Rusmes

open WireText ImapResponse

variable {σ β : Type}

def ImapCommand.isDeflate : ImapCommand → Bool
  | .compress mechanism => eqIgnoreAsciiCase mechanism "DEFLATE".toList
  | _ => false

abbrev Exchanged := ImapCommand × ImapResponse

def granted (entry : Exchanged) : Bool := entry.1.isDeflate && entry.2.status = "OK".toList

structure CompressedOnce (loop : SessionLoop σ β) : Prop where
  grants : loop.log.countP granted ≤ 1
  layers : loop.deflateLayers ≤ 1
  refuses : ∀ {earlier entry later}, loop.log = earlier ++ entry :: later → earlier.any granted →
    entry.1.isCompress → entry.2.status = "NO".toList

/-- A step of the loop: a turn with a line of the client, or something done by others. -/
inductive LoopStep (ctx : HandlerContext σ β) (loop : SessionLoop σ β) : SessionLoop σ β → Prop
  | turn (line following : Octets) : LoopStep ctx loop (loop.turn ctx line following)
  | others (store : σ) (backend : β) (registry : MailboxRegistry) :
      LoopStep ctx loop { loop with world := { loop.world with store, backend, registry } }

abbrev LoopRun (ctx : HandlerContext σ β) := Relation.ReflTransGen (LoopStep ctx)

theorem turn_cases (ctx : HandlerContext σ β) (loop : SessionLoop σ β) (line following : Octets) :
    (∃ written ended, loop.turn ctx line following = { loop with written, ended }) ∨
      ∃ written tag command,
        loop.turn ctx line following = ({ loop with written }).runCommand ctx tag command := by
  rw [SessionLoop.turn]
  split
  · exact .inl ⟨_, _, rfl⟩
  · split
    · exact .inl ⟨_, _, rfl⟩
    · exact .inl ⟨_, _, rfl⟩
    · dsimp only
      split
      · exact .inr ⟨_, _, _, rfl⟩
      · exact .inl ⟨_, _, rfl⟩
      · exact .inl ⟨_, _, rfl⟩

/-! The invariant: between two turns the flag is down, so every COMPRESS DEFLATE is
granted. -/

structure Steady (loop : SessionLoop σ β) : Prop where
  manned : Manned loop.world
  down : loop.world.session.compressPending = false
  layers : loop.deflateLayers = loop.log.countP fun entry => entry.1.isDeflate
  answers : ∀ entry ∈ loop.log, entry.1.isCompress →
    entry.2.status = if entry.1.isDeflate then "OK".toList else "NO".toList

section Steps

variable {ctx : HandlerContext σ β} {chosen : Choice} {compressing : Prop}
  {world after : World σ β} {loop later : SessionLoop σ β}

theorem compressPending_reaches
    (reaches : Reaches ctx (fun _ _ _ => True) (fun _ _ => True) chosen compressing world after)
    (other : ¬compressing) :
    after.session.compressPending = world.session.compressPending := by
  induction reaches with
  | refl => rfl
  | tail _ action ih =>
      rw [← ih]
      cases action with
      | compress asked => exact absurd asked other
      | store | authenticate | login | logout | select | watch | idle | close | publish
      | draw => rfl

theorem settle_manned (manned : Manned loop.world)
    (down : loop.world.session.compressPending = false) :
    Manned loop.settle.world ∧ loop.settle.world.session.compressPending = false ∧
      loop.settle.deflateLayers = loop.deflateLayers ∧ loop.settle.log = loop.log := by
  rw [SessionLoop.settle, if_neg (by rw [down]; decide)]
  split
  · rename_i id idling
    refine ⟨?_, down, rfl, rfl⟩
    refine manned.moves (idling ▸ ImapState.active_idle id) rfl ?_
    rintro id (held | held) <;> cases held
    exact manned.mailbox (.inr idling)
  · exact ⟨manned, down, rfl, rfl⟩
  · exact ⟨manned, down, rfl, rfl⟩

theorem Steady.serve (steady : Steady loop) (tag : Text) {command : ImapCommand}
    (other : ¬command.isCompress) : Steady (loop.runCommand ctx tag command) := by
  have within := @handleCommand_within _ _ ctx _ _ _ tag (anything_known ctx) steady.manned command
  have manned := steady.manned.reaches (anything_known ctx) within
  have same := compressPending_reaches within other
  rcases handled : handleCommand ctx tag command loop.world with ⟨outcome, world⟩
  rw [handled] at manned same
  have down : world.session.compressPending = false := same.trans steady.down
  cases outcome with
  | error error =>
      rw [SessionLoop.runCommand, handled]
      exact ⟨manned, down, steady.layers, steady.answers⟩
  | ok response =>
      obtain ⟨events, receiver, run⟩ := SessionLoop.runCommand_eq_settle handled
      have plain : command.isDeflate = false := by
        cases command with
        | compress mechanism => exact absurd trivial other
        | _ => rfl
      rw [run]
      obtain ⟨manned, down, layers, log⟩ := @settle_manned _ _
        { loop with
          written := loop.written ++ (events ++ response.format)
          world := { world with session := { world.session with mailboxEventRx := receiver } }
          log := loop.log ++ [(command, response)] } ⟨manned.user, manned.mailbox⟩ down
      refine ⟨manned, down, ?_, ?_⟩
      · rw [layers, log, List.countP_append, steady.layers]
        simp [plain]
      · rw [log]
        intro entry member asked
        rcases List.mem_append.mp member with member | member
        · exact steady.answers entry member asked
        · rw [List.mem_singleton.mp member] at asked
          exact absurd asked other

theorem Steady.compress (steady : Steady loop) (tag mechanism : Text) :
    Steady (loop.runCommand ctx tag (.compress mechanism)) := by
  by_cases deflate : eqIgnoreAsciiCase mechanism "DEFLATE".toList
  · have handled : handleCommand ctx tag (.compress mechanism) loop.world =
        (.ok (ok tag "[COMPRESSIONACTIVE] Begin DEFLATE compression".toList),
          { loop.world with session := { loop.world.session with compressPending := true } }) := by
      rw [handleCommand, handleCompress, Effect.read_bind, if_neg (not_not.mpr deflate),
        if_neg (by rw [steady.down]; decide)]
      rfl
    obtain ⟨events, receiver, run⟩ := SessionLoop.runCommand_eq_settle handled
    rw [run, SessionLoop.settle, if_pos rfl]
    refine ⟨⟨steady.manned.user, steady.manned.mailbox⟩, rfl, ?_, ?_⟩
    · change loop.deflateLayers + 1 = (loop.log ++ [_]).countP _
      rw [List.countP_append, ← steady.layers, List.countP_singleton]
      exact congrArg _ (if_pos deflate).symm
    · intro entry member asked
      rcases List.mem_append.mp member with member | member
      · exact steady.answers entry member asked
      · rw [List.mem_singleton.mp member]
        exact (if_pos deflate).symm
  · have handled : handleCommand ctx tag (.compress mechanism) loop.world =
        (.ok (no tag ("COMPRESS: unsupported mechanism ".toList ++ mechanism)), loop.world) := by
      rw [handleCommand, handleCompress, Effect.read_bind, if_pos deflate]
      rfl
    obtain ⟨events, receiver, run⟩ := SessionLoop.runCommand_eq_settle handled
    rw [run]
    obtain ⟨manned, down, layers, log⟩ := @settle_manned _ _
      { loop with
        written := loop.written ++ (events ++
          (no tag ("COMPRESS: unsupported mechanism ".toList ++ mechanism)).format)
        world :=
          { loop.world with session := { loop.world.session with mailboxEventRx := receiver } }
        log := loop.log ++
          [(.compress mechanism, no tag ("COMPRESS: unsupported mechanism ".toList ++ mechanism))] }
      ⟨steady.manned.user, steady.manned.mailbox⟩ steady.down
    refine ⟨manned, down, ?_, ?_⟩
    · rw [layers, log, List.countP_append, ← steady.layers, List.countP_singleton]
      exact (Nat.add_eq_left.mpr (if_neg deflate)).symm
    · rw [log]
      intro entry member asked
      rcases List.mem_append.mp member with member | member
      · exact steady.answers entry member asked
      · rw [List.mem_singleton.mp member]
        exact (if_neg deflate).symm

theorem Steady.step (steady : Steady loop) (step : LoopStep ctx loop later) : Steady later := by
  cases step with
  | turn line following =>
      rcases turn_cases ctx loop line following with
        ⟨written, ended, turned⟩ | ⟨written, tag, command, turned⟩
      · rw [turned]
        exact ⟨steady.manned, steady.down, steady.layers, steady.answers⟩
      · rw [turned]
        have ready : Steady { loop with written } :=
          ⟨steady.manned, steady.down, steady.layers, steady.answers⟩
        by_cases asked : command.isCompress
        · cases command with
          | compress mechanism => exact ready.compress tag mechanism
          | _ => cases asked
        · exact ready.serve tag asked
  | others store backend registry =>
      exact ⟨⟨steady.manned.user, steady.manned.mailbox⟩, steady.down, steady.layers,
        steady.answers⟩

theorem steady_start (new : world.session = .new) : Steady (SessionLoop.start world) := by
  refine ⟨⟨?_, ?_⟩, ?_, rfl, nofun⟩
  · change world.session.state.Active → _
    rw [new]
    exact fun active => absurd rfl active.1
  · change ∀ {id}, world.session.state = .selected id ∨ world.session.state = .idle id → _
    rw [new]
    rintro id (held | held) <;> cases held
  · change world.session.compressPending = false
    rw [new]
    rfl

theorem Steady.run (steady : Steady loop) (run : LoopRun ctx loop later) : Steady later := by
  induction run with
  | refl => exact steady
  | tail _ step ih => exact ih.step step

/-- A session that was asked once is compressed once, and only such a session. -/
theorem compressed_once_iff (ctx : HandlerContext σ β) (new : world.session = .new)
    (run : LoopRun ctx (SessionLoop.start world) loop) :
    CompressedOnce loop ↔ (loop.log.countP fun entry => entry.1.isDeflate) ≤ 1 := by
  have steady := (steady_start new).run run
  constructor
  · intro once
    rw [← steady.layers]
    exact once.layers
  · intro asked
    constructor
    · refine le_trans (List.countP_mono_left fun entry _ granted => ?_) asked
      exact (Bool.and_eq_true _ _ ▸ granted).1
    · rw [steady.layers]
      exact asked
    · intro earlier entry others split granted compresses
      have answered := steady.answers entry (by rw [split]; simp) compresses
      by_cases deflate : entry.1.isDeflate
      · -- an earlier grant and this one would be two
        obtain ⟨first, member, grant⟩ := List.any_eq_true.mp granted
        have positive : 0 < earlier.countP fun entry => entry.1.isDeflate :=
          List.countP_pos_iff.mpr ⟨first, member, (Bool.and_eq_true _ _ ▸ grant).1⟩
        rw [split, List.countP_append, List.countP_cons, if_pos deflate] at asked
        omega
      · rwa [if_neg deflate] at answered

end Steps

def newcomerWorld : World Filesystem Unit :=
  { inboxWorld Filesystem.freshStore with session := .new }

def compressLine : Octets := encodeUtf8 "a COMPRESS DEFLATE\r\n".toList

theorem compressed_once_asked_once : ∃ loop,
    LoopRun plainContext (SessionLoop.start newcomerWorld) loop ∧ loop.log.length = 1 ∧
      CompressedOnce loop := by
  have first : LoopRun plainContext (SessionLoop.start newcomerWorld) _ :=
    .single (.turn compressLine [])
  refine ⟨_, first, rfl, ?_⟩
  exact (compressed_once_iff plainContext rfl first).mpr (by decide)

theorem compressed_twice : ∃ loop,
    LoopRun plainContext (SessionLoop.start newcomerWorld) loop ∧ loop.deflateLayers = 2 ∧
      ¬CompressedOnce loop := by
  have first : LoopRun plainContext (SessionLoop.start newcomerWorld) _ :=
    .single (.turn compressLine [])
  have second := first.tail (.turn compressLine [])
  refine ⟨_, second, rfl, ?_⟩
  intro once
  exact absurd once.layers (by decide)

end Rusmes
