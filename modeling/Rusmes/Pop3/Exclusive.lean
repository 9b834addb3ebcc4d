import Rusmes.Library.Exclusion
import Rusmes.Pop3.Maildrop

/-!
Who may touch a maildrop. At any time the connections that are in one, or signing off
from one, belong to different users; messages are deleted once, after QUIT, and are
those that were marked; a connection that has ended holds no lock.
-/

namespace Rusmes

open WireText

variable {β σ : Type} {services : Pop3Services β σ}

namespace Pop3Server

def holder (connections : List Pop3Connection) (index : Nat) : Option Text :=
  connections[index]?.bind Pop3Connection.held

structure Sound (services : Pop3Services β σ) (server : Pop3Server β σ) : Prop where
  connections : ∀ (index : Nat) (connection : Pop3Connection),
    server.connections[index]? = some connection → connection.Sound services
  exclusion : Exclusion (fun user => MaildropLockManager.locked server.locks user = true)
    (holder server.connections)
  dismissed : ∀ (index : Nat) ids, (index, ids) ∈ server.deletions →
    ∃ connection, server.connections[index]? = some connection ∧ connection.activity = .ended ∧
      SignedOff connection.transcript ∧ ids = connection.markedIds
  once : (server.deletions.map Prod.fst).Nodup

theorem holder_set {connections : List Pop3Connection} {index : Nat} {connection : Pop3Connection}
    (found : connections[index]? = some connection) (next : Pop3Connection) (other : Nat) :
    holder (connections.set index next) other =
      if other = index then next.held else holder connections other := by
  have bound := (List.getElem?_eq_some_iff.mp found).1
  rw [holder, List.getElem?_set]
  by_cases here : other = index
  · subst here
    rw [if_pos rfl, if_pos rfl, if_pos bound]
    rfl
  · rw [if_neg (Ne.symm here), if_neg here]
    rfl

section Steps

variable {server after : Pop3Server β σ} (sound : server.Sound services) {index : Nat}
  {connection : Pop3Connection} (found : server.connections[index]? = some connection)
  (alive : connection.activity ≠ .ended)

include sound found alive

theorem Sound.unlisted : index ∉ server.deletions.map Prod.fst := by
  intro listed
  obtain ⟨⟨number, ids⟩, member, same⟩ := List.mem_map.mp listed
  subst same
  obtain ⟨other, there, ended, _⟩ := sound.dismissed number ids member
  rw [found] at there
  cases there
  exact alive ended

theorem Sound.replace {next : Pop3Connection}
    (connections : after.connections = server.connections.set index next)
    (deletions : after.deletions = server.deletions) (nextSound : next.Sound services)
    (exclusion : Exclusion (fun user => MaildropLockManager.locked after.locks user = true)
      (holder after.connections)) : after.Sound services where
  connections other there located := by
    rw [connections, List.getElem?_set] at located
    by_cases here : index = other
    · rw [if_pos here] at located
      split at located
      · cases located
        exact nextSound
      · cases located
    · rw [if_neg here] at located
      exact sound.connections other there located
  exclusion := exclusion
  dismissed other ids member := by
    rw [deletions] at member
    obtain ⟨there, located, rest⟩ := sound.dismissed other ids member
    have apart : index ≠ other := fun same =>
      sound.unlisted found alive (List.mem_map.mpr ⟨(other, ids), member, same.symm⟩)
    refine ⟨there, ?_, rest⟩
    rw [connections, List.getElem?_set, if_neg apart]
    exact located
  once := deletions ▸ sound.once

theorem Sound.keep {next : Pop3Connection}
    (connections : after.connections = server.connections.set index next)
    (deletions : after.deletions = server.deletions) (locks : after.locks = server.locks)
    (nextSound : next.Sound services) (same : next.held = connection.held) :
    after.Sound services := by
  apply sound.replace found alive connections deletions nextSound
  apply sound.exclusion.keep
  · intro party
    rw [connections, holder_set found]
    split
    · next here =>
        rw [here, holder, found, same]
        rfl
    · rfl
  · intro user
    rw [locks]

theorem Sound.free {next : Pop3Connection}
    (connections : after.connections = server.connections.set index next)
    (deletions : after.deletions = server.deletions)
    (locks : after.locks = MaildropLockManager.release server.locks connection.held)
    (nextSound : next.Sound services) (none : next.held = none) : after.Sound services := by
  apply sound.replace found alive connections deletions nextSound
  have held : holder server.connections index = connection.held := by
    rw [holder, found]
    rfl
  refine @Exclusion.release _ _ _ _ _ sound.exclusion index ?_ ?_ ?_
  · rw [connections, holder_set found, if_pos rfl, none]
  · intro other apart
    rw [connections, holder_set found, if_neg apart]
  · intro user
    rw [locks, MaildropLockManager.locked_release, held]

theorem Sound.finish : (server.finish index connection).Sound services :=
  sound.free found alive rfl rfl rfl (sound.connections index connection found).ended rfl

theorem Sound.leave (going : connection.activity = .reading ∨
    ∃ response, connection.activity = .answering response) :
    (server.leave index connection).Sound services := by
  rw [Pop3Server.leave]
  split
  · refine sound.keep found alive rfl rfl rfl ?_ ?_
    · apply (sound.connections index connection found).turn
      · intro turned
        cases turned
      · intro _
        assumption
      · rintro username report (entering | loading)
        · cases entering
        · cases loading
      · exact alive
    · rcases going with reading | ⟨response, answering⟩
      · rw [Pop3Connection.held, Pop3Connection.held, reading]
      · rw [Pop3Connection.held, Pop3Connection.held, answering]
  · exact sound.finish found alive

theorem Sound.receive (going : connection.activity = .reading) (line : Text) (entropy : Entropy) :
    (receive services server index connection line entropy).Sound services := by
  have quietly := sound.connections index connection found
  have effect := @Pop3Session.effect_handleLine _ _ services
    ⟨connection.session, server.auth, server.store⟩ quietly.parked entropy line
  have held : connection.held = connection.session.maildropGuard := by
    rw [Pop3Connection.held, going]
  rw [Pop3Server.receive]
  generalize Pop3Session.handleLine services entropy line
    ⟨connection.session, server.auth, server.store⟩ = outcome at effect
  rcases outcome with ⟨handled, session, auth, store⟩
  dsimp only at effect
  cases effect with
  | quiet response after quiet silent =>
      refine sound.keep found alive rfl rfl rfl ?_ (quiet.guard.trans held.symm)
      apply quietly.quiet quiet silent going (fun same => by cases same) (fun same => by cases same)
      rintro username report (entering | loading)
      · cases entering
      · cases loading
  | enter username report after quiet outside supports settled =>
      refine sound.keep found alive rfl rfl rfl ?_ (quiet.guard.trans held.symm)
      have whole : connection.transcript = connection.transcript ++ [] := by
        rw [List.append_nil]
      rw [whole]
      apply quietly.quiet quiet (fun _ told => by cases told) going (fun same => by cases same)
        (fun same => by cases same)
      rintro other told (entering | loading)
      · cases entering
        exact ⟨outside, supports, settled⟩
      · cases loading
  | dele number message response told inside named =>
      refine sound.keep found alive rfl rfl rfl ?_ held.symm
      rw [told]
      exact quietly.dele response alive inside named
  | rset response told inside =>
      refine sound.keep found alive rfl rfl rfl ?_ held.symm
      rw [told]
      exact quietly.rset response alive inside
  | quit response told free =>
      refine sound.keep found alive rfl rfl rfl ?_ held.symm
      rw [told]
      exact quietly.signOff response alive free

theorem Sound.acquire {username : Username} {report : LoginReport}
    (going : connection.activity = .entering username report) :
    (server.acquire index connection username report).Sound services := by
  have arrived := sound.connections index connection found
  obtain ⟨outside, supports, settled⟩ := arrived.arriving username report (Or.inl going)
  rw [Pop3Server.acquire]
  cases taken : MaildropLockManager.tryAcquire server.locks username.text with
  | none =>
      refine sound.keep found alive rfl rfl rfl ?_ ?_
      · apply arrived.turn (fun same => by cases same) (fun same => by cases same) ?_ alive
        rintro username report (entering | loading)
        · cases entering
        · cases loading
      · rw [Pop3Connection.held, Pop3Connection.held, going]
  | some locks =>
      obtain ⟨free, changed⟩ := MaildropLockManager.tryAcquire_eq_some taken
      have untouched : .entered ∉ connection.transcript := fun there =>
        (arrived.inside there).1 outside
      refine sound.replace found alive rfl rfl ?_ ?_
      · apply arrived.turn (fun same => by cases same) (fun same => by cases same) ?_ alive
        rintro other told (entering | loading)
        · cases entering
        · cases loading
          exact ⟨outside, supports, settled⟩
      · refine @Exclusion.acquire _ _ _ _ _ sound.exclusion username.text index free ?_ ?_ ?_ changed
        · rw [holder, found, Option.bind_some, Pop3Connection.held, going]
          exact (arrived.outside untouched).2.1
        · exact (holder_set found _ index).trans (if_pos rfl)
        · intro other apart
          exact (holder_set found _ other).trans (if_neg apart)

theorem Sound.load {username : Username} {report : LoginReport}
    (going : connection.activity = .loading username report) :
    (load services server index connection username).Sound services := by
  have arrived := sound.connections index connection found
  obtain ⟨outside, supports, settled⟩ := arrived.arriving username report (Or.inr going)
  have untouched : .entered ∉ connection.transcript := fun there =>
    (arrived.inside there).1 outside
  have held : connection.held = some username.text := by
    rw [Pop3Connection.held, going]
  have loaded := @Pop3Session.loadMailbox_loaded _ _ services username connection.session
    server.store
  rw [Pop3Server.load]
  generalize Pop3Session.loadMailbox services username connection.session server.store = result
    at loaded
  rcases result with ⟨outcome, session, store⟩
  cases outcome with
  | ok done =>
      exact sound.keep found alive rfl rfl rfl
        (arrived.enter username _ outside loaded settled) held.symm
  | error error =>
      refine sound.free found alive rfl rfl ?_ (arrived.refused _ outside loaded) ?_
      · rw [held]
      · exact loaded.guard.trans (arrived.outside untouched).2.1

omit alive in
theorem Sound.deletedIds (there : .entered ∈ connection.transcript) :
    connection.session.deletedIds = connection.markedIds := by
  have marks := (sound.connections index connection found).marks there
  rw [Pop3Session.deletedIds, Pop3Connection.markedIds]
  have same : connection.session.messages.zipIdx.filter
      (fun entry => entry.2 + 1 ∈ accepted connection.transcript) =
      connection.session.messages.zipIdx.filter fun entry => entry.1.deleted := by
    apply List.filter_congr
    intro entry member
    rw [Bool.eq_iff_iff, decide_eq_true_eq]
    exact (marks entry.2 entry.1 (List.mem_zipIdx_iff_getElem?.mp member)).symm
  have plain : connection.session.messages =
      connection.session.messages.zipIdx.map Prod.fst := (List.zipIdx_map_fst 0 _).symm
  rw [same]
  conv_lhs => rw [plain, List.filter_map, List.map_map]
  rfl

theorem Sound.close (updating : connection.session.state = .update) :
    ((applyDeletions services server index connection.session).finish index connection).Sound
      services := by
  rw [applyDeletions]
  split
  · exact sound.finish found alive
  · next some =>
      have closing := sound.connections index connection found
      have there : .entered ∈ connection.transcript := by
        by_contra untouched
        apply some
        have unmarked := (closing.outside untouched).2.2
        rw [Pop3Session.deletedIds, List.filter_eq_nil_iff.mpr]
        · rfl
        · intro message member
          rw [unmarked message member]
          exact Bool.false_ne_true
      have bound := (List.getElem?_eq_some_iff.mp found).1
      have finished := sound.finish found alive
      refine ⟨finished.connections, finished.exclusion, ?_, ?_⟩
      · intro other ids member
        rcases List.mem_append.mp member with earlier | last
        · exact finished.dismissed other ids earlier
        · cases List.mem_singleton.mp last
          refine ⟨_, List.getElem?_set_self bound, rfl, closing.quit updating there, ?_⟩
          exact sound.deletedIds found there
      · change ((server.deletions ++ [(index, connection.session.deletedIds)]).map
          Prod.fst).Nodup
        rw [List.map_append]
        apply sound.once.append (List.nodup_singleton _)
        intro other earlier last
        cases List.mem_singleton.mp last
        exact sound.unlisted found alive earlier

end Steps

theorem Sound.advance {server : Pop3Server β σ} (sound : server.Sound services) {index : Nat}
    {connection : Pop3Connection} (found : server.connections[index]? = some connection)
    (input : Pop3Input) : (advance services server index connection input).Sound services := by
  have whole := sound.connections index connection found
  have alive : ∀ {activity : Pop3Activity}, connection.activity = activity → activity ≠ .ended →
      connection.activity ≠ .ended := fun same apart => same ▸ apart
  cases input with
  | vanish =>
      rw [Pop3Server.advance]
      split
      · exact sound
      · next going => exact sound.finish found going
  | line text entropy =>
      rw [Pop3Server.advance]
      split
      · next going =>
          exact sound.receive found (alive going fun same => by cases same) going text entropy
      · exact sound
  | hangUp =>
      rw [Pop3Server.advance]
      split
      · next going =>
          exact sound.leave found (alive going fun same => by cases same) (Or.inl going)
      · exact sound
  | unwritten =>
      rw [Pop3Server.advance]
      split
      · next going => exact sound.finish found (alive going fun same => by cases same)
      · exact sound
  | proceed =>
      rw [Pop3Server.advance]
      split
      · next going => exact sound.acquire found (alive going fun same => by cases same) going
      · next going => exact sound.load found (alive going fun same => by cases same) going
      · next response going =>
          have live := alive going fun same => by cases same
          split
          · exact sound.leave found live (Or.inr ⟨response, going⟩)
          · next staying =>
              refine sound.keep found live rfl rfl rfl ?_ ?_
              · apply whole.turn (fun _ => staying) (fun same => by cases same) ?_ live
                rintro username report (entering | loading)
                · cases entering
                · cases loading
              · rw [Pop3Connection.held, Pop3Connection.held, going]
      · next going =>
          exact sound.close found (alive going fun same => by cases same) (whole.closing going)
      · exact sound

theorem Sound.connect {server : Pop3Server β σ} (sound : server.Sound services)
    (timestamp : Text) : (step services server (.connect timestamp)).Sound services := by
  have placed : ∀ (index : Nat) (connection : Pop3Connection), server.connections[index]? = some connection →
      (server.connections ++ [⟨.new timestamp, .reading, []⟩])[index]? = some connection := by
    intro index connection found
    rw [List.getElem?_append_left (List.getElem?_eq_some_iff.mp found).1]
    exact found
  have cases : ∀ (index : Nat) (connection : Pop3Connection),
      (server.connections ++ [⟨.new timestamp, .reading, []⟩])[index]? = some connection →
      server.connections[index]? = some connection ∨
        connection = ⟨.new timestamp, .reading, []⟩ := by
    intro index connection found
    rcases Nat.lt_or_ge index server.connections.length with old | new
    · rw [List.getElem?_append_left old] at found
      exact Or.inl found
    · rw [List.getElem?_append_right new] at found
      exact Or.inr (List.mem_singleton.mp (List.mem_of_getElem? found))
  constructor
  · intro index connection found
    rcases cases index connection found with old | new
    · exact sound.connections index connection old
    · rw [new]
      exact Pop3Connection.sound_new timestamp
  · apply sound.exclusion.keep
    · intro party
      change (server.connections ++ [_])[party]?.bind Pop3Connection.held = _
      rw [holder]
      cases located : server.connections[party]? with
      | some connection => rw [placed party connection located]
      | none =>
          cases next : (server.connections ++
              [(⟨.new timestamp, .reading, []⟩ : Pop3Connection)])[party]? with
          | none => rfl
          | some connection =>
              rcases cases party connection next with old | new
              · rw [located] at old
                cases old
              · rw [new]
                rfl
    · intro user
      exact Iff.rfl
  · intro index ids member
    obtain ⟨connection, found, rest⟩ := sound.dismissed index ids member
    exact ⟨connection, placed index connection found, rest⟩
  · exact sound.once

theorem Sound.step {server : Pop3Server β σ} (sound : server.Sound services)
    (happening : Pop3Happening) : (step services server happening).Sound services := by
  cases happening with
  | connect timestamp => exact sound.connect timestamp
  | input index input =>
      rw [Pop3Server.step]
      cases found : server.connections[index]? with
      | none => exact sound
      | some connection => exact sound.advance found input

theorem sound_start (auth : β) (store : σ) : (start auth store).Sound services where
  connections index connection found := by cases found
  exclusion := Exclusion.start (fun _ locked => by cases locked) (fun _ => rfl)
  dismissed index ids member := by cases member
  once := List.nodup_nil

theorem Sound.run {server : Pop3Server β σ} (sound : server.Sound services)
    (happenings : List Pop3Happening) : (run services server happenings).Sound services := by
  induction happenings generalizing server with
  | nil => exact sound
  | cons happening happenings ih => exact ih (sound.step happening)

theorem advance_elsewhere {server : Pop3Server β σ} {index other : Nat} (apart : index ≠ other)
    (connection : Pop3Connection) (input : Pop3Input) :
    (advance services server other connection input).connections[index]? =
      server.connections[index]? := by
  have set : ∀ next, (server.connections.set other next)[index]? = server.connections[index]? :=
    fun next => List.getElem?_set_ne (Ne.symm apart)
  have leaves : (server.leave other connection).connections[index]? =
      server.connections[index]? := by
    rw [leave]
    split
    · exact set _
    · exact set _
  cases input with
  | vanish =>
      rw [advance]
      split
      · rfl
      · exact set _
  | line text entropy =>
      rw [advance]
      split
      · rw [receive]
        rcases Pop3Session.handleLine services entropy text
          ⟨connection.session, server.auth, server.store⟩ with ⟨handled, world⟩
        cases handled with
        | answer response => exact set _
        | enter username report => exact set _
      · rfl
  | hangUp =>
      rw [advance]
      split
      · exact leaves
      · rfl
  | unwritten =>
      rw [advance]
      split
      · exact set _
      · rfl
  | proceed =>
      rw [advance]
      split
      · next username report _ =>
          rw [acquire]
          cases MaildropLockManager.tryAcquire server.locks username.text with
          | none => exact set _
          | some locks => exact set _
      · next username report _ =>
          rw [load]
          rcases Pop3Session.loadMailbox services username connection.session server.store with
            ⟨outcome, session, store⟩
          cases outcome with
          | ok done => exact set _
          | error error => exact set _
      · split
        · exact leaves
        · exact set _
      · rw [applyDeletions]
        split
        · exact set _
        · exact set _
      · rfl

/-- What lets a session into a maildrop: a report for the user whose lock was taken and
whose maildrop was loaded. -/
def Admitted (services : Pop3Services β σ) (server : Pop3Server β σ)
    (before after : Pop3Connection) : Prop :=
  ∃ username report, before.activity = .loading username report ∧
    report.Supports services username ∧ after.session.username = some username ∧
    (Pop3Session.loadMailbox services username before.session server.store).1 = .ok () ∧
    after.session.mailboxId =
      (Pop3Session.loadMailbox services username before.session server.store).2.1.mailboxId

theorem get_put {server : Pop3Server β σ} {index other : Nat} {next after : Pop3Connection}
    (later : (server.put other next).connections[index]? = some after) :
    index = other ∧ after = next ∨ index ≠ other ∧ server.connections[index]? = some after := by
  rw [put, List.getElem?_set] at later
  by_cases here : other = index
  · rw [if_pos here] at later
    split at later
    · cases later
      exact Or.inl ⟨here.symm, rfl⟩
    · cases later
  · rw [if_neg here] at later
    exact Or.inr ⟨Ne.symm here, later⟩

section Admission

variable {server : Pop3Server β σ} (sound : server.Sound services) {index : Nat}
  {before after : Pop3Connection} (found : server.connections[index]? = some before)
  (outside : before.session.state ≠ .transaction) (inside : after.session.state = .transaction)

include found outside inside

theorem not_put {other : Nat} {next : Pop3Connection}
    (same : index = other → next.session.state ≠ .transaction)
    (later : (server.put other next).connections[index]? = some after) : False := by
  rcases get_put later with ⟨here, rfl⟩ | ⟨_, there⟩
  · exact same here inside
  · rw [found] at there
    cases there
    exact outside inside

include sound

theorem admitted_receive {line : Text} {entropy : Entropy}
    (later : (receive services server index before line entropy).connections[index]? = some after) :
    False := by
  have effect := @Pop3Session.effect_handleLine _ _ services
    ⟨before.session, server.auth, server.store⟩ (sound.connections index before found).parked
    entropy line
  rw [Pop3Server.receive] at later
  generalize Pop3Session.handleLine services entropy line
    ⟨before.session, server.auth, server.store⟩ = outcome at effect later
  rcases outcome with ⟨handled, session, auth, store⟩
  dsimp only at effect
  have kept : session.state ≠ .transaction := by
    cases effect with
    | quiet response after quiet silent => exact quiet.state ▸ outside
    | enter username report after quiet away supports settled => exact quiet.state ▸ outside
    | dele number message response told there named => exact absurd there outside
    | rset response told there => exact absurd there outside
    | quit response told free => exact fun same => by cases same
  cases handled with
  | answer response => exact not_put found outside inside (fun _ => kept) later
  | enter username report => exact not_put found outside inside (fun _ => kept) later

theorem admitted_load {username : Username} {report : LoginReport}
    (going : before.activity = .loading username report)
    (later : (load services server index before username).connections[index]? = some after) :
    Admitted services server before after := by
  obtain ⟨away, supports, _⟩ :=
    (sound.connections index before found).arriving username report (Or.inr going)
  have loaded := @Pop3Session.loadMailbox_loaded _ _ services username before.session server.store
  rw [Pop3Server.load] at later
  cases outcome : Pop3Session.loadMailbox services username before.session server.store with
  | mk result rest =>
      rcases rest with ⟨session, store⟩
      rw [outcome] at later loaded
      cases result with
      | error error =>
          have kept : session.state ≠ .transaction := by
            rw [loaded.state, away]
            exact fun same => by cases same
          exact absurd later fun there => not_put found outside inside (fun _ => kept) there
      | ok done =>
          rcases get_put later with ⟨_, rfl⟩ | ⟨apart, _⟩
          · refine ⟨username, report, going, supports, rfl, ?_, ?_⟩
            · rw [outcome]
            · rw [outcome]
          · exact absurd rfl apart

theorem admitted_advance {input : Pop3Input}
    (later : (advance services server index before input).connections[index]? = some after) :
    Admitted services server before after := by
  have stays : ∀ next : Pop3Connection, next.session.state = before.session.state →
      (server.put index next).connections[index]? = some after → False :=
    fun next same there => not_put found outside inside (fun _ => same ▸ outside) there
  have unmoved : server.connections[index]? = some after → False := by
    intro there
    rw [found] at there
    cases there
    exact outside inside
  have leaves : (server.leave index before).connections[index]? = some after → False := by
    intro there
    rw [leave] at there
    split at there
    · exact absurd there (stays _ rfl)
    · exact absurd there (stays _ rfl)
  cases input with
  | vanish =>
      rw [advance] at later
      split at later
      · exact absurd later unmoved
      · exact absurd later (stays _ rfl)
  | line text entropy =>
      rw [advance] at later
      split at later
      · exact absurd later (admitted_receive sound found outside inside)
      · exact absurd later unmoved
  | hangUp =>
      rw [advance] at later
      split at later
      · exact absurd later leaves
      · exact absurd later unmoved
  | unwritten =>
      rw [advance] at later
      split at later
      · exact absurd later (stays _ rfl)
      · exact absurd later unmoved
  | proceed =>
      rw [advance] at later
      split at later
      · next username report going =>
          rw [acquire] at later
          cases taken : MaildropLockManager.tryAcquire server.locks username.text with
          | none =>
              rw [taken] at later
              exact absurd later (stays _ rfl)
          | some locks =>
              rw [taken] at later
              exact absurd later (stays _ rfl)
      · next username report going =>
          exact admitted_load sound found outside inside going later
      · split at later
        · exact absurd later leaves
        · exact absurd later (stays _ rfl)
      · rw [applyDeletions] at later
        split at later
        · exact absurd later (stays _ rfl)
        · exact absurd later (stays _ rfl)
      · exact absurd later unmoved

theorem admitted_step {happening : Pop3Happening}
    (later : (step services server happening).connections[index]? = some after) :
    Admitted services server before after := by
  cases happening with
  | connect timestamp =>
      rw [step, List.getElem?_append_left (List.getElem?_eq_some_iff.mp found).1, found] at later
      cases later
      exact absurd inside outside
  | input other input =>
      rw [step] at later
      by_cases apart : index ≠ other
      · have there : server.connections[index]? = some after := by
          cases located : server.connections[other]? with
          | none => rwa [located] at later
          | some connection =>
              rw [located] at later
              exact (advance_elsewhere apart connection input).symm.trans later
        rw [found] at there
        cases there
        exact absurd inside outside
      · rw [ne_eq, not_not] at apart
        subst apart
        rw [found] at later
        exact admitted_advance sound found outside inside later

end Admission

/-- Nobody shares a maildrop, nobody gets into one without a report, messages go once
and after QUIT only, and a lock is held by a connection that is still there. -/
structure Guarded (services : Pop3Services β σ) (server : Pop3Server β σ) : Prop where
  alone : ∀ (first second : Nat) (one other : Pop3Connection) (username : Username),
    server.connections[first]? = some one → server.connections[second]? = some other →
    one.Busy → other.Busy → one.session.username = some username →
    other.session.username = some username → first = second
  admitted : ∀ (happening : Pop3Happening) (index : Nat) (before after : Pop3Connection),
    server.connections[index]? = some before →
    (step services server happening).connections[index]? = some after →
    before.session.state ≠ .transaction → after.session.state = .transaction →
    Admitted services server before after
  once : (server.deletions.map Prod.fst).Nodup
  dismissed : ∀ (index : Nat) ids, (index, ids) ∈ server.deletions →
    ∃ connection, server.connections[index]? = some connection ∧ connection.activity = .ended ∧
      SignedOff connection.transcript ∧ ids = connection.markedIds
  freed : ∀ user, MaildropLockManager.locked server.locks user →
    ∃ (index : Nat) (connection : Pop3Connection), server.connections[index]? = some connection ∧
      connection.activity ≠ .ended ∧ connection.held = some user

theorem busy_holds {connection : Pop3Connection} (sound : connection.Sound services)
    (busy : connection.Busy) {username : Username}
    (named : connection.session.username = some username) :
    connection.held = some username.text := by
  obtain ⟨state, alive⟩ := busy
  have there : .entered ∈ connection.transcript := by
    rcases state with inside | ⟨_, entered⟩
    · exact sound.entered inside
    · exact entered
  obtain ⟨owner, same, guard⟩ := sound.owner there alive
  rw [named] at same
  cases same
  rw [Pop3Connection.held]
  split
  · next other report going =>
      exact absurd (sound.arriving other report (Or.inr going)).1 (sound.inside there).1
  · next going => exact absurd going alive
  · exact guard

theorem Sound.guarded {server : Pop3Server β σ} (sound : server.Sound services) :
    Guarded services server where
  alone first second one other username oneAt otherAt oneBusy otherBusy oneName otherName := by
    apply sound.exclusion.unique first second username.text
    · rw [holder, oneAt]
      exact busy_holds (sound.connections first one oneAt) oneBusy oneName
    · rw [holder, otherAt]
      exact busy_holds (sound.connections second other otherAt) otherBusy otherName
  admitted happening index before after found later outside inside :=
    admitted_step sound found outside inside later
  once := sound.once
  dismissed := sound.dismissed
  freed user locked := by
    obtain ⟨index, held⟩ := (sound.exclusion.exact user).mp locked
    obtain ⟨connection, found, has⟩ := Option.bind_eq_some_iff.mp held
    refine ⟨index, connection, found, fun ended => ?_, has⟩
    rw [Pop3Connection.held, ended] at has
    cases has

/-- The server keeps its maildrops whatever happens, in any order. -/
theorem maildrops_guarded (services : Pop3Services β σ) (auth : β) (store : σ)
    (happenings : List Pop3Happening) :
    Guarded services (run services (start auth store) happenings) :=
  ((sound_start auth store).run happenings).guarded

end Pop3Server

end Rusmes
