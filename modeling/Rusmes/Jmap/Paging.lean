import Rusmes.Jmap.Atomic

/-!
The pages of `email_query`: which part of the list of results is answered for a position and
a limit, and how the pages of one size follow each other.
-/

namespace Rusmes

open WireText

/-- Where a page starts; a negative position counts from the end of the list. -/
def pageStart (position : Int) (count : Nat) : Nat :=
  if 0 ≤ position then position.toNat else (count + position).toNat

structure ServesPage (request : EmailQueryRequest) (ids : List Text)
    (response : EmailQueryResponse) : Prop where
  listed : response.ids =
    (ids.drop (pageStart (request.position.getD 0).toInt ids.length)).take
      (request.limit.getD 100).toNat
  reported : response.position.toInt = pageStart (request.position.getD 0).toInt ids.length

def pageIds : Except JmapFault EmailQueryResponse → List Text
  | .ok response => response.ids
  | .error _ => []

def EmailQueryRequest.page (request : EmailQueryRequest) (limit : UInt64) (number : Nat) :
    EmailQueryRequest :=
  { request with position := some (Int64.ofNat (number * limit.toNat)), limit := some limit }

section Words

variable {position : Int64}

theorem toNat_toUInt64 (signed : 0 ≤ position.toInt) :
    position.toUInt64.toNat = position.toInt.toNat := by
  have bound := position.toInt_lt
  have value : position.toUInt64.toNat = position.toBitVec.toNat := rfl
  have read : position.toInt = position.toBitVec.toInt := rfl
  rw [BitVec.toInt_eq_toNat_cond] at read
  split at read
  · omega
  · have small := position.toBitVec.isLt
    omega

theorem toInt_ofNat {number : Nat} (small : number < 2 ^ 63) :
    (Int64.ofNat number).toInt = number :=
  Int64.toInt_ofNat_of_lt small

end Words

section Page

variable {request : EmailQueryRequest} {ids : List Text}

theorem queryPage_served (signed : 0 ≤ (request.position.getD 0).toInt)
    (fits : min (request.position.getD 0).toInt.toNat ids.length +
      (request.limit.getD 100).toNat < 2 ^ 64) :
    ∃ response, queryPage request ids = .ok response ∧ ServesPage request ids response := by
  have start := toNat_toUInt64 signed
  have small := (request.position.getD 0).toUInt64.toNat_lt
  have stop : (UInt64.ofNat (min (request.position.getD 0).toInt.toNat ids.length) +
      request.limit.getD 100).toNat =
        min (request.position.getD 0).toInt.toNat ids.length + (request.limit.getD 100).toNat := by
    rw [UInt64.toNat_add, UInt64.toNat_ofNat']
    omega
  rw [queryPage]
  rw [start, stop, if_neg (by omega)]
  refine ⟨_, rfl, ⟨?_, ?_⟩⟩
  · rw [pageStart, if_pos signed]
    rw [List.drop_take]
    have places : (ids.drop (min (request.position.getD 0).toInt.toNat ids.length)) =
        ids.drop (request.position.getD 0).toInt.toNat := by
      rcases Nat.le_total (request.position.getD 0).toInt.toNat ids.length with inside | past
      · rw [Nat.min_eq_left inside]
      · rw [Nat.min_eq_right past, List.drop_eq_nil_of_le le_rfl, List.drop_eq_nil_of_le past]
    rw [places, List.take_eq_take_iff, List.length_drop]
    omega
  · rw [pageStart, if_pos signed]
    exact (Int.toNat_of_nonneg signed).symm

theorem queryPage_panics (signed : 0 ≤ (request.position.getD 0).toInt)
    (wraps : ¬min (request.position.getD 0).toInt.toNat ids.length +
      (request.limit.getD 100).toNat < 2 ^ 64) :
    queryPage request ids = .error .panicked := by
  have start := toNat_toUInt64 signed
  have small := (request.position.getD 0).toUInt64.toNat_lt
  have short := (request.limit.getD 100).toNat_lt
  have stop : (UInt64.ofNat (min (request.position.getD 0).toInt.toNat ids.length) +
      request.limit.getD 100).toNat =
        min (request.position.getD 0).toInt.toNat ids.length + (request.limit.getD 100).toNat -
          2 ^ 64 := by
    rw [UInt64.toNat_add, UInt64.toNat_ofNat']
    omega
  rw [queryPage]
  rw [start, stop, if_pos (by omega)]

theorem negative_reported (negative : (request.position.getD 0).toInt < 0)
    {response : EmailQueryResponse} (answered : queryPage request ids = .ok response) :
    ¬ServesPage request ids response := by
  intro serves
  have reported := serves.reported
  rw [queryPage] at answered
  split at answered
  · cases answered
  · cases answered
    change (request.position.getD 0).toInt = _ at reported
    omega

theorem queryPage_serves_iff (request : EmailQueryRequest) (ids : List Text) :
    (∃ response, queryPage request ids = .ok response ∧ ServesPage request ids response) ↔
      0 ≤ (request.position.getD 0).toInt ∧
        min (request.position.getD 0).toInt.toNat ids.length + (request.limit.getD 100).toNat <
          2 ^ 64 := by
  constructor
  · rintro ⟨response, answered, serves⟩
    by_cases signed : 0 ≤ (request.position.getD 0).toInt
    · refine ⟨signed, ?_⟩
      by_contra wraps
      cases (queryPage_panics signed wraps).symm.trans answered
    · exact absurd serves (negative_reported (by omega) answered)
  · rintro ⟨signed, fits⟩
    exact queryPage_served signed fits

end Page

section Tiling

variable {request : EmailQueryRequest} {ids : List Text} {limit : UInt64}

theorem pageIds_page {number : Nat} (small : number * limit.toNat < 2 ^ 63) :
    pageIds (queryPage (request.page limit number) ids) =
      (ids.drop (number * limit.toNat)).take limit.toNat := by
  have position : ((request.page limit number).position.getD 0).toInt = number * limit.toNat :=
    toInt_ofNat small
  have fits : min ((request.page limit number).position.getD 0).toInt.toNat ids.length +
      ((request.page limit number).limit.getD 100).toNat < 2 ^ 64 := by
    rw [position]
    change min (↑number * (↑limit.toNat) : Int).toNat ids.length + limit.toNat < 2 ^ 64
    have short := limit.toNat_lt
    have first : number = 0 ∨ limit.toNat ≤ number * limit.toNat := by
      rcases Nat.eq_zero_or_pos number with none | some
      · exact Or.inl none
      · exact Or.inr (Nat.le_mul_of_pos_left _ some)
    have read : (↑number * ↑limit.toNat : Int).toNat = number * limit.toNat := by
      rw [← Int.natCast_mul, Int.toNat_natCast]
    rw [read]
    rcases first with rfl | large
    · omega
    · omega
  obtain ⟨response, answered, serves⟩ := queryPage_served (by omega) fits
  rw [answered, pageIds, serves.listed, pageStart, if_pos (by omega), position]
  rfl

theorem pages_append (request : EmailQueryRequest) (ids : List Text) (limit : UInt64) (pages : Nat)
    (small : (pages - 1) * limit.toNat < 2 ^ 63) :
    (List.range pages).flatMap (fun number =>
      pageIds (queryPage (request.page limit number) ids)) = ids.take (pages * limit.toNat) := by
  induction pages with
  | zero => simp
  | succ pages ih =>
      have last : pages * limit.toNat < 2 ^ 63 := small
      have before : (pages - 1) * limit.toNat < 2 ^ 63 :=
        Nat.lt_of_le_of_lt (Nat.mul_le_mul_right _ (Nat.sub_le _ _)) last
      rw [List.range_succ, List.flatMap_append, ih before, List.flatMap_singleton,
        pageIds_page last, Nat.succ_mul, List.take_add]

end Tiling

section Query

variable {σ : Type} {ctx : JmapContext σ} {request : EmailQueryRequest} {principal : Principal}
  {world later : JmapWorld σ} {ids : List Text}

theorem queriedIds_page (limit : UInt64) (number : Nat) :
    queriedIds ctx (request.page limit number) = queriedIds ctx request := rfl

theorem emailQuery_eq (owned : principal.ownsAccount request.accountId = true)
    (finds : queriedIds ctx request world = (.ok ids, later)) :
    emailQuery ctx request principal world = (queryPage request ids, later) := by
  rw [emailQuery, ensureAccountOwnership_owned owned, pure_bind, Effect.bind_ok finds]
  rfl

/-- A page is served as asked for exactly if the position does not count from the end and the
end of the page fits a machine word. The pages of one size, from the first on, are the list. -/
theorem emailQuery_pages_iff (owned : principal.ownsAccount request.accountId = true)
    (finds : queriedIds ctx request world = (.ok ids, later)) :
    ((∃ response, emailQuery ctx request principal world = (.ok response, later) ∧
        ServesPage request ids response) ↔
      0 ≤ (request.position.getD 0).toInt ∧
        min (request.position.getD 0).toInt.toNat ids.length + (request.limit.getD 100).toNat <
          2 ^ 64) ∧
      ∀ (limit : UInt64) (pages : Nat), (pages - 1) * limit.toNat < 2 ^ 63 →
        ids.length ≤ pages * limit.toNat →
          (List.range pages).flatMap (fun number =>
            pageIds (emailQuery ctx (request.page limit number) principal world).1) = ids := by
  constructor
  · rw [emailQuery_eq owned finds, ← queryPage_serves_iff]
    simp only [Prod.mk.injEq, and_true]
  · intro limit pages small whole
    have each : ∀ number, emailQuery ctx (request.page limit number) principal world =
        (queryPage (request.page limit number) ids, later) := fun number =>
      emailQuery_eq owned ((congrFun (queriedIds_page limit number) world).trans finds)
    simp only [each]
    rw [pages_append request ids limit pages small, List.take_of_length_le whole]

end Query

def notesWorld : JmapWorld Postbox :=
  let held : Holding := ⟨noteFromAlice [], fun id => decide (id = ⟨1⟩), .new⟩
  ⟨⟨(AList.insert ⟨8⟩ held ∅).insert ⟨7⟩ held, []⟩, 0⟩

def notesQuery (position : Int64) (limit : UInt64) : EmailQueryRequest :=
  ⟨"account-alice".toList, some ⟨some (MailboxId.display ⟨1⟩)⟩, some position, some limit, none⟩

theorem notes_found (position : Int64) (limit : UInt64) :
    queriedIds postContext (notesQuery position limit) notesWorld =
      (.ok [MessageId.display ⟨7⟩, MessageId.display ⟨8⟩], notesWorld) := by
  have here : parseMailboxId postContext (MailboxId.display ⟨1⟩) = .ok ⟨1⟩ := by
    rw [parseMailboxId]
    have read : parseUuid (MailboxId.display ⟨1⟩) = some 1 := parseUuid_display ⟨1⟩
    rw [read]
  have asked : (notesQuery position limit).filter.bind EmailFilterCondition.inMailbox =
      some (MailboxId.display ⟨1⟩) := rfl
  rw [queriedIds, asked]
  dsimp only
  rw [here]
  rfl

theorem second_note_served : ∃ response,
    emailQuery postContext (notesQuery 1 10) alicePrincipal notesWorld = (.ok response, notesWorld) ∧
      ServesPage (notesQuery 1 10) [MessageId.display ⟨7⟩, MessageId.display ⟨8⟩] response :=
  (emailQuery_pages_iff (by decide +kernel) (notes_found 1 10)).1.mpr ⟨by decide, by decide⟩

/-- The last note is asked for, counted from the end; the answer is empty. And a page whose end
is past the words. -/
theorem last_note_missed :
    (∃ response, emailQuery postContext (notesQuery (-1) 1) alicePrincipal notesWorld =
        (.ok response, notesWorld) ∧ response.ids = [] ∧
      ¬ServesPage (notesQuery (-1) 1) [MessageId.display ⟨7⟩, MessageId.display ⟨8⟩] response) ∧
    emailQuery postContext (notesQuery 1 (-1)) alicePrincipal notesWorld =
      (.error .panicked, notesWorld) := by
  constructor
  · rw [emailQuery_eq (by decide +kernel) (notes_found (-1) 1)]
    refine ⟨_, rfl, rfl, negative_reported (by decide) rfl⟩
  · rw [emailQuery_eq (by decide +kernel) (notes_found 1 (-1)), queryPage_panics]
    · decide
    · decide

end Rusmes
