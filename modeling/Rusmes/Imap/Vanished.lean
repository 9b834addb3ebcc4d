import Rusmes.Imap.QResync
import Rusmes.Library.Segments

/-!
The UIDs that VANISHED reports, and the ranges they are gathered into.
-/

namespace Rusmes.QResync

open WireText

def uidsFrom (start stop : UInt32) : List UInt32 :=
  (List.range' start.toNat (stop.toNat + 1 - start.toNat)).map UInt32.ofNat

/-- Where an open range ends: at the largest current UID, or at its start if there is none. -/
def openBound (current : List UInt32) (start : UInt32) : UInt32 :=
  current.max?.getD start

def UidRange.candidates (current : List UInt32) : UidRange → List UInt32
  | .single uid => [uid]
  | .range start stop => uidsFrom start stop
  | .rangeToMax start => uidsFrom start (openBound current start)

def sortUids (uids : List UInt32) : List UInt32 :=
  uids.mergeSort fun first second => first ≤ second

def findVanishedUids (known : UidSet) (current : List UInt32) : List UInt32 :=
  sortUids (known.ranges.flatMap fun range =>
    (range.candidates current).filter fun uid => uid ∉ current)

def dedup : List UInt32 → List UInt32
  | [] => []
  | [uid] => [uid]
  | first :: second :: uids =>
      if first = second then dedup (second :: uids) else first :: dedup (second :: uids)

def closeRange (start stop : UInt32) : UidRange :=
  if start = stop then .single start else .range start stop

def checkedNext (uid : UInt32) : Option UInt32 :=
  if uid.toNat + 1 < UInt32.size then some (uid + 1) else none

def compressFrom (start stop : UInt32) : List UInt32 → Option (List UidRange)
  | [] => some [closeRange start stop]
  | uid :: uids => do
      let next ← checkedNext stop
      if uid = next then compressFrom start uid uids
      else
        let ranges ← compressFrom uid uid uids
        return closeRange start stop :: ranges

/-- `none` where an addition overflows. -/
def compressToRanges (uids : List UInt32) : Option (List UidRange) :=
  match dedup (sortUids uids) with
  | [] => some []
  | first :: rest => compressFrom first first rest

def createVanishedResponse (uids : List UInt32) (earlier : Bool) :
    Option (Option VanishedResponse) :=
  if uids = [] then some none
  else (compressToRanges uids).map fun ranges => some ⟨⟨ranges⟩, earlier⟩

def UidRange.Within (bound : UInt32 → UInt32) (uid : UInt32) : UidRange → Prop
  | .single only => uid = only
  | .range start stop => start ≤ uid ∧ uid ≤ stop
  | .rangeToMax start => start ≤ uid ∧ uid ≤ bound start

/-- The UID is in the set, where an open range ends at the highest UID ever known. -/
def Known (known : UidSet) (highest uid : UInt32) : Prop :=
  ∃ range ∈ known.ranges, range.Within (fun _ => highest) uid

def Reports (response : Option VanishedResponse) (uid : UInt32) : Prop :=
  ∃ vanished, response = some vanished ∧ vanished.uids.contains uid = true

/-- The ranges have UIDs, and there is a number between those of any two ranges. -/
structure Canonical (ranges : List UidRange) : Prop where
  inhabited : ∀ range ∈ ranges, ∃ uid, range.contains uid = true
  apart : ranges.Pairwise fun first second => ∀ one other, first.contains one = true →
    second.contains other = true → one.toNat + 1 < other.toNat

/-- The response has the known UIDs that are gone, in ranges that are as long as they can
be, and its text is read back. -/
def ReportsVanished (known : UidSet) (current : List UInt32) (highest : UInt32) (earlier : Bool) :
    Prop :=
  ∃ response, createVanishedResponse (findVanishedUids known current) earlier = some response ∧
    (∀ uid, Reports response uid ↔ Known known highest uid ∧ uid ∉ current) ∧
    ∀ vanished, response = some vanished →
      Canonical vanished.uids.ranges ∧ vanished.earlier = earlier ∧
        VanishedResponse.parse vanished.toImapResponse = .ok vanished

theorem mem_uidsFrom {start stop uid : UInt32} :
    uid ∈ uidsFrom start stop ↔ start ≤ uid ∧ uid ≤ stop := by
  rw [uidsFrom, List.mem_map, UInt32.le_iff_toNat_le, UInt32.le_iff_toNat_le]
  have bound := stop.toNat_lt_size
  constructor
  · rintro ⟨number, member, rfl⟩
    rw [List.mem_range'_1] at member
    rw [UInt32.toNat_ofNat_of_lt' (by omega)]
    omega
  · intro within
    refine ⟨uid.toNat, ?_, UInt32.ofNat_toNat⟩
    rw [List.mem_range'_1]
    omega

theorem mem_sortUids {uids : List UInt32} {uid : UInt32} : uid ∈ sortUids uids ↔ uid ∈ uids :=
  (List.mergeSort_perm _ _).mem_iff

theorem sortUids_sorted (uids : List UInt32) : (sortUids uids).Pairwise (· ≤ ·) := by
  have ordered := @List.pairwise_mergeSort UInt32 (fun first second => decide (first ≤ second))
    (by intro first second third; simp only [decide_eq_true_eq]; exact UInt32.le_trans)
    (by intro first second; simpa using UInt32.le_total first second) uids
  simpa [sortUids] using ordered

theorem mem_findVanishedUids {known : UidSet} {current : List UInt32} {uid : UInt32} :
    uid ∈ findVanishedUids known current ↔
      (∃ range ∈ known.ranges, range.Within (openBound current) uid) ∧ uid ∉ current := by
  have searched : ∀ range : UidRange,
      uid ∈ range.candidates current ↔ range.Within (openBound current) uid := by
    intro range
    cases range with
    | single only => exact List.mem_singleton
    | range start stop => exact mem_uidsFrom
    | rangeToMax start => exact mem_uidsFrom
  simp only [findVanishedUids, mem_sortUids, List.mem_flatMap, List.mem_filter, decide_eq_true_eq,
    searched]
  constructor
  · rintro ⟨range, member, held, gone⟩
    exact ⟨⟨range, member, held⟩, gone⟩
  · rintro ⟨⟨range, member, held⟩, gone⟩
    exact ⟨range, member, held, gone⟩

/-! The ranges they are gathered into. -/

theorem mem_dedup {uids : List UInt32} {uid : UInt32} : uid ∈ dedup uids ↔ uid ∈ uids := by
  fun_induction dedup uids with
  | case1 => rfl
  | case2 => rfl
  | case3 first uids ih => simp [ih]
  | case4 first second uids apart ih => simp [ih]

theorem dedup_ascending {uids : List UInt32} (sorted : uids.Pairwise (· ≤ ·)) :
    (dedup uids).Pairwise fun one other => one.toNat < other.toNat := by
  fun_induction dedup uids with
  | case1 => exact .nil
  | case2 => exact List.pairwise_singleton _ _
  | case3 first uids ih => exact ih sorted.of_cons
  | case4 first second uids apart ih =>
      rw [List.pairwise_cons]
      refine ⟨?_, ih sorted.of_cons⟩
      intro other member
      rw [mem_dedup] at member
      rw [List.pairwise_cons] at sorted
      have least := UInt32.le_iff_toNat_le.mp (sorted.1 second List.mem_cons_self)
      have different : first.toNat ≠ second.toNat := fun same => apart (UInt32.toNat_inj.mp same)
      rcases List.mem_cons.mp member with rfl | later
      · omega
      · have between := UInt32.le_iff_toNat_le.mp ((List.pairwise_cons.mp sorted.2).1 other later)
        omega

theorem compressFrom_gather {start stop : UInt32} {uids : List UInt32}
    (ascending : (stop :: uids).Pairwise fun one other => one.toNat < other.toNat) :
    compressFrom start stop uids =
      some ((gather UInt32.toNat start stop uids).map fun segment =>
        closeRange segment.1 segment.2) := by
  induction uids generalizing start stop with
  | nil => rfl
  | cons uid uids ih =>
      rw [List.pairwise_cons] at ascending
      have above := ascending.1 uid List.mem_cons_self
      have fits : stop.toNat + 1 < UInt32.size := Nat.lt_of_le_of_lt above uid.toNat_lt_size
      have next : (stop + 1).toNat = stop.toNat + 1 := by
        rw [UInt32.toNat_add]
        exact Nat.mod_eq_of_lt fits
      have follows : uid = stop + 1 ↔ uid.toNat = stop.toNat + 1 := by
        rw [← UInt32.toNat_inj, next]
      rw [compressFrom, checkedNext, if_pos fits, gather]
      simp only [Option.bind_eq_bind, Option.bind_some, follows]
      split
      · exact ih ascending.2
      · rw [ih ascending.2]
        rfl

theorem closeRange_contains {start stop uid : UInt32} (ordered : start.toNat ≤ stop.toNat) :
    (closeRange start stop).contains uid = true ↔
      start.toNat ≤ uid.toNat ∧ uid.toNat ≤ stop.toNat := by
  rw [closeRange]
  split
  · rename_i same
    subst same
    rw [UidRange.contains, decide_eq_true_eq, ← UInt32.toNat_inj]
    omega
  · rw [UidRange.contains, Bool.and_eq_true, decide_eq_true_eq, decide_eq_true_eq,
      UInt32.le_iff_toNat_le, UInt32.le_iff_toNat_le]

theorem closeRange_valid {start stop : UInt32} (ordered : start.toNat ≤ stop.toNat) :
    (closeRange start stop).Valid := by
  rw [closeRange]
  split
  · trivial
  · exact UInt32.le_iff_toNat_le.mpr ordered

section Closed

variable {segments : List (UInt32 × UInt32)}

def closeSegments (segments : List (UInt32 × UInt32)) : List UidRange :=
  segments.map fun segment => closeRange segment.1 segment.2

variable (ordered : ∀ segment ∈ segments, segment.1.toNat ≤ segment.2.toNat)
include ordered

theorem closeSegments_valid : ∀ range ∈ closeSegments segments, range.Valid := by
  intro range member
  obtain ⟨segment, inside, rfl⟩ := List.mem_map.mp member
  exact closeRange_valid (ordered segment inside)

theorem closeSegments_contains (uid : UInt32) :
    (UidSet.mk (closeSegments segments)).contains uid = true ↔
      InSegments UInt32.toNat segments uid.toNat := by
  rw [UidSet.contains, List.any_eq_true]
  constructor
  · rintro ⟨range, member, held⟩
    obtain ⟨segment, inside, rfl⟩ := List.mem_map.mp member
    exact ⟨segment, inside, (closeRange_contains (ordered segment inside)).mp held⟩
  · rintro ⟨segment, inside, held⟩
    exact ⟨_, List.mem_map_of_mem inside, (closeRange_contains (ordered segment inside)).mpr held⟩

theorem closeSegments_canonical
    (apart : segments.Pairwise fun first second => first.2.toNat + 1 < second.1.toNat) :
    Canonical (closeSegments segments) := by
  constructor
  · intro range member
    obtain ⟨segment, inside, rfl⟩ := List.mem_map.mp member
    have forward := ordered segment inside
    exact ⟨segment.1, (closeRange_contains forward).mpr ⟨Nat.le_refl _, forward⟩⟩
  · rw [closeSegments, List.pairwise_map]
    refine apart.imp_of_mem ?_
    intro first second firstMember secondMember gap one other held others
    have below := ((closeRange_contains (ordered first firstMember)).mp held).2
    have above := ((closeRange_contains (ordered second secondMember)).mp others).1
    omega

end Closed

theorem compressToRanges_spec {uids : List UInt32} (more : uids ≠ []) :
    ∃ ranges, compressToRanges uids = some ranges ∧ ranges ≠ [] ∧
      (∀ uid, (UidSet.mk ranges).contains uid = true ↔ uid ∈ uids) ∧ Canonical ranges ∧
      ∀ range ∈ ranges, range.Valid := by
  have ascending := dedup_ascending (sortUids_sorted uids)
  have members : ∀ uid, uid ∈ dedup (sortUids uids) ↔ uid ∈ uids := by
    intro uid
    rw [mem_dedup, mem_sortUids]
  cases shape : dedup (sortUids uids) with
  | nil =>
      obtain ⟨uid, member⟩ := List.exists_mem_of_ne_nil uids more
      rw [← members, shape] at member
      cases member
  | cons first rest =>
      rw [shape] at ascending members
      have ordered := @gather_ordered _ UInt32.toNat first first rest (Nat.le_refl _)
      have contains := closeSegments_contains ordered
      refine ⟨closeSegments (gather UInt32.toNat first first rest), ?_, ?_, ?_,
        closeSegments_canonical ordered (gather_apart (Nat.le_refl _) ascending),
        closeSegments_valid ordered⟩
      · rw [compressToRanges, shape]
        exact compressFrom_gather ascending
      · intro empty
        have held := (contains first).mpr
          ((gather_numbers (Nat.le_refl _) _).mpr (Or.inl ⟨Nat.le_refl _, Nat.le_refl _⟩))
        rw [empty] at held
        cases held
      · intro uid
        rw [contains, gather_numbers (Nat.le_refl _), ← members, List.mem_cons]
        refine or_congr ?_ ⟨?_, fun member => ⟨uid, member, rfl⟩⟩
        · rw [← UInt32.toNat_inj]
          omega
        · rintro ⟨value, member, same⟩
          rwa [← UInt32.toNat_inj.mp same]

/-- The ranges show which UIDs a list has, and nothing of its order or of how often it has them. -/
theorem compressToRanges_eq_iff (first second : List UInt32) :
    compressToRanges first = compressToRanges second ↔ ∀ uid, uid ∈ first ↔ uid ∈ second := by
  constructor
  · intro same uid
    have held : ∀ uids, ∃ ranges, compressToRanges uids = some ranges ∧
        ∀ uid, (UidSet.mk ranges).contains uid = true ↔ uid ∈ uids := by
      intro uids
      cases uids with
      | nil => exact ⟨[], by simp [compressToRanges, sortUids, dedup], by simp [UidSet.contains]⟩
      | cons first rest =>
          obtain ⟨ranges, made, -, holds, -⟩ := compressToRanges_spec (List.cons_ne_nil first rest)
          exact ⟨ranges, made, holds⟩
    obtain ⟨ranges, made, holds⟩ := held first
    obtain ⟨others, compressed, hold⟩ := held second
    rw [made, compressed, Option.some.injEq] at same
    rw [← holds, same, hold]
  · intro same
    have sorted : ∀ uids : List UInt32,
        (dedup (sortUids uids)).Pairwise fun first second => first.toNat < second.toNat :=
      fun uids => dedup_ascending (sortUids_sorted uids)
    have equal : dedup (sortUids first) = dedup (sortUids second) := by
      refine List.Perm.eq_of_pairwise (fun one other _ _ less more => ?_) (sorted first)
        (sorted second) ?_
      · omega
      · refine (List.perm_ext_iff_of_nodup ?_ ?_).mpr fun uid => ?_
        · exact (sorted first).imp fun less same => by rw [same] at less; omega
        · exact (sorted second).imp fun less same => by rw [same] at less; omega
        · rw [mem_dedup, mem_sortUids, mem_dedup, mem_sortUids, same]
    rw [compressToRanges, equal, compressToRanges]

theorem trimStartMatches_once {pattern text : Text} (nonempty : pattern ≠ [])
    (away : ¬pattern <+: text) :
    VanishedResponse.trimStartMatches pattern (pattern ++ text) = text := by
  have starts : pattern ≠ [] ∧ pattern <+: pattern ++ text := ⟨nonempty, List.prefix_append _ _⟩
  have stops : ¬(pattern ≠ [] ∧ pattern <+: text) := fun both => away both.2
  rw [VanishedResponse.trimStartMatches, if_pos starts, List.drop_left,
    VanishedResponse.trimStartMatches, if_neg stops]

namespace VanishedResponse

theorem parse_opened {rest listed : Text}
    (whole : trim ("* VANISHED ".toList ++ rest) = "* VANISHED ".toList ++ rest)
    (behind : trim (' ' :: rest) = listed) :
    parse ("* VANISHED ".toList ++ rest) = do
      let uids ← UidSet.parse (if "(EARLIER)".toList <+: listed then
        trim (trimStartMatches "(EARLIER)".toList listed) else listed)
      return ⟨uids, "(EARLIER)".toList <+: listed⟩ := by
  have starts : "* VANISHED".toList <+: "* VANISHED ".toList ++ rest := ⟨' ' :: rest, rfl⟩
  have star : ¬"* ".toList <+: "VANISHED ".toList ++ rest := by
    rintro ⟨more, same⟩
    cases same
  have word : ¬"VANISHED".toList <+: ' ' :: rest := by
    rintro ⟨more, same⟩
    cases same
  have opened : trimStartMatches "VANISHED".toList
      (trimStartMatches "* ".toList ("* VANISHED ".toList ++ rest)) = ' ' :: rest :=
    (congrArg _ (trimStartMatches_once (by decide) star)).trans
      (trimStartMatches_once (by decide) word)
  rw [parse, whole, if_neg (fun neither => neither.1 starts), opened, behind]
  simp only [decide_eq_true_eq]

theorem parse_toImapResponse {response : VanishedResponse} (readable : response.uids.Readable) :
    parse response.toImapResponse = .ok response := by
  obtain ⟨uids, earlier⟩ := response
  have solid : ∀ character ∈ uids.display, isWhitespace character = false :=
    fun character member => uidCharacter_solid (uids.display_plain character member)
  have read : UidSet.parse uids.display = .ok uids := UidSet.parse_display readable
  have listed : trim (' ' :: uids.display) = uids.display := by
    rw [trim_cons_blank rfl, trim_solid solid]
  obtain ⟨front, last, shape⟩ :=
    (List.eq_nil_or_concat' uids.display).resolve_left readable.display_nonempty
  have closing : isWhitespace last = false := solid last (by simp [shape])
  -- A response is one line, from its star to the last character of the set.
  have whole : ∀ middle : Text,
      trim ('*' :: (middle ++ uids.display)) = '*' :: (middle ++ uids.display) := by
    intro middle
    rw [shape, ← List.append_assoc]
    exact trim_enclosed rfl closing _
  have bare : ¬"(EARLIER)".toList <+: uids.display := by
    rintro ⟨rest, same⟩
    have plain := uids.display_plain '(' (by rw [← same]; exact List.mem_cons_self)
    cases plain
  cases earlier with
  | false =>
      have printed : toImapResponse ⟨uids, false⟩ = "* VANISHED ".toList ++ uids.display := rfl
      have line : trim ("* VANISHED ".toList ++ uids.display) = "* VANISHED ".toList ++ uids.display :=
        whole " VANISHED ".toList
      rw [printed, parse_opened line listed, if_neg bare, decide_eq_false bare, read]
      rfl
  | true =>
      have printed : toImapResponse ⟨uids, true⟩ =
        "* VANISHED ".toList ++ ("(EARLIER)".toList ++ ' ' :: uids.display) := rfl
      have marked : "(EARLIER)".toList <+: "(EARLIER)".toList ++ ' ' :: uids.display :=
        List.prefix_append _ _
      have apart : ¬"(EARLIER)".toList <+: ' ' :: uids.display := by
        rintro ⟨more, same⟩
        cases same
      have behind : trim (' ' :: ("(EARLIER)".toList ++ ' ' :: uids.display)) =
          "(EARLIER)".toList ++ ' ' :: uids.display := by
        have enclosed : trim ('(' :: ("EARLIER) ".toList ++ front ++ [last])) =
            '(' :: ("EARLIER) ".toList ++ front ++ [last]) := trim_enclosed rfl closing _
        rw [List.append_assoc, ← shape] at enclosed
        rw [trim_cons_blank rfl]
        exact enclosed
      have line : trim ("* VANISHED ".toList ++ ("(EARLIER)".toList ++ ' ' :: uids.display)) =
          "* VANISHED ".toList ++ ("(EARLIER)".toList ++ ' ' :: uids.display) :=
        whole " VANISHED (EARLIER) ".toList
      rw [printed, parse_opened line behind, if_pos marked, decide_eq_true marked,
        trimStartMatches_once (by decide) apart, listed, read]
      rfl

end VanishedResponse

theorem createVanishedResponse_spec (uids : List UInt32) (earlier : Bool) :
    ∃ response, createVanishedResponse uids earlier = some response ∧
      (∀ uid, Reports response uid ↔ uid ∈ uids) ∧
      ∀ vanished, response = some vanished →
        Canonical vanished.uids.ranges ∧ vanished.earlier = earlier ∧
          VanishedResponse.parse vanished.toImapResponse = .ok vanished := by
  by_cases more : uids = []
  · refine ⟨none, if_pos more, ?_, ?_⟩
    · intro uid
      rw [more]
      constructor
      · rintro ⟨vanished, absent, -⟩
        cases absent
      · intro member
        cases member
    · intro vanished absent
      cases absent
  · obtain ⟨ranges, compressed, nonempty, members, canonical, valid⟩ := compressToRanges_spec more
    refine ⟨some ⟨⟨ranges⟩, earlier⟩, ?_, ?_, ?_⟩
    · rw [createVanishedResponse, if_neg more, compressed]
      rfl
    · intro uid
      rw [← members]
      constructor
      · rintro ⟨vanished, same, held⟩
        rwa [← Option.some.inj same] at held
      · intro held
        exact ⟨_, rfl, held⟩
    · intro vanished same
      rw [← Option.some.inj same]
      exact ⟨canonical, rfl, VanishedResponse.parse_toImapResponse ⟨nonempty, valid⟩⟩

def Closed (known : UidSet) (uid : UInt32) : Prop :=
  .single uid ∈ known.ranges ∨
    ∃ start stop, .range start stop ∈ known.ranges ∧ start ≤ uid ∧ uid ≤ stop

/-- The code ends open ranges at the largest current UID. No UID is gone between that and
the highest known one, unless a closed range has it. -/
structure OpenRangesMeet (known : UidSet) (current : List UInt32) (highest : UInt32) : Prop where
  beyond : ∀ start uid, .rangeToMax start ∈ known.ranges → start ≤ uid →
    uid ≤ openBound current start → highest < uid → uid ∈ current ∨ Closed known uid
  before : ∀ start uid, .rangeToMax start ∈ known.ranges → start ≤ uid → uid ≤ highest →
    (∀ other, .rangeToMax other ∈ known.ranges → other ≤ uid → openBound current other < uid) →
    uid ∈ current ∨ Closed known uid

theorem within_iff {known : UidSet} {bound : UInt32 → UInt32} {uid : UInt32} :
    (∃ range ∈ known.ranges, range.Within bound uid) ↔ Closed known uid ∨
      ∃ start, .rangeToMax start ∈ known.ranges ∧ start ≤ uid ∧ uid ≤ bound start := by
  constructor
  · rintro ⟨range, member, held⟩
    cases range with
    | single only =>
        obtain rfl : uid = only := held
        exact Or.inl (Or.inl member)
    | range start stop => exact Or.inl (Or.inr ⟨start, stop, member, held⟩)
    | rangeToMax start => exact Or.inr ⟨start, member, held⟩
  · rintro ((member | ⟨start, stop, member, held⟩) | ⟨start, member, held⟩)
    · exact ⟨_, member, rfl⟩
    · exact ⟨_, member, held⟩
    · exact ⟨_, member, held⟩

theorem openRangesMeet_iff {known : UidSet} {current : List UInt32} {highest : UInt32} :
    OpenRangesMeet known current highest ↔
      ∀ uid, uid ∈ findVanishedUids known current ↔ Known known highest uid ∧ uid ∉ current := by
  simp only [mem_findVanishedUids, Known, within_iff]
  constructor
  · intro meet uid
    refine and_congr_left fun gone => ?_
    constructor
    · rintro (closed | ⟨start, member, above, below⟩)
      · exact Or.inl closed
      · by_cases later : highest < uid
        · exact Or.inl ((meet.beyond start uid member above below later).resolve_left gone)
        · exact Or.inr ⟨start, member, above, UInt32.not_lt.mp later⟩
    · rintro (closed | ⟨start, member, above, below⟩)
      · exact Or.inl closed
      · by_contra missed
        rw [not_or] at missed
        refine missed.1 ((meet.before start uid member above below ?_).resolve_left gone)
        intro other others past
        exact UInt32.not_le.mp fun within => missed.2 ⟨other, others, past, within⟩
  · intro same
    constructor
    · intro start uid member above below later
      by_contra neither
      rw [not_or] at neither
      have found := ((same uid).mp ⟨Or.inr ⟨start, member, above, below⟩, neither.1⟩).1
      obtain ⟨_, _, _, early⟩ := found.resolve_left neither.2
      exact UInt32.not_le.mpr later early
    · intro start uid member above below past
      by_contra neither
      rw [not_or] at neither
      have found := ((same uid).mpr ⟨Or.inr ⟨start, member, above, below⟩, neither.1⟩).1
      obtain ⟨other, others, low, within⟩ := found.resolve_left neither.2
      exact UInt32.not_le.mpr (past other others low) within

theorem reportsVanished_iff (known : UidSet) (current : List UInt32) (highest : UInt32)
    (earlier : Bool) :
    ReportsVanished known current highest earlier ↔ OpenRangesMeet known current highest := by
  obtain ⟨response, created, reported, written⟩ :=
    createVanishedResponse_spec (findVanishedUids known current) earlier
  rw [openRangesMeet_iff]
  constructor
  · rintro ⟨other, others, reports, -⟩ uid
    rw [created] at others
    rw [← reported, ← reports, Option.some.inj others]
  · intro found
    refine ⟨response, created, ?_, written⟩
    intro uid
    rw [reported, found]

/-- The client knows the UIDs up to 5, and those of the last two messages are gone. -/
theorem tail_unreported :
    ¬ReportsVanished ⟨[.rangeToMax 1]⟩ [1, 2, 3] 5 true := by
  rintro ⟨response, created, reports, -⟩
  have nothing : createVanishedResponse (findVanishedUids ⟨[.rangeToMax 1]⟩ [1, 2, 3]) true =
      some none := by decide +kernel
  obtain rfl := Option.some.inj (nothing.symm.trans created)
  obtain ⟨vanished, absent, -⟩ :=
    (reports 5).mpr ⟨⟨.rangeToMax 1, List.mem_singleton_self _, by decide, by decide⟩, by decide⟩
  cases absent

end Rusmes.QResync
