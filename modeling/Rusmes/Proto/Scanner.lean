import Rusmes.Proto.Headers

/-!
`parse_headers` as it walks the octets: one position at a time, with the start of the
current line held apart. The walk is the parser over lines of the message model, and
the offset it returns is compared with the first empty line of the data.
-/

namespace Rusmes

open WireText

/-- How many octets end a line at a position: two, one, or none when no line ends there. -/
def lineEnding (data : Octets) (pos : Nat) : Nat :=
  if pos + 1 < data.length ∧ data[pos]? = some 13 ∧ data[pos + 1]? = some 10 then 2
  else if pos < data.length ∧ data[pos]? = some 10 then 1
  else 0

def headerStep (letters : CaseMapping) (line : Octets) (headers : HeaderTable)
    (current : Option (Text × Text)) : HeaderTable × Option (Text × Text) :=
  if continuesField line then
    (headers, current.map fun field => (field.1, field.2 ++ decodeLossy line))
  else (headers.flush current, headerField letters line)

def scanHeaders (letters : CaseMapping) (data : Octets) (pos lineStart : Nat)
    (headers : HeaderTable) (current : Option (Text × Text)) : HeaderTable × Nat :=
  if pos < data.length then
    if lineEnding data pos = 0 then scanHeaders letters data (pos + 1) lineStart headers current
    else
      let line := (data.take pos).drop lineStart
      let next := pos + lineEnding data pos
      if line = [] then (headers.flush current, next)
      else
        let step := headerStep letters line headers current
        scanHeaders letters data next next step.1 step.2
  else (headers.flush current, pos)
termination_by data.length - pos

/-! The walk and the parser over lines. -/

theorem lineEnding_append (front rest : Octets) :
    lineEnding (front ++ rest) front.length = lineEnding rest 0 := by
  have first : (front ++ rest)[front.length]? = rest[0]? := by
    rw [List.getElem?_append_right (Nat.le_refl _), Nat.sub_self]
  have second : (front ++ rest)[front.length + 1]? = rest[0 + 1]? := by
    rw [List.getElem?_append_right (by omega), Nat.add_sub_cancel_left]
  have inside : front.length < (front ++ rest).length ↔ 0 < rest.length := by
    rw [List.length_append]
    omega
  have more : front.length + 1 < (front ++ rest).length ↔ 0 + 1 < rest.length := by
    rw [List.length_append]
    omega
  simp only [lineEnding, first, second, inside, more]

theorem lineEnding_crlf (rest : Octets) : lineEnding (13 :: 10 :: rest) 0 = 2 := by
  simp [lineEnding]

theorem lineEnding_newline (rest : Octets) : lineEnding (10 :: rest) 0 = 1 := by
  simp [lineEnding]

theorem lineEnding_other {octet : UInt8} {rest : Octets} (plain : octet ≠ 10)
    (apart : ¬(octet = 13 ∧ rest.head? = some 10)) : lineEnding (octet :: rest) 0 = 0 := by
  simp only [lineEnding]
  rw [if_neg, if_neg]
  · simp [plain]
  · rintro ⟨-, carriage, newline⟩
    refine apart ⟨by simpa using carriage, ?_⟩
    rw [List.head?_eq_getElem?]
    simpa using newline

theorem lineContent_newline {content : Octets} (apart : content.getLast? ≠ some 13) :
    lineContent (content ++ [10]) = some content := by
  simp [lineContent, apart]

theorem parseHeaderLines_line (letters : CaseMapping) {line ending : Octets}
    (closed : lineContent (line ++ ending ++ [10]) = some line) (unbroken : 10 ∉ line ++ ending)
    (rest : Octets) (headers : HeaderTable) (current : Option (Text × Text)) :
    parseHeaderLines letters headers current (splitLines (line ++ ending ++ 10 :: rest)) =
      if line = [] then (headers.flush current, rest)
      else parseHeaderLines letters (headerStep letters line headers current).1
        (headerStep letters line headers current).2 (splitLines rest) := by
  rw [splitLines_line unbroken, parseHeaderLines, closed]
  dsimp only
  by_cases empty : line = []
  · simp only [empty, if_true, splitLines_flatten]
  · simp only [empty, if_false, headerStep]
    split <;> rfl

theorem parseHeaderLines_last (letters : CaseMapping) {line : Octets} (unbroken : 10 ∉ line)
    (headers : HeaderTable) (current : Option (Text × Text)) :
    parseHeaderLines letters headers current (splitLines line) = (headers.flush current, []) := by
  by_cases empty : line = []
  · subst empty
    rfl
  · have alone : splitLines line = [line] := splitLines_last unbroken empty
    have open_ : lineContent line = none := by
      rw [lineContent, if_neg]
      exact fun last => unbroken (List.mem_of_getLast? last)
    rw [alone, parseHeaderLines, open_]

def scanAt (letters : CaseMapping) (before seen rest : Octets) (headers : HeaderTable)
    (current : Option (Text × Text)) : HeaderTable × Nat :=
  scanHeaders letters (before ++ seen ++ rest) (before ++ seen).length before.length headers current

theorem scanAt_nil (letters : CaseMapping) (before seen : Octets) (headers : HeaderTable)
    (current : Option (Text × Text)) :
    scanAt letters before seen [] headers current =
      (headers.flush current, (before ++ seen).length) := by
  rw [scanAt, scanHeaders, if_neg (by simp)]

theorem scanAt_skip (letters : CaseMapping) (before seen : Octets) {octet : UInt8} {rest : Octets}
    (none : lineEnding (octet :: rest) 0 = 0) (headers : HeaderTable)
    (current : Option (Text × Text)) :
    scanAt letters before seen (octet :: rest) headers current =
      scanAt letters before (seen ++ [octet]) rest headers current := by
  have same : before ++ (seen ++ [octet]) ++ rest = before ++ seen ++ octet :: rest := by simp
  have next : (before ++ (seen ++ [octet])).length = (before ++ seen).length + 1 := by
    simp only [List.length_append, List.length_singleton]
    omega
  rw [scanAt, scanHeaders, lineEnding_append, none, if_pos (by simp), if_pos rfl, scanAt, same, next]

theorem scanAt_line (letters : CaseMapping) (before seen ending : Octets) {rest : Octets}
    (ended : lineEnding (ending ++ 10 :: rest) 0 = ending.length + 1) (headers : HeaderTable)
    (current : Option (Text × Text)) :
    scanAt letters before seen (ending ++ 10 :: rest) headers current =
      if seen = [] then (headers.flush current, (before ++ ending ++ [10]).length)
      else scanAt letters (before ++ seen ++ ending ++ [10]) [] rest
        (headerStep letters seen headers current).1
        (headerStep letters seen headers current).2 := by
  have line : ((before ++ seen ++ (ending ++ 10 :: rest)).take (before ++ seen).length).drop
      before.length = seen := by
    rw [List.take_left, List.drop_left]
  have same : before ++ seen ++ ending ++ [10] ++ [] ++ rest =
      before ++ seen ++ (ending ++ 10 :: rest) := by simp
  have next : (before ++ seen ++ ending ++ [10]).length =
      (before ++ seen).length + (ending.length + 1) := by
    simp only [List.length_append, List.length_singleton]
    omega
  rw [scanAt, scanHeaders, lineEnding_append, ended, if_pos (by simp), if_neg (by omega), line]
  by_cases empty : seen = []
  · subst empty
    simp
  · simp only [empty, if_false]
    rw [scanAt, same, List.append_nil, next]

theorem scanAt_lines (letters : CaseMapping) (before seen rest : Octets)
    (headers : HeaderTable) (current : Option (Text × Text)) (unbroken : 10 ∉ seen)
    (apart : ¬(seen.getLast? = some 13 ∧ rest.head? = some 10)) :
    scanAt letters before seen rest headers current =
      ((parseHeaderLines letters headers current (splitLines (seen ++ rest))).1,
        (before ++ seen ++ rest).length -
          (parseHeaderLines letters headers current (splitLines (seen ++ rest))).2.length) := by
  induction size : rest.length using Nat.strongRecOn generalizing before seen rest headers current with
  | ind size ih =>
      subst size
      -- A line that ends here, with `ending` before its line feed.
      have line : ∀ ending later : Octets, rest = ending ++ 10 :: later → 10 ∉ seen ++ ending →
          lineContent (seen ++ ending ++ [10]) = some seen →
          lineEnding rest 0 = ending.length + 1 →
          scanAt letters before seen rest headers current =
            ((parseHeaderLines letters headers current (splitLines (seen ++ rest))).1,
              (before ++ seen ++ rest).length -
                (parseHeaderLines letters headers current (splitLines (seen ++ rest))).2.length) := by
        rintro ending later rfl whole content ended
        have lines := parseHeaderLines_line letters content whole later headers current
        rw [List.append_assoc] at lines
        rw [scanAt_line letters before seen ending ended, lines]
        by_cases empty : seen = []
        · subst empty
          simp
          omega
        · simp only [empty, if_false]
          rw [ih later.length (by simp; omega) _ _ _ _ _ (by simp) (by simp) rfl]
          simp
      cases rest with
      | nil =>
          rw [scanAt_nil, List.append_nil, List.append_nil, parseHeaderLines_last letters unbroken]
          rfl
      | cons octet more =>
          by_cases newline : octet = 10
          · subst newline
            apply line [] more rfl (by simpa using unbroken)
            · rw [List.append_nil]
              exact lineContent_newline fun carriage => apart ⟨carriage, rfl⟩
            · exact lineEnding_newline more
          · by_cases pair : octet = 13 ∧ more.head? = some 10
            · obtain ⟨rfl, follows⟩ := pair
              obtain ⟨later, rfl⟩ := List.head?_eq_some_iff.mp follows
              apply line [13] later rfl (by simp [unbroken])
              · rw [List.append_assoc]
                exact lineContent_crlf seen
              · exact lineEnding_crlf later
            · rw [scanAt_skip letters before seen (lineEnding_other newline pair),
                ih more.length (by simp) _ _ _ _ _ (by simp [unbroken, Ne.symm newline])
                  (by simpa using pair) rfl]
              simp

theorem scanHeaders_eq_parseHeaders (letters : CaseMapping) (data : Octets) :
    scanHeaders letters data 0 0 ∅ none = parseHeaders letters data :=
  scanAt_lines letters [] [] data ∅ none (by simp) (by simp)

def parseFrom (letters : CaseMapping) (headers : HeaderTable) (current : Option (Text × Text))
    (data : Octets) : HeaderTable × Nat :=
  let parsed := parseHeaderLines letters headers current (splitLines data)
  (parsed.1, data.length - parsed.2.length)

def trimCarriage (line : Octets) : Octets :=
  if line.getLast? = some 13 then line.dropLast else line

theorem lineContent_trimCarriage (line : Octets) :
    lineContent (line ++ [10]) = some (trimCarriage line) := by
  simp [lineContent, trimCarriage]

theorem trimCarriage_eq_nil {line : Octets} : trimCarriage line = [] ↔ line = [] ∨ line = [13] := by
  rcases List.eq_nil_or_concat' line with rfl | ⟨before, last, rfl⟩
  · simp [trimCarriage]
  · by_cases carriage : last = 13
    · simp [trimCarriage, carriage]
    · simp [trimCarriage, carriage, List.append_eq_singleton_iff]

theorem parseHeaderLines_suffix (letters : CaseMapping) (headers : HeaderTable)
    (current : Option (Text × Text)) (lines : List Octets) :
    (parseHeaderLines letters headers current lines).2 <:+ lines.flatten := by
  induction lines generalizing headers current with
  | nil => exact List.suffix_rfl
  | cons line lines ih =>
      rw [parseHeaderLines, List.flatten_cons]
      cases lineContent line with
      | none => exact List.nil_suffix
      | some content =>
          dsimp only
          split
          · exact List.suffix_append line lines.flatten
          · split
            · exact (ih _ _).trans (List.suffix_append line lines.flatten)
            · exact (ih _ _).trans (List.suffix_append line lines.flatten)

variable (letters : CaseMapping) (headers : HeaderTable) (current : Option (Text × Text))

theorem parseFrom_last {line : Octets} (unbroken : 10 ∉ line) :
    parseFrom letters headers current line = (headers.flush current, line.length) := by
  rw [parseFrom, parseHeaderLines_last letters unbroken]
  rfl

theorem parseFrom_empty {line : Octets} (unbroken : 10 ∉ line) (empty : trimCarriage line = [])
    (rest : Octets) :
    parseFrom letters headers current (line ++ 10 :: rest) =
      (headers.flush current, line.length + 1) := by
  rw [parseFrom, splitLines_line unbroken, parseHeaderLines, lineContent_trimCarriage, empty]
  dsimp only
  rw [if_pos rfl, splitLines_flatten, List.length_append, List.length_cons]
  simp only [Prod.mk.injEq, true_and]
  omega

theorem parseFrom_next {line : Octets} (unbroken : 10 ∉ line) (full : trimCarriage line ≠ [])
    (rest : Octets) :
    parseFrom letters headers current (line ++ 10 :: rest) =
      ((parseFrom letters (headerStep letters (trimCarriage line) headers current).1
          (headerStep letters (trimCarriage line) headers current).2 rest).1,
        line.length + 1 + (parseFrom letters (headerStep letters (trimCarriage line) headers current).1
          (headerStep letters (trimCarriage line) headers current).2 rest).2) := by
  have shorter := (parseHeaderLines_suffix letters
    (headerStep letters (trimCarriage line) headers current).1
    (headerStep letters (trimCarriage line) headers current).2 (splitLines rest)).length_le
  rw [splitLines_flatten] at shorter
  have stepped : parseHeaderLines letters headers current (splitLines (line ++ 10 :: rest)) =
      parseHeaderLines letters (headerStep letters (trimCarriage line) headers current).1
        (headerStep letters (trimCarriage line) headers current).2 (splitLines rest) := by
    rw [splitLines_line unbroken, parseHeaderLines, lineContent_trimCarriage]
    dsimp only
    rw [if_neg full, headerStep]
    split <;> rfl
  simp only [parseFrom, stepped, List.length_append, List.length_cons]
  congr 1
  omega

/-! The offset. -/

def EmptyLineAt (data : Octets) (start stop : Nat) : Prop :=
  (start = 0 ∨ data[start - 1]? = some 10) ∧
    ((data[start]? = some 13 ∧ data[start + 1]? = some 10 ∧ stop = start + 2) ∨
      (data[start]? = some 10 ∧ stop = start + 1))

def BodyStart (data : Octets) (offset : Nat) : Prop :=
  (∃ start, EmptyLineAt data start offset ∧
    ∀ other stop, EmptyLineAt data other stop → start ≤ other) ∨
  ((∀ start stop, ¬EmptyLineAt data start stop) ∧ offset = data.length)

theorem not_emptyLineAt {line : Octets} (unbroken : 10 ∉ line) (start stop : Nat) :
    ¬EmptyLineAt line start stop := by
  rintro ⟨-, ⟨-, newline, -⟩ | ⟨newline, -⟩⟩
  · exact unbroken (List.mem_of_getElem? newline)
  · exact unbroken (List.mem_of_getElem? newline)

theorem emptyLineAt_here {line rest : Octets} {start stop : Nat} (unbroken : 10 ∉ line)
    (inside : start ≤ line.length) (empty : EmptyLineAt (line ++ 10 :: rest) start stop) :
    start = 0 ∧ trimCarriage line = [] ∧ stop = line.length + 1 := by
  obtain ⟨start_, ended⟩ := empty
  have first : start = 0 := by
    rcases start_ with zero | newline
    · exact zero
    · by_contra positive
      rw [List.getElem?_append_left (by omega)] at newline
      exact unbroken (List.mem_of_getElem? newline)
  subst first
  rw [trimCarriage_eq_nil]
  cases line with
  | nil =>
      rcases ended with ⟨carriage, -, -⟩ | ⟨-, rfl⟩
      · cases carriage
      · exact ⟨rfl, .inl rfl, rfl⟩
  | cons octet line =>
      rw [List.mem_cons, not_or] at unbroken
      rcases ended with ⟨carriage, newline, rfl⟩ | ⟨newline, -⟩
      · cases line with
        | nil =>
            have same : octet = 13 := by simpa using carriage
            exact ⟨rfl, .inr (by rw [same]), rfl⟩
        | cons next line =>
            have same : next = 10 := by simpa using newline
            simp [same] at unbroken
      · have same : octet = 10 := by simpa using newline
        exact absurd same.symm unbroken.1

theorem emptyLineAt_start {line : Octets} (empty : trimCarriage line = []) (rest : Octets) :
    EmptyLineAt (line ++ 10 :: rest) 0 (line.length + 1) := by
  rcases trimCarriage_eq_nil.mp empty with rfl | rfl
  · exact ⟨.inl rfl, .inr ⟨rfl, rfl⟩⟩
  · exact ⟨.inl rfl, .inl ⟨rfl, rfl, rfl⟩⟩

theorem emptyLineAt_later (line rest : Octets) (start stop : Nat) :
    EmptyLineAt (line ++ 10 :: rest) (line.length + 1 + start) (line.length + 1 + stop) ↔
      EmptyLineAt rest start stop := by
  have shape : line ++ 10 :: rest = (line ++ [10]) ++ rest := by simp
  have size : (line ++ [10]).length = line.length + 1 := by simp
  have shifted : ∀ place, (line ++ 10 :: rest)[line.length + 1 + place]? = rest[place]? := by
    intro place
    rw [shape, List.getElem?_append_right (by omega)]
    congr 1
    omega
  have starts : (line.length + 1 + start = 0 ∨
      (line ++ 10 :: rest)[line.length + 1 + start - 1]? = some 10) ↔
      (start = 0 ∨ rest[start - 1]? = some 10) := by
    cases start with
    | zero => simp
    | succ start =>
        have place : line.length + 1 + (start + 1) - 1 = line.length + 1 + start := by omega
        rw [place, shifted]
        simp
  simp only [EmptyLineAt, starts, shifted, Nat.add_assoc (line.length + 1), Nat.add_left_cancel_iff]

theorem EmptyLineAt.stop_le {data : Octets} {start stop : Nat} (empty : EmptyLineAt data start stop) :
    start < stop := by
  rcases empty.2 with ⟨-, -, rfl⟩ | ⟨-, rfl⟩ <;> omega

theorem emptyLineAt_cases {line rest : Octets} {start stop : Nat} (unbroken : 10 ∉ line)
    (full : trimCarriage line ≠ []) (empty : EmptyLineAt (line ++ 10 :: rest) start stop) :
    ∃ later end_, start = line.length + 1 + later ∧ stop = line.length + 1 + end_ ∧
      EmptyLineAt rest later end_ := by
  have beyond : line.length + 1 ≤ start := by
    by_contra inside
    exact full (emptyLineAt_here unbroken (by omega) empty).2.1
  obtain ⟨later, rfl⟩ := Nat.exists_eq_add_of_le beyond
  obtain ⟨end_, rfl⟩ := Nat.exists_eq_add_of_le (Nat.le_trans beyond empty.stop_le.le)
  exact ⟨later, end_, rfl, rfl, (emptyLineAt_later line rest later end_).mp empty⟩

theorem parseFrom_offset (data : Octets) :
    BodyStart data (parseFrom letters headers current data).2 := by
  induction data using pieces_induction (10 : UInt8) generalizing headers current with
  | last line unbroken =>
      rw [parseFrom_last letters headers current unbroken]
      exact .inr ⟨not_emptyLineAt unbroken, rfl⟩
  | next line rest unbroken ih =>
      by_cases empty : trimCarriage line = []
      · rw [parseFrom_empty letters headers current unbroken empty]
        exact .inl ⟨0, emptyLineAt_start empty rest, fun _ _ _ => Nat.zero_le _⟩
      · rw [parseFrom_next letters headers current unbroken empty]
        rcases ih _ _ with ⟨start, found, first⟩ | ⟨none, offset⟩
        · refine .inl ⟨line.length + 1 + start, (emptyLineAt_later line rest start _).mpr found, ?_⟩
          intro other stop otherEmpty
          obtain ⟨later, end_, rfl, rfl, emptyRest⟩ := emptyLineAt_cases unbroken empty otherEmpty
          have bound := first later end_ emptyRest
          omega
        · refine .inr ⟨?_, ?_⟩
          · intro start stop found
            obtain ⟨later, end_, -, -, emptyRest⟩ := emptyLineAt_cases unbroken empty found
            exact none later end_ emptyRest
          · rw [offset, List.length_append, List.length_cons]
            omega

theorem parseFrom_take {data : Octets} (ended : ∃ start stop, EmptyLineAt data start stop)
    (rest : Octets) :
    parseFrom letters headers current
        (data.take (parseFrom letters headers current data).2 ++ rest) =
      parseFrom letters headers current data := by
  induction data using pieces_induction (10 : UInt8) generalizing headers current with
  | last line unbroken =>
      obtain ⟨start, stop, found⟩ := ended
      exact absurd found (not_emptyLineAt unbroken start stop)
  | next line tail unbroken ih =>
      by_cases empty : trimCarriage line = []
      · have taken : (line ++ 10 :: tail).take (line.length + 1) = line ++ [10] := by
          simp [List.take_append]
        rw [parseFrom_empty letters headers current unbroken empty, taken, List.append_assoc,
          List.singleton_append, parseFrom_empty letters headers current unbroken empty]
      · obtain ⟨start, stop, found⟩ := ended
        obtain ⟨later, end_, -, -, emptyRest⟩ := emptyLineAt_cases unbroken empty found
        rw [parseFrom_next letters headers current unbroken empty]
        dsimp only
        generalize parsed : parseFrom letters (headerStep letters (trimCarriage line) headers current).1
          (headerStep letters (trimCarriage line) headers current).2 tail = result
        have taken : (line ++ 10 :: tail).take (line.length + 1 + result.2) =
            line ++ 10 :: tail.take result.2 := by
          rw [List.take_append, List.take_of_length_le (by omega)]
          congr 1
          rw [show line.length + 1 + result.2 - line.length = result.2 + 1 by omega,
            List.take_succ_cons]
        have tailParsed := ih (headerStep letters (trimCarriage line) headers current).1
          (headerStep letters (trimCarriage line) headers current).2 ⟨later, end_, emptyRest⟩
        rw [parsed] at tailParsed
        rw [taken, List.append_assoc, List.cons_append,
          parseFrom_next letters headers current unbroken empty, tailParsed]

def completeLines (data : Octets) : List Octets :=
  ((splitLines data).filterMap lineContent).takeWhile (· ≠ [])

def openContinuation (data : Octets) : List Octets :=
  if [] ∈ (splitLines data).filterMap lineContent then []
  else (splitLines data).getLast?.toList.filter fun line =>
    lineContent line = none && continuesField line

def joinedText (lines : List Octets) : Text :=
  (lines.takeWhile continuesField).flatMap decodeLossy

def joinedFields (letters : CaseMapping) : List Octets → List (Text × Text)
  | [] => []
  | line :: lines =>
      if continuesField line then joinedFields letters lines
      else
        ((headerField letters line).map fun field =>
          (field.1, unfoldHeader (field.2 ++ joinedText lines))).toList ++ joinedFields letters lines

def storeFields (headers : HeaderTable) (fields : List (Text × Text)) : HeaderTable :=
  fields.foldl (fun headers field => AList.insert field.1 field.2 headers) headers

theorem completeLines_last {line : Octets} (unbroken : 10 ∉ line) : completeLines line = [] := by
  by_cases empty : line = []
  · subst empty
    rfl
  · rw [completeLines, splitLines_last unbroken empty, List.filterMap_cons_none]
    · rfl
    · rw [lineContent, if_neg]
      exact fun last => unbroken (List.mem_of_getLast? last)

theorem completeLines_line {line : Octets} (unbroken : 10 ∉ line) (rest : Octets) :
    completeLines (line ++ 10 :: rest) =
      if trimCarriage line = [] then [] else trimCarriage line :: completeLines rest := by
  rw [completeLines, splitLines_line unbroken,
    List.filterMap_cons_some (lineContent_trimCarriage line), List.takeWhile_cons]
  by_cases empty : trimCarriage line = []
  · simp [empty]
  · simp [empty, completeLines]

theorem storeFields_append (headers : HeaderTable) (first second : List (Text × Text)) :
    storeFields headers (first ++ second) = storeFields (storeFields headers first) second :=
  List.foldl_append

def closeField (current : Option (Text × Text)) (text : Text) : List (Text × Text) :=
  (current.map fun field => (field.1, unfoldHeader (field.2 ++ text))).toList

theorem storeFields_closeField : storeFields headers (closeField current []) = headers.flush current := by
  cases current with
  | none => rfl
  | some field =>
      rw [closeField, Option.map_some, List.append_nil]
      rfl

theorem parseFrom_fields (data : Octets) :
    (parseFrom letters headers current data).1 =
      storeFields headers (closeField current (joinedText (completeLines data)) ++
        joinedFields letters (completeLines data)) := by
  induction data using pieces_induction (10 : UInt8) generalizing headers current with
  | last line unbroken =>
      rw [parseFrom_last letters headers current unbroken, completeLines_last unbroken, joinedFields,
        List.append_nil]
      exact (storeFields_closeField headers current).symm
  | next line rest unbroken ih =>
      rw [completeLines_line unbroken]
      by_cases empty : trimCarriage line = []
      · rw [parseFrom_empty letters headers current unbroken empty, if_pos empty, joinedFields,
          List.append_nil]
        exact (storeFields_closeField headers current).symm
      · rw [parseFrom_next letters headers current unbroken empty, if_neg empty, ih]
        by_cases folded : continuesField (trimCarriage line) = true
        · simp only [headerStep, folded, if_true, joinedFields, joinedText, List.takeWhile_cons,
            List.flatMap_cons, closeField, Option.map_map, Function.comp_def, List.append_assoc]
        · simp only [headerStep, folded, if_false, joinedFields, joinedText, List.takeWhile_cons,
            List.flatMap_nil, Bool.false_eq_true]
          rw [storeFields_append, storeFields_append, storeFields_append,
            storeFields_closeField]
          rfl

/-! A continuation line without an end. -/

theorem joinedFields_before (lines : List Octets) {field : Octets}
    (start : continuesField field = false) (rest : List Octets) :
    joinedFields letters (lines ++ field :: rest) =
      joinedFields letters lines ++ joinedFields letters (field :: rest) := by
  have stops : ∀ lines, joinedText (lines ++ field :: rest) = joinedText lines := by
    intro lines
    induction lines with
    | nil => simp [joinedText, start]
    | cons line lines ih =>
        rw [joinedText] at ih
        by_cases folded : continuesField line = true <;> simp [joinedText, folded] at ih ⊢
        exact ih
  induction lines with
  | nil => rfl
  | cons line lines ih =>
      rw [List.cons_append, joinedFields, joinedFields]
      split
      · exact ih
      · rw [ih, stops, List.append_assoc]

theorem joinedFields_folded {lines : List Octets} (folded : ∀ line ∈ lines, continuesField line) :
    joinedFields letters lines = [] := by
  induction lines with
  | nil => rfl
  | cons line lines ih =>
      rw [List.forall_mem_cons] at folded
      rw [joinedFields, if_pos folded.1, ih folded.2]

theorem last_field (lines : List Octets) :
    (∀ line ∈ lines, continuesField line) ∨
      ∃ before field folds, lines = before ++ field :: folds ∧ continuesField field = false ∧
        ∀ fold ∈ folds, continuesField fold := by
  induction lines with
  | nil => exact .inl nofun
  | cons line lines ih =>
      rcases ih with folded | ⟨before, field, folds, rfl, start, folded⟩
      · by_cases first : continuesField line = true
        · exact .inl (List.forall_mem_cons.mpr ⟨first, folded⟩)
        · exact .inr ⟨[], line, lines, rfl, Bool.not_eq_true _ ▸ first, folded⟩
      · exact .inr ⟨line :: before, field, folds, rfl, start, folded⟩

def fieldsOf (data : Octets) : List (Text × Text) :=
  joinedFields letters (completeLines data ++ openContinuation data)

/-- The data ends, without an empty line, in a line without an end that continues a field. -/
def CutContinuation (data : Octets) : Prop :=
  ∃ field, ((completeLines data).filter fun line => !continuesField line).getLast? = some field ∧
    58 ∈ field ∧ openContinuation data ≠ []

theorem not_mem_completeLines {data line : Octets} (member : line ∈ completeLines data) :
    10 ∉ line := by
  have inside := (List.takeWhile_prefix _).subset member
  obtain ⟨whole, among, content⟩ := List.mem_filterMap.mp inside
  exact lineContent_unbroken (splitLines_unbroken among) content

theorem openContinuation_cases (data : Octets) :
    openContinuation data = [] ∨
      ∃ last, openContinuation data = [last] ∧ continuesField last ∧ 10 ∉ last := by
  rw [openContinuation]
  split
  · exact .inl rfl
  · cases final : (splitLines data).getLast? with
    | none => exact .inl rfl
    | some last =>
        rw [Option.toList_some, List.filter_cons]
        split
        · rename_i unfinished
          simp only [Bool.and_eq_true, decide_eq_true_eq] at unfinished
          refine .inr ⟨last, rfl, unfinished.2, ?_⟩
          intro newline
          have unbroken := splitLines_unbroken (List.mem_of_getLast? final)
          have open_ := unfinished.1
          rw [lineContent] at open_
          split at open_
          · cases open_
          · rename_i other
            rcases List.eq_nil_or_concat' last with rfl | ⟨before, octet, rfl⟩
            · cases newline
            · rw [List.dropLast_concat] at unbroken
              rcases List.mem_append.mp newline with inside | final_
              · exact unbroken inside
              · rw [List.mem_singleton] at final_
                exact other (by simp [final_])
        · exact .inl rfl

theorem unfoldFrom_newline_free {text : Text} (newline : '\n' ∉ text) :
    unfoldFrom .plain text = text.filter (· ≠ '\r') := by
  induction text with
  | nil => rfl
  | cons first rest ih =>
      rw [List.mem_cons, not_or] at newline
      have later := ih newline.2
      by_cases carriage : first = '\r'
      · simp [unfoldFrom, carriage, later]
      · simp [unfoldFrom, carriage, Ne.symm newline.1, later]

theorem unfoldHeader_grows {value joined : Text} (plain : '\n' ∉ value ++ joined)
    (solid : ∃ character ∈ joined, character ≠ '\r') :
    unfoldHeader value ≠ unfoldHeader (value ++ joined) := by
  have before : '\n' ∉ value := fun newline => plain (List.mem_append_left _ newline)
  rw [unfoldHeader, unfoldHeader, unfoldFrom_newline_free before, unfoldFrom_newline_free plain,
    List.filter_append]
  intro same
  have none := List.self_eq_append_right.mp same
  obtain ⟨character, member, other⟩ := solid
  have kept : character ∈ joined.filter (· ≠ '\r') :=
    List.mem_filter.mpr ⟨member, by simpa using other⟩
  rw [none] at kept
  cases kept

theorem decodeLossy_folded {line : Octets} (folded : continuesField line) :
    ∃ blank later, decodeLossy line = blank :: later ∧ isWhitespace blank = true ∧
      blank ≠ '\r' := by
  rw [continuesField, Bool.or_eq_true, decide_eq_true_eq, decide_eq_true_eq] at folded
  rcases folded with blank | blank
  · obtain ⟨rest, rfl⟩ := List.head?_eq_some_iff.mp blank
    obtain ⟨later, text⟩ := decodeLossy_cons_ascii (by decide : (32 : UInt8).toNat < 128) rest
    exact ⟨_, later, text, by decide, by decide⟩
  · obtain ⟨rest, rfl⟩ := List.head?_eq_some_iff.mp blank
    obtain ⟨later, text⟩ := decodeLossy_cons_ascii (by decide : (9 : UInt8).toNat < 128) rest
    exact ⟨_, later, text, by decide, by decide⟩

theorem newline_not_mem_decodeLossy {line : Octets} (unbroken : 10 ∉ line) :
    '\n' ∉ decodeLossy line :=
  fun newline => unbroken (ascii_mem_decodeLossy (by decide) newline)

theorem newline_not_mem_headerField {field : Octets} {read : Text × Text} (unbroken : 10 ∉ field)
    (found : headerField letters field = some read) : '\n' ∉ read.2 := by
  rw [headerField] at found
  split at found
  · cases found
    apply newline_not_mem_decodeLossy
    intro newline
    exact unbroken ((List.dropWhile_sublist _).subset (List.mem_of_mem_tail newline))
  · cases found

theorem storeFields_closeField_ne {fields : List (Text × Text)} {read : Text × Text}
    {text joined : Text} (plain : '\n' ∉ read.2 ++ text ++ joined)
    (solid : ∃ character ∈ joined, character ≠ '\r') :
    storeFields headers (fields ++ closeField (some read) text) ≠
      storeFields headers (fields ++ closeField (some read) (text ++ joined)) := by
  intro same
  have looked := congrArg (AList.lookup read.1) same
  rw [storeFields_append, storeFields_append] at looked
  simp only [closeField, storeFields, Option.map_some, Option.toList_some, List.foldl_cons,
    List.foldl_nil, AList.lookup_insert, Option.some.injEq, ← List.append_assoc] at looked
  exact unfoldHeader_grows plain solid looked

theorem joinedFields_last (before : List Octets) {field : Octets}
    (start : continuesField field = false) {folds : List Octets}
    (folded : ∀ fold ∈ folds, continuesField fold) :
    joinedFields letters (before ++ field :: folds) = joinedFields letters before ++
      closeField (headerField letters field) (folds.flatMap decodeLossy) := by
  have all : folds.takeWhile continuesField = folds := List.takeWhile_eq_self_iff.mpr folded
  rw [joinedFields_before letters before start, joinedFields, if_neg (by simp [start]),
    joinedFields_folded letters folded, List.append_nil, joinedText, all]
  rfl

theorem storeFields_fieldsOf (data : Octets) :
    storeFields headers (joinedFields letters (completeLines data)) =
        storeFields headers (fieldsOf letters data) ↔
      ¬CutContinuation data := by
  rw [fieldsOf, CutContinuation]
  rcases openContinuation_cases data with nothing | ⟨last, opened, lastFolded, unbroken⟩
  · simp [nothing]
  · rw [opened]
    simp only [ne_eq, List.cons_ne_nil, not_false_eq_true, and_true, not_exists, not_and]
    have complete : ∀ line ∈ completeLines data, 10 ∉ line := fun _ member => not_mem_completeLines member
    generalize completeLines data = lines at complete
    rcases last_field lines with folded | ⟨before, field, folds, rfl, start, folded⟩
    · have all : ∀ line ∈ lines ++ [last], continuesField line := by
        simp only [List.mem_append, List.mem_singleton]
        rintro line (member | rfl)
        · exact folded line member
        · exact lastFolded
      have none : lines.filter (fun line => !continuesField line) = [] :=
        List.filter_eq_nil_iff.mpr fun line member => by simp [folded line member]
      simp [joinedFields_folded letters folded, joinedFields_folded letters all, none]
    · have whole : ∀ fold ∈ folds ++ [last], continuesField fold := by
        simp only [List.mem_append, List.mem_singleton]
        rintro fold (member | rfl)
        · exact folded fold member
        · exact lastFolded
      have final : ((before ++ field :: folds).filter fun line => !continuesField line).getLast? =
          some field := by
        have none : folds.filter (fun line => !continuesField line) = [] :=
          List.filter_eq_nil_iff.mpr fun line member => by simp [folded line member]
        rw [List.filter_append, List.filter_cons, none, start]
        exact List.getLast?_concat
      have shape : before ++ field :: folds ++ [last] = before ++ field :: (folds ++ [last]) := by simp
      simp only [final, Option.some.injEq, forall_eq', shape,
        joinedFields_last letters before start folded, joinedFields_last letters before start whole]
      by_cases colon : 58 ∈ field
      · simp only [colon, not_true_eq_false, iff_false]
        obtain ⟨read, found⟩ : ∃ read, headerField letters field = some read := by
          rw [headerField, if_pos colon]
          exact ⟨_, rfl⟩
        have value : '\n' ∉ read.2 := newline_not_mem_headerField letters (complete field (by simp)) found
        have plain : '\n' ∉ read.2 ++ folds.flatMap decodeLossy ++ decodeLossy last := by
          simp only [List.mem_append, List.mem_flatMap, not_or, not_exists, not_and]
          exact ⟨⟨value, fun fold member => newline_not_mem_decodeLossy
            (complete fold (by simp [member]))⟩, newline_not_mem_decodeLossy unbroken⟩
        rw [found, List.flatMap_append, List.flatMap_singleton]
        obtain ⟨blank, later, text, -, plainBlank⟩ := decodeLossy_folded lastFolded
        exact storeFields_closeField_ne headers plain
          ⟨blank, by rw [text]; exact List.mem_cons_self, plainBlank⟩
      · have nothing : headerField letters field = none := if_neg colon
        simp [nothing, closeField, colon]

/-- The split of header and body: the offset is the start of the body and what lies behind
it has no influence, always; every field has all its lines exactly when the data does not
end in an unfinished continuation line. -/
theorem scanHeaders_split (letters : CaseMapping) (data : Octets) :
    (BodyStart data (scanHeaders letters data 0 0 ∅ none).2 ∧
      ((∃ start stop, EmptyLineAt data start stop) → ∀ rest,
        scanHeaders letters (data.take (scanHeaders letters data 0 0 ∅ none).2 ++ rest) 0 0 ∅ none =
          scanHeaders letters data 0 0 ∅ none) ∧
      (scanHeaders letters data 0 0 ∅ none).1 = storeFields ∅ (fieldsOf letters data)) ↔
      ¬CutContinuation data := by
  have parsed : ∀ data, scanHeaders letters data 0 0 ∅ none = parseFrom letters ∅ none data :=
    scanHeaders_eq_parseHeaders letters
  simp only [parsed]
  rw [← storeFields_fieldsOf letters ∅ data, parseFrom_fields]
  refine ⟨fun split => split.2.2, fun same => ⟨parseFrom_offset letters ∅ none data, ?_, same⟩⟩
  exact fun ended rest => parseFrom_take letters ∅ none ended rest

/-- The text of an unfinished continuation line is in no field, and behind it there is no body. -/
theorem scanHeaders_cut :
    (scanHeaders asciiCase [65, 58, 98, 13, 10, 32, 99] 0 0 ∅ none).2 = 7 ∧
      (scanHeaders asciiCase [65, 58, 98, 13, 10, 32, 99] 0 0 ∅ none).1 ≠
        storeFields ∅ (fieldsOf asciiCase [65, 58, 98, 13, 10, 32, 99]) := by
  rw [scanHeaders_eq_parseHeaders]
  refine ⟨by decide +kernel, fun same => ?_⟩
  have looked := congrArg (AList.lookup ['a']) same
  exact absurd looked (by decide +kernel)

end Rusmes
