import Rusmes.Jmap.BackReference

/-!
References as a simultaneous substitution: what the arguments of a call should become, and
when the key by key rewriting comes to that in every order of the keys.
-/

namespace Rusmes

open WireText

section Meaning

variable (reader : JsonReader)

def referenceAt (arguments : JsonMap) (key : Text) : Option ResultReference :=
  (arguments.lookup ('#' :: key)).bind reader.asReference

def calledAs (reference : ResultReference) (pair : MethodCall × MethodResponse) : Bool :=
  pair.1.id = reference.resultOf && pair.1.method = reference.name

def ErrorAnswer (answer : MethodResponse) : Prop := answer.name = "error".toList

instance (answer : MethodResponse) : Decidable (ErrorAnswer answer) :=
  inferInstanceAs (Decidable (_ = _))

/-- The value a reference stands for: out of the answer to the first earlier call of that id
and method, and never out of an error. -/
def selected (earlier : List (MethodCall × MethodResponse)) (reference : ResultReference) :
    Option JsonValue :=
  (earlier.find? (calledAs reference)).bind fun pair =>
    if ErrorAnswer pair.2 then none else reader.pointer pair.2.body reference.path

structure Substitution (earlier : List (MethodCall × MethodResponse))
    (arguments resolved : JsonMap) : Prop where
  apart : ∀ key reference, referenceAt reader arguments key = some reference → key ∉ arguments
  replaced : ∀ key reference, referenceAt reader arguments key = some reference →
    ∃ value, selected reader earlier reference = some value ∧ resolved.lookup key = some value
  gone : ∀ key reference, referenceAt reader arguments key = some reference →
    '#' :: key ∉ resolved
  kept : ∀ key, referenceAt reader arguments key = none →
    (∀ plain, key = '#' :: plain → referenceAt reader arguments plain = none) →
    resolved.lookup key = arguments.lookup key

end Meaning

section Claimed

variable {σ : Type} (api : JmapApi σ) (capabilities : List Text) (principal : Principal)

/-- In every order of the keys the call is refused unseen, or in every order it is run on
the same substitution. -/
def SubstitutesAlike (batch : Batch) (earlier : List MethodCall) (call : MethodCall)
    (members : JsonMap) : Prop :=
  (∀ order : JsonMap, order.entries.Perm members.entries → ∃ error,
    resolveBackReferences api.reader batch.completed order = .error error ∧
    ∀ store, processCall api capabilities principal batch
      { call with arguments := .object order } store = (batch.refuse error call.id, store)) ∨
  ∀ order : JsonMap, order.entries.Perm members.entries → ∃ resolved,
    resolveBackReferences api.reader batch.completed order = .ok resolved ∧
    Substitution api.reader (earlier.zip batch.responses) members resolved ∧
    ∀ store, processCall api capabilities principal batch
        { call with arguments := .object order } store =
      dispatchCall api capabilities principal batch
        { call with arguments := .object resolved } store

end Claimed

/-! When the rewriting is the substitution. -/

def refusedAnswer (answer : MethodResponse) : Bool :=
  ErrorAnswer answer && bodyType answer.body = some JmapErrorType.invalidArguments.asStr

def FirstKept (earlier : List (MethodCall × MethodResponse)) (reference : ResultReference) :
    Prop :=
  ∀ pair, earlier.find? (calledAs reference) = some pair → refusedAnswer pair.2 = false

section Turns

variable (reader : JsonReader) (completed : List CompletedCall)

def KeysApart (arguments : JsonMap) : Prop :=
  ∀ key reference, referenceAt reader arguments key = some reference → key ∉ arguments

def Unanswered (reference : ResultReference) : Prop :=
  ∀ value, extractReferenced reader completed reference ≠ .ok value

def handedOn (held : JsonValue) : Option JsonValue :=
  (reader.asReference held).bind fun reference =>
    (extractReferenced reader completed reference).toOption

/-- What a key holds when its turn comes: what the reference under `#key` came to if its turn
was earlier, and else the key's own value. The entries before it are listed last first. -/
def heldIn : List (Sigma fun _ : Text => JsonValue) → Text → JsonValue → JsonValue
  | [], _, own => own
  | ⟨before, value⟩ :: rest, key, own =>
    if before = '#' :: key then
      (handedOn reader completed (heldIn rest before value)).getD (heldIn rest key own)
    else heldIn rest key own

def StuckAfter : List (Sigma fun _ : Text => JsonValue) →
    List (Sigma fun _ : Text => JsonValue) → Prop
  | _, [] => False
  | front, ⟨key, own⟩ :: rest =>
    (key.head? = some '#' ∧ ∃ reference,
      reader.asReference (heldIn reader completed front key own) = some reference ∧
        Unanswered reader completed reference) ∨
    StuckAfter (⟨key, own⟩ :: front) rest

/-- Whatever the order of the keys, some reference is reached that leads nowhere. -/
def AlwaysStuck (arguments : JsonMap) : Prop :=
  ∀ order : JsonMap, order.entries.Perm arguments.entries →
    StuckAfter reader completed [] order.entries

end Turns

section Rewriting

variable {reader : JsonReader} {completed : List CompletedCall}

theorem resolveKey_plain {hashKey : Text} {arguments : JsonMap}
    (plain : (arguments.lookup hashKey).bind reader.asReference = none) :
    resolveKey reader completed hashKey arguments = .ok arguments := by
  rw [resolveKey, plain]

theorem resolveKey_answered {hashKey : Text} {arguments : JsonMap}
    {reference : ResultReference} {value : JsonValue}
    (read : (arguments.lookup hashKey).bind reader.asReference = some reference)
    (found : extractReferenced reader completed reference = .ok value) :
    resolveKey reader completed hashKey arguments =
      .ok ((arguments.erase hashKey).insert (hashKey.drop 1) value) := by
  rw [resolveKey, read]
  simp only [found]
  rfl

theorem resolveKey_unanswered {hashKey : Text} {arguments : JsonMap}
    {reference : ResultReference} {error : BackRefError}
    (read : (arguments.lookup hashKey).bind reader.asReference = some reference)
    (failed : extractReferenced reader completed reference = .error error) :
    resolveKey reader completed hashKey arguments = .error error := by
  rw [resolveKey, read]
  simp only [failed]
  rfl

theorem unanswered_iff {reference : ResultReference} :
    Unanswered reader completed reference ↔
      ∃ error, extractReferenced reader completed reference = .error error := by
  unfold Unanswered
  cases extractReferenced reader completed reference with
  | error error => simp
  | ok value => simp

theorem lookup_moved {arguments : JsonMap} {hashKey key : Text} {value : JsonValue}
    (notHere : key ≠ hashKey) (notThere : hashKey ≠ '#' :: key) (hashed : hashKey.head? = some '#') :
    ((arguments.erase hashKey).insert (hashKey.drop 1) value).lookup key =
      arguments.lookup key := by
  have other : key ≠ hashKey.drop 1 := by
    intro same
    apply notThere
    cases hashKey with
    | nil => cases hashed
    | cons mark plain =>
      simp only [List.head?_cons, Option.some.injEq] at hashed
      rw [same, hashed]
      rfl
  rw [AList.lookup_insert_ne other, AList.lookup_erase_ne notHere]

theorem heldIn_quiet {front : List (Sigma fun _ : Text => JsonValue)} {before key : Text}
    {value own : JsonValue}
    (quiet : before = '#' :: key →
      handedOn reader completed (heldIn reader completed front before value) = none) :
    heldIn reader completed (⟨before, value⟩ :: front) key own =
      heldIn reader completed front key own := by
  rw [heldIn]
  split
  · rename_i above
    rw [quiet above, Option.getD_none]
  · rfl

theorem hashKeys_cons_hashed {key : Text} {keys : List Text} (hashed : key.head? = some '#') :
    hashKeys (key :: keys) = key :: hashKeys keys := by
  simp [hashKeys, hashed]

theorem hashKeys_cons_plain {key : Text} {keys : List Text} (plain : key.head? ≠ some '#') :
    hashKeys (key :: keys) = hashKeys keys := by
  simp [hashKeys, plain]

theorem resolveKeys_stuck : ∀ (rest front : List (Sigma fun _ : Text => JsonValue))
    (arguments : JsonMap), (rest.map Sigma.fst).Nodup →
    (∀ key own, ⟨key, own⟩ ∈ rest →
      arguments.lookup key = some (heldIn reader completed front key own)) →
    ((∃ error, resolveKeys reader completed (hashKeys (rest.map Sigma.fst)) arguments =
        .error error) ↔ StuckAfter reader completed front rest) := by
  intro rest
  induction rest with
  | nil =>
    intro front arguments distinct holds
    simp [hashKeys, resolveKeys, StuckAfter]
  | cons entry rest ih =>
    intro front arguments distinct holds
    obtain ⟨key, own⟩ := entry
    simp only [List.map_cons, List.nodup_cons] at distinct
    have here : arguments.lookup key = some (heldIn reader completed front key own) :=
      holds key own (by simp)
    have later : ∀ next value, ⟨next, value⟩ ∈ rest →
        arguments.lookup next = some (heldIn reader completed front next value) :=
      fun next value member => holds next value (by simp [member])
    by_cases hashed : key.head? = some '#'
    · rw [List.map_cons, hashKeys_cons_hashed hashed, resolveKeys, StuckAfter]
      cases read : reader.asReference (heldIn reader completed front key own) with
      | none =>
        have silent : handedOn reader completed (heldIn reader completed front key own) = none := by
          rw [handedOn, read, Option.bind_none]
        rw [resolveKey_plain (by rw [here]; exact read)]
        have onward := ih (⟨key, own⟩ :: front) arguments distinct.2 (by
          intro next value member
          rw [later next value member, heldIn_quiet fun _ => silent])
        simpa using onward
      | some reference =>
        have looked : (arguments.lookup key).bind reader.asReference = some reference := by
          rw [here]
          exact read
        cases led : extractReferenced reader completed reference with
        | error error =>
          rw [resolveKey_unanswered looked led]
          simp only [Except.error.injEq, exists_eq', true_iff]
          exact .inl ⟨hashed, reference, rfl, unanswered_iff.mpr ⟨error, led⟩⟩
        | ok handed =>
          have passed : handedOn reader completed (heldIn reader completed front key own) =
              some handed := by
            rw [handedOn, read, Option.bind_some, led]
            rfl
          rw [resolveKey_answered looked led]
          have onward := ih (⟨key, own⟩ :: front)
            ((arguments.erase key).insert (key.drop 1) handed) distinct.2 (by
              intro next value member
              have other : next ≠ key := by
                intro same
                exact distinct.1 (List.mem_map.mpr ⟨⟨next, value⟩, member, same⟩)
              by_cases above : key = '#' :: next
              · rw [heldIn, if_pos above, passed, above]
                exact AList.lookup_insert _
              · rw [lookup_moved other above hashed, later next value member,
                  heldIn_quiet fun same => absurd same above])
          have answered : ¬ Unanswered reader completed reference := fun none => none handed led
          simpa [answered] using onward
    · have quiet : ∀ next, key ≠ '#' :: next := by
        rintro next rfl
        exact hashed rfl
      rw [List.map_cons, hashKeys_cons_plain hashed, StuckAfter]
      have onward := ih (⟨key, own⟩ :: front) arguments distinct.2 (by
        intro next value member
        rw [later next value member, heldIn_quiet fun same => absurd same (quiet next)])
      simpa [hashed] using onward

theorem resolveBackReferences_stuck (arguments : JsonMap) :
    (∃ error, resolveBackReferences reader completed arguments = .error error) ↔
      StuckAfter reader completed [] arguments.entries := by
  apply resolveKeys_stuck arguments.entries [] arguments arguments.keys_nodup
  intro key own member
  rw [heldIn]
  exact AList.mem_lookup_iff.mpr member

/-! With every reference apart from the key it names, no key is met twice. -/

theorem referenceAt_moved {arguments : JsonMap} {plain key : Text} {value : JsonValue}
    (absent : plain ∉ arguments) (present : '#' :: key ∈ arguments) (other : key ≠ plain) :
    referenceAt reader ((arguments.erase ('#' :: plain)).insert plain value) key =
      referenceAt reader arguments key := by
  have below : '#' :: key ≠ plain := by
    rintro rfl
    exact absent present
  rw [referenceAt, AList.lookup_insert_ne below, AList.lookup_erase_ne (by simpa using other),
    referenceAt]

/-- What a walk over the keys `#plain` leaves of the arguments it started from. -/
structure Rewritten (reader : JsonReader) (completed : List CompletedCall) (plains : List Text)
    (arguments resolved : JsonMap) : Prop where
  filled : ∀ plain ∈ plains, ∀ reference, referenceAt reader arguments plain = some reference →
    ∃ value, extractReferenced reader completed reference = .ok value ∧
      resolved.lookup plain = some value
  gone : ∀ plain ∈ plains, ∀ reference, referenceAt reader arguments plain = some reference →
    '#' :: plain ∉ resolved
  kept : ∀ key, (key ∈ plains → referenceAt reader arguments key = none) →
    (∀ plain ∈ plains, key = '#' :: plain → referenceAt reader arguments plain = none) →
    resolved.lookup key = arguments.lookup key

theorem Rewritten.step {plain : Text} {rest : List Text} {arguments resolved : JsonMap}
    {reference : ResultReference} {value : JsonValue}
    (distinct : (plain :: rest).Nodup) (present : ∀ key ∈ rest, '#' :: key ∈ arguments)
    (here : '#' :: plain ∈ arguments)
    (apart : ∀ key ∈ plain :: rest, referenceAt reader arguments key ≠ none → key ∉ arguments)
    (read : referenceAt reader arguments plain = some reference)
    (led : extractReferenced reader completed reference = .ok value)
    (onward : Rewritten reader completed rest
      ((arguments.erase ('#' :: plain)).insert plain value) resolved) :
    Rewritten reader completed (plain :: rest) arguments resolved := by
  have absent : plain ∉ arguments := apart plain (by simp) (by simp [read])
  have fresh : plain ∉ rest := (List.nodup_cons.mp distinct).1
  have other : ∀ key ∈ rest, key ≠ plain := fun key member same => fresh (same ▸ member)
  have moved : ∀ key ∈ rest, referenceAt reader
      ((arguments.erase ('#' :: plain)).insert plain value) key =
        referenceAt reader arguments key :=
    fun key member => referenceAt_moved absent (present key member) (other key member)
  have notBelow : ∀ key ∈ rest, plain ≠ '#' :: key := by
    rintro key member rfl
    exact absent (present key member)
  have inner : '#' :: plain ∈ rest → referenceAt reader arguments ('#' :: plain) = none := by
    intro member
    by_contra some
    exact apart ('#' :: plain) (by simp [member]) some here
  refine ⟨?_, ?_, ?_⟩
  · intro key member next readNext
    rcases List.mem_cons.mp member with rfl | member
    · rw [read] at readNext
      cases readNext
      refine ⟨value, led, ?_⟩
      rw [onward.kept key (fun again => absurd again fresh)
        (fun below again same => absurd same (notBelow below again))]
      exact AList.lookup_insert _
    · exact onward.filled key member next ((moved key member).trans readNext)
  · intro key member next readNext
    rcases List.mem_cons.mp member with rfl | member
    · have left := onward.kept ('#' :: key)
        (fun again => (moved _ again).trans (inner again))
        (fun below again same => absurd again (by simp only [List.cons.injEq, true_and] at same
                                                  exact same ▸ fresh))
      rw [← AList.lookup_eq_none, left, AList.lookup_insert_ne (List.cons_ne_self '#' key),
        AList.lookup_erase]
    · exact onward.gone key member next ((moved key member).trans readNext)
  · intro key notPlain notHash
    have notFilled : key ≠ plain := by
      rintro rfl
      simp [read] at notPlain
    have notErased : key ≠ '#' :: plain := by
      intro same
      have none := notHash plain (by simp) same
      simp [read] at none
    rw [onward.kept key
      (fun member => (moved key member).trans (notPlain (by simp [member])))
      (fun below member same =>
        (moved below member).trans (notHash below (by simp [member]) same)),
      AList.lookup_insert_ne notFilled, AList.lookup_erase_ne notErased]

theorem resolveKeys_apart : ∀ (plains : List Text) (arguments : JsonMap), plains.Nodup →
    (∀ plain ∈ plains, '#' :: plain ∈ arguments) →
    (∀ plain ∈ plains, referenceAt reader arguments plain ≠ none → plain ∉ arguments) →
    ((∃ error, resolveKeys reader completed (plains.map ('#' :: ·)) arguments = .error error) ∧
      ∃ plain ∈ plains, ∃ reference, referenceAt reader arguments plain = some reference ∧
        Unanswered reader completed reference) ∨
    ∃ resolved, resolveKeys reader completed (plains.map ('#' :: ·)) arguments = .ok resolved ∧
      Rewritten reader completed plains arguments resolved := by
  intro plains
  induction plains with
  | nil =>
    intro arguments distinct present apart
    exact .inr ⟨arguments, rfl, by simp, by simp, fun key _ _ => rfl⟩
  | cons plain rest ih =>
    intro arguments distinct present apart
    have later : ∀ key ∈ rest, '#' :: key ∈ arguments :=
      fun key member => present key (by simp [member])
    have spread := List.nodup_cons.mp distinct
    rw [List.map_cons, resolveKeys]
    cases read : referenceAt reader arguments plain with
    | none =>
      rw [resolveKey_plain read]
      rcases ih arguments spread.2 later (fun key member => apart key (by simp [member])) with
        ⟨failed, key, member, found⟩ | ⟨resolved, done, rewritten⟩
      · exact .inl ⟨failed, key, by simp [member], found⟩
      · refine .inr ⟨resolved, done, ?_, ?_, ?_⟩
        · intro key member reference readKey
          rcases List.mem_cons.mp member with rfl | member
          · simp [read] at readKey
          · exact rewritten.filled key member reference readKey
        · intro key member reference readKey
          rcases List.mem_cons.mp member with rfl | member
          · simp [read] at readKey
          · exact rewritten.gone key member reference readKey
        · intro key notPlain notHash
          exact rewritten.kept key (fun member => notPlain (by simp [member]))
            (fun below member => notHash below (by simp [member]))
    | some reference =>
      have absent : plain ∉ arguments := apart plain (by simp) (by simp [read])
      cases led : extractReferenced reader completed reference with
      | error error =>
        rw [resolveKey_unanswered read led]
        exact .inl ⟨⟨error, rfl⟩, plain, by simp, reference, read,
          unanswered_iff.mpr ⟨error, led⟩⟩
      | ok value =>
        rw [resolveKey_answered read led, List.drop_one, List.tail_cons]
        have other : ∀ key ∈ rest, key ≠ plain := fun key member same => spread.1 (same ▸ member)
        have moved : ∀ key ∈ rest, referenceAt reader
            ((arguments.erase ('#' :: plain)).insert plain value) key =
              referenceAt reader arguments key :=
          fun key member => referenceAt_moved absent (later key member) (other key member)
        rcases ih ((arguments.erase ('#' :: plain)).insert plain value) spread.2
            (fun key member => by
              rw [AList.mem_insert, AList.mem_erase]
              exact .inr ⟨by simpa using other key member, later key member⟩)
            (fun key member some => by
              rw [moved key member] at some
              rw [AList.mem_insert, AList.mem_erase]
              rintro (same | ⟨_, inside⟩)
              · exact other key member same
              · exact apart key (by simp [member]) some inside) with
          ⟨failed, key, member, next, readNext, unanswered⟩ | ⟨resolved, done, rewritten⟩
        · exact .inl ⟨failed, key, by simp [member], next,
            (moved key member).symm.trans readNext, unanswered⟩
        · exact .inr ⟨resolved, done,
            Rewritten.step distinct later (present plain (by simp)) apart read led rewritten⟩

def plainKeys (arguments : JsonMap) : List Text := (hashKeys arguments.keys).map fun key => key.drop 1

theorem plainKeys_marked (arguments : JsonMap) :
    (plainKeys arguments).map ('#' :: ·) = hashKeys arguments.keys := by
  rw [plainKeys, List.map_map]
  refine (List.map_congr_left (g := id) ?_).trans (List.map_id _)
  intro key member
  have hashed : key.head? = some '#' := by simpa using (List.mem_filter.mp member).2
  cases key with
  | nil => cases hashed
  | cons mark plain =>
    simp only [List.head?_cons, Option.some.injEq] at hashed
    rw [hashed]
    rfl

theorem mem_plainKeys {arguments : JsonMap} {plain : Text} :
    plain ∈ plainKeys arguments ↔ '#' :: plain ∈ arguments := by
  rw [AList.mem_keys]
  have marked : '#' :: plain ∈ hashKeys arguments.keys ↔ '#' :: plain ∈ arguments.keys := by
    simp [hashKeys]
  rw [← marked, ← plainKeys_marked]
  simp

theorem plainKeys_nodup (arguments : JsonMap) : (plainKeys arguments).Nodup := by
  apply List.Nodup.of_map ('#' :: ·)
  rw [plainKeys_marked]
  exact arguments.keys_nodup.filter _

theorem referenceAt_perm {order members : JsonMap} (perm : order.entries.Perm members.entries)
    (key : Text) : referenceAt reader order key = referenceAt reader members key := by
  rw [referenceAt, referenceAt, AList.perm_lookup perm]

theorem mem_of_referenceAt {arguments : JsonMap} {key : Text} {reference : ResultReference}
    (read : referenceAt reader arguments key = some reference) : '#' :: key ∈ arguments := by
  rw [← AList.lookup_isSome]
  obtain ⟨value, found, _⟩ := Option.bind_eq_some_iff.mp read
  rw [found]
  rfl

theorem resolveBackReferences_apart {order members : JsonMap}
    (perm : order.entries.Perm members.entries) (apart : KeysApart reader members) :
    ((∃ error, resolveBackReferences reader completed order = .error error) ∧
      ∃ key reference, referenceAt reader members key = some reference ∧
        Unanswered reader completed reference) ∨
    ∃ resolved, resolveBackReferences reader completed order = .ok resolved ∧
      Rewritten reader completed (plainKeys order) order resolved := by
  have orderApart : ∀ plain ∈ plainKeys order, referenceAt reader order plain ≠ none →
      plain ∉ order := by
    intro plain member some
    rw [referenceAt_perm perm] at some
    obtain ⟨reference, read⟩ := Option.ne_none_iff_exists'.mp some
    rw [AList.mem_of_perm perm]
    exact apart plain reference read
  rcases @resolveKeys_apart reader completed (plainKeys order) order
      (plainKeys_nodup order) (fun plain member => mem_plainKeys.mp member) orderApart with
    ⟨failed, key, member, reference, read, unanswered⟩ | ⟨resolved, done, rewritten⟩
  · rw [plainKeys_marked] at failed
    rw [referenceAt_perm perm] at read
    exact .inl ⟨failed, key, reference, read, unanswered⟩
  · rw [plainKeys_marked] at done
    exact .inr ⟨resolved, done, rewritten⟩

end Rewriting

/-! What the batch keeps of the calls before. -/

section Earlier

variable {σ : Type} {api : JmapApi σ} {capabilities : List Text} {principal : Principal}

def entryOf (pair : MethodCall × MethodResponse) : CompletedCall :=
  ⟨pair.1.id, pair.1.method, pair.2.body⟩

structure Batch.Follows (batch : Batch) (earlier : List MethodCall) : Prop where
  answered : earlier.length = batch.responses.length
  kept : batch.completed =
    ((earlier.zip batch.responses).filter fun pair => !refusedAnswer pair.2).map entryOf
  marked : ∀ pair ∈ earlier.zip batch.responses, ErrorAnswer pair.2 →
    isErrorResponse pair.2.body = true

@[simp] theorem bodyType_errorResponse (error : JmapError) (id : Text) :
    bodyType (errorResponse error id).body = some error.errorType.asStr := by
  rw [errorResponse, JmapError.toValue, bodyType, List.lookup_cons_self]

theorem errorUrn_prefix (errorType : JmapErrorType) :
    errorUrn.isPrefixOf errorType.asStr = true := by
  cases errorType <;> decide

theorem isErrorResponse_errorResponse (error : JmapError) (id : Text) :
    isErrorResponse (errorResponse error id).body = true := by
  rw [isErrorResponse, bodyType_errorResponse]
  exact errorUrn_prefix error.errorType

theorem refusedAnswer_errorResponse (error : JmapError) (id : Text) :
    refusedAnswer (errorResponse error id) = decide (error.errorType = .invalidArguments) := by
  have named : ErrorAnswer (errorResponse error id) := rfl
  rw [refusedAnswer, bodyType_errorResponse, decide_eq_true named, Bool.true_and]
  cases error.errorType <;> decide

/-- A dispatched call is answered under its method's name or with an error of another kind
than a refusal. -/
def Dispatched (response : MethodResponse) : Prop :=
  refusedAnswer response = false ∧ (ErrorAnswer response → isErrorResponse response.body = true)

theorem Dispatched.of_named {response : MethodResponse} (named : ¬ ErrorAnswer response) :
    Dispatched response := by
  refine ⟨?_, fun error => absurd error named⟩
  rw [refusedAnswer, decide_eq_false named, Bool.false_and]

theorem Dispatched.of_error {error : JmapError} {id : Text}
    (kind : error.errorType ≠ .invalidArguments) : Dispatched (errorResponse error id) := by
  refine ⟨?_, fun _ => isErrorResponse_errorResponse error id⟩
  rw [refusedAnswer_errorResponse, decide_eq_false kind]

theorem runDispatched_named {call : MethodCall} {store after : σ} {response : MethodResponse}
    (ran : runDispatched api principal call store = (.ok response, after)) :
    response.name = call.method := by
  rw [runDispatched, Effect.bind_eq_ok] at ran
  obtain ⟨body, between, _, answered⟩ := ran
  cases answered
  rfl

theorem methods_not_error : ∀ method ∈ pushMethods ++ dispatchedMethods,
    method ≠ "error".toList := by
  decide

theorem validateMethodCapability_error {method : Text} {error : JmapError}
    (refused : validateMethodCapability method capabilities = .error error) :
    error.errorType = .unknownMethod := by
  rw [validateMethodCapability] at refused
  split at refused
  · cases refused
  · split at refused
    · cases refused
    · cases refused
      rfl

theorem dispatchMethod_dispatched {call : MethodCall} {store after : σ}
    {response : MethodResponse}
    (ran : dispatchMethod api capabilities principal call store = (.ok response, after)) :
    Dispatched response := by
  have named : call.method ∈ pushMethods ++ dispatchedMethods →
      runDispatched api principal call store = (.ok response, after) → Dispatched response := by
    intro known ran
    apply Dispatched.of_named
    rw [ErrorAnswer, runDispatched_named ran]
    exact methods_not_error call.method known
  rw [dispatchMethod] at ran
  split at ran
  · rename_i push
    exact named (List.mem_append_left _ push) ran
  · cases allowed : validateMethodCapability call.method capabilities with
    | error error =>
      rw [allowed] at ran
      cases ran
      apply Dispatched.of_error
      rw [validateMethodCapability_error allowed]
      decide
    | ok _ =>
      rw [allowed] at ran
      dsimp only at ran
      split at ran
      · rename_i known
        exact named (List.mem_append_right _ known) ran
      · cases ran
        exact Dispatched.of_error nofun

theorem dispatchCall_answer (batch : Batch) (call : MethodCall) (store : σ) :
    ∃ response, (dispatchCall api capabilities principal batch call store).1 =
      batch.complete call response ∧ Dispatched response := by
  rw [dispatchCall]
  split
  · rename_i response after ran
    exact ⟨response, rfl, dispatchMethod_dispatched ran⟩
  · rename_i text after ran
    exact ⟨_, rfl, Dispatched.of_error nofun⟩

theorem resolveBackRefsInCall_same {reader : JsonReader} {completed : List CompletedCall}
    {call resolved : MethodCall}
    (ran : resolveBackRefsInCall reader completed call = .ok resolved) :
    resolved.id = call.id ∧ resolved.method = call.method := by
  rw [resolveBackRefsInCall] at ran
  split at ran
  · cases done : resolveBackReferences reader completed _ with
    | error error =>
      rw [done] at ran
      cases ran
    | ok members =>
      rw [done] at ran
      cases ran
      exact ⟨rfl, rfl⟩
  · cases ran
    exact ⟨rfl, rfl⟩

theorem Batch.Follows.start : Batch.Follows ⟨[], []⟩ [] := by
  refine ⟨rfl, rfl, ?_⟩
  simp

theorem Batch.Follows.refuse {batch : Batch} {earlier : List MethodCall}
    (follows : batch.Follows earlier) (error : BackRefError) (call : MethodCall) :
    (batch.refuse error call.id).Follows (earlier ++ [call]) := by
  have named : refusedAnswer (errorResponse (.withDetail .invalidArguments error.display) call.id) =
      true := by
    rw [refusedAnswer_errorResponse]
    rfl
  refine ⟨?_, ?_, ?_⟩
  · simp [Batch.refuse, follows.answered]
  · rw [Batch.refuse, List.zip_append follows.answered, List.filter_append, List.map_append,
      follows.kept]
    simp [named]
  · rw [Batch.refuse, List.zip_append follows.answered]
    intro pair member marked
    rcases List.mem_append.mp member with before | last
    · exact follows.marked pair before marked
    · simp only [List.zip_cons_cons, List.zip_nil_right, List.mem_singleton] at last
      rw [last]
      exact isErrorResponse_errorResponse _ _

theorem Batch.Follows.complete {batch : Batch} {earlier : List MethodCall}
    (follows : batch.Follows earlier) {call resolved : MethodCall} {response : MethodResponse}
    (same : resolved.id = call.id ∧ resolved.method = call.method)
    (answer : Dispatched response) :
    (batch.complete resolved response).Follows (earlier ++ [call]) := by
  refine ⟨?_, ?_, ?_⟩
  · simp [Batch.complete, follows.answered]
  · rw [Batch.complete, List.zip_append follows.answered, List.filter_append, List.map_append,
      ← follows.kept]
    simp [answer.1, entryOf, same.1, same.2]
  · rw [Batch.complete, List.zip_append follows.answered]
    intro pair member marked
    rcases List.mem_append.mp member with before | last
    · exact follows.marked pair before marked
    · simp only [List.zip_cons_cons, List.zip_nil_right, List.mem_singleton] at last
      rw [last] at marked ⊢
      exact answer.2 marked

theorem processCall_follows {batch : Batch} {earlier : List MethodCall}
    (follows : batch.Follows earlier) (call : MethodCall) (store : σ) :
    (processCall api capabilities principal batch call store).1.Follows (earlier ++ [call]) := by
  rw [processCall]
  cases ran : resolveBackRefsInCall api.reader batch.completed call with
  | error error => exact follows.refuse error call
  | ok resolved =>
    obtain ⟨response, answered, dispatched⟩ :=
      @dispatchCall_answer σ api capabilities principal batch resolved store
    dsimp only
    rw [answered]
    exact follows.complete (resolveBackRefsInCall_same ran) dispatched

theorem processCalls_follows : ∀ (calls earlier : List MethodCall) (batch : Batch) (store : σ),
    batch.Follows earlier →
      (processCalls api capabilities principal calls batch store).1.Follows (earlier ++ calls) := by
  intro calls
  induction calls with
  | nil =>
    intro earlier batch store follows
    simpa [processCalls] using follows
  | cons call rest ih =>
    intro earlier batch store follows
    have onward := ih (earlier ++ [call])
      (processCall api capabilities principal batch call store).1
      (processCall api capabilities principal batch call store).2
      (processCall_follows follows call store)
    simpa [processCalls] using onward

end Earlier

section Sources

variable {reader : JsonReader} {batch : Batch} {earlier : List MethodCall}
  {reference : ResultReference} {value : JsonValue}

theorem find_completed (follows : batch.Follows earlier) :
    batch.completed.find? (answersTo reference) =
      ((earlier.zip batch.responses).find? fun pair =>
        !refusedAnswer pair.2 && calledAs reference pair).map entryOf := by
  rw [follows.kept, List.find?_map, List.find?_filter]
  congr 2
  funext pair
  rw [Bool.decide_and, Bool.decide_eq_true, Bool.decide_eq_true]
  rfl

theorem extractReferenced_ok {completed : List CompletedCall} :
    extractReferenced reader completed reference = .ok value ↔
      ∃ entry, completed.find? (answersTo reference) = some entry ∧
        isErrorResponse entry.body = false ∧
          reader.pointer entry.body reference.path = some value := by
  rw [extractReferenced]
  cases completed.find? (answersTo reference) with
  | none => simp
  | some entry =>
    cases shape : isErrorResponse entry.body with
    | true => simp [shape]
    | false => cases pointed : reader.pointer entry.body reference.path <;> simp [shape, pointed]

theorem find_kept {pairs : List (MethodCall × MethodResponse)}
    {pair : MethodCall × MethodResponse} (first : pairs.find? (calledAs reference) = some pair)
    (kept : refusedAnswer pair.2 = false) :
    pairs.find? (fun pair => !refusedAnswer pair.2 && calledAs reference pair) = some pair := by
  rw [List.find?_eq_some_iff_append] at first ⊢
  obtain ⟨called, front, back, split, before⟩ := first
  refine ⟨by simp [called, kept], front, back, split, ?_⟩
  intro other member
  have silent := before other member
  simp only [Bool.not_eq_eq_eq_not, Bool.not_true] at silent
  simp [silent]

theorem firstKept_of_selected {pairs : List (MethodCall × MethodResponse)}
    (led : selected reader pairs reference = some value) : FirstKept pairs reference := by
  intro pair first
  rw [selected, first, Option.bind_some] at led
  split at led
  · cases led
  · rename_i named
    exact (Dispatched.of_named named).1

theorem selected_of_firstKept (follows : batch.Follows earlier)
    (found : extractReferenced reader batch.completed reference = .ok value)
    (firstKept : FirstKept (earlier.zip batch.responses) reference) :
    selected reader (earlier.zip batch.responses) reference = some value := by
  obtain ⟨entry, entryFound, plain, pointed⟩ := extractReferenced_ok.mp found
  rw [find_completed follows, Option.map_eq_some_iff] at entryFound
  obtain ⟨taken, takenFound, rfl⟩ := entryFound
  have called : calledAs reference taken = true := by
    have both := List.find?_some takenFound
    simp only [Bool.and_eq_true] at both
    exact both.2
  obtain ⟨pair, first⟩ := Option.isSome_iff_exists.mp (List.find?_isSome.mpr
    ⟨taken, List.mem_of_find?_eq_some takenFound, called⟩)
  rw [find_kept first (firstKept pair first)] at takenFound
  cases takenFound
  have named : ¬ ErrorAnswer taken.2 := by
    intro error
    have shaped := follows.marked taken (List.mem_of_find?_eq_some first) error
    rw [show (entryOf taken).body = taken.2.body from rfl, shaped] at plain
    cases plain
  rw [selected, first, Option.bind_some, if_neg named]
  exact pointed

end Sources

section Outcome

variable {σ : Type} {api : JmapApi σ} {capabilities : List Text} {principal : Principal}
  {batch : Batch} {earlier : List MethodCall} {call : MethodCall} {members order : JsonMap}

theorem processCall_refused {error : BackRefError}
    (failed : resolveBackReferences api.reader batch.completed order = .error error) (store : σ) :
    processCall api capabilities principal batch { call with arguments := .object order } store =
      (batch.refuse error call.id, store) := by
  rw [processCall, resolveBackRefsInCall]
  dsimp only
  rw [failed]
  rfl

theorem processCall_resolved {resolved : JsonMap}
    (done : resolveBackReferences api.reader batch.completed order = .ok resolved) (store : σ) :
    processCall api capabilities principal batch { call with arguments := .object order } store =
      dispatchCall api capabilities principal batch
        { call with arguments := .object resolved } store := by
  rw [processCall, resolveBackRefsInCall]
  dsimp only
  rw [done]
  rfl

theorem Rewritten.substitution {resolved : JsonMap} (follows : batch.Follows earlier)
    (perm : order.entries.Perm members.entries) (apart : KeysApart api.reader members)
    (sources : ∀ key reference, referenceAt api.reader members key = some reference →
      ∀ value, extractReferenced api.reader batch.completed reference = .ok value →
        FirstKept (earlier.zip batch.responses) reference)
    (rewritten : Rewritten api.reader batch.completed (plainKeys order) order resolved) :
    Substitution api.reader (earlier.zip batch.responses) members resolved := by
  have listed : ∀ key reference, referenceAt api.reader members key = some reference →
      key ∈ plainKeys order ∧ referenceAt api.reader order key = some reference := by
    intro key reference read
    rw [← referenceAt_perm perm] at read
    exact ⟨mem_plainKeys.mpr (mem_of_referenceAt read), read⟩
  refine ⟨apart, ?_, ?_, ?_⟩
  · intro key reference read
    obtain ⟨member, readOrder⟩ := listed key reference read
    obtain ⟨value, found, filled⟩ := rewritten.filled key member reference readOrder
    exact ⟨value, selected_of_firstKept follows found (sources key reference read value found), filled⟩
  · intro key reference read
    obtain ⟨member, readOrder⟩ := listed key reference read
    exact rewritten.gone key member reference readOrder
  · intro key notFilled notGone
    rw [rewritten.kept key
      (fun _ => (referenceAt_perm perm key).trans notFilled)
      (fun plain _ same => (referenceAt_perm perm plain).trans (notGone plain same)),
      AList.perm_lookup perm]

/-- The arguments of a call are rewritten as one substitution, whatever the order of their
keys, exactly when no key stands beside a reference to it and no value comes from behind a
refused namesake, or when every order runs into a reference that leads nowhere. -/
theorem substitutes_iff (api : JmapApi σ) (capabilities : List Text) (principal : Principal)
    (earlier : List MethodCall) (call : MethodCall) (members : JsonMap) (store : σ) :
    SubstitutesAlike api capabilities principal
        (processCalls api capabilities principal earlier ⟨[], []⟩ store).1 earlier call members ↔
      (KeysApart api.reader members ∧
        ∀ key reference, referenceAt api.reader members key = some reference →
          ∀ value, extractReferenced api.reader
              (processCalls api capabilities principal earlier ⟨[], []⟩ store).1.completed
              reference = .ok value →
            FirstKept (earlier.zip
              (processCalls api capabilities principal earlier ⟨[], []⟩ store).1.responses)
              reference) ∨
      AlwaysStuck api.reader
        (processCalls api capabilities principal earlier ⟨[], []⟩ store).1.completed members := by
  have follows : (processCalls api capabilities principal earlier ⟨[], []⟩ store).1.Follows
      earlier := by
    have run := @processCalls_follows σ api capabilities principal earlier [] ⟨[], []⟩ store
      Batch.Follows.start
    simpa using run
  generalize (processCalls api capabilities principal earlier ⟨[], []⟩ store).1 = batch at follows ⊢
  constructor
  · rintro (refused | substituted)
    · refine .inr fun order perm => ?_
      obtain ⟨error, failed, _⟩ := refused order perm
      exact (resolveBackReferences_stuck order).mp ⟨error, failed⟩
    · obtain ⟨resolved, done, meaning, _⟩ := substituted members (List.Perm.refl _)
      refine .inl ⟨meaning.apart, ?_⟩
      intro key reference read value found
      obtain ⟨_, led, _⟩ := meaning.replaced key reference read
      exact firstKept_of_selected led
  · rintro (⟨apart, sources⟩ | stuck)
    · by_cases lost : ∃ key reference, referenceAt api.reader members key = some reference ∧
          Unanswered api.reader batch.completed reference
      · refine .inl fun order perm => ?_
        rcases resolveBackReferences_apart perm apart with
          ⟨⟨error, failed⟩, _⟩ | ⟨resolved, _, rewritten⟩
        · exact ⟨error, failed, processCall_refused failed⟩
        · obtain ⟨key, reference, read, unanswered⟩ := lost
          rw [← referenceAt_perm perm] at read
          obtain ⟨value, found, _⟩ := rewritten.filled key
            (mem_plainKeys.mpr (mem_of_referenceAt read)) reference read
          exact absurd found (unanswered value)
      · refine .inr fun order perm => ?_
        rcases resolveBackReferences_apart perm apart with
          ⟨_, again⟩ | ⟨resolved, done, rewritten⟩
        · exact absurd again lost
        · exact ⟨resolved, done, rewritten.substitution follows perm apart sources,
            processCall_resolved done⟩
    · refine .inl fun order perm => ?_
      obtain ⟨error, failed⟩ := (resolveBackReferences_stuck order).mpr (stuck order perm)
      exact ⟨error, failed, processCall_refused failed⟩

end Outcome

def readText : Option JsonValue → Option Text
  | some (.string value) => some value
  | _ => none

def flatReader : JsonReader where
  pointer body path := body.asObject.bind fun entries => entries.lookup (path.drop 1)
  asReference value := do
    let entries ← value.asObject
    let resultOf ← readText (entries.lookup "resultOf".toList)
    let name ← readText (entries.lookup "name".toList)
    let path ← readText (entries.lookup "path".toList)
    pure { resultOf, name, path }

def queryAnswer : JsonValue :=
  .object [("accountId".toList, .string "account-alice".toList),
    ("queryState".toList, .string "s1".toList), ("canCalculateChanges".toList, .bool false),
    ("position".toList, .number "0".toList), ("ids".toList, .array [.string "email-1".toList])]

def queryApi : JmapApi Unit where
  reader := flatReader
  runMethod method _ _ :=
    if method = "Email/query".toList then pure queryAnswer
    else Effect.fail "missing field".toList

def referenceTo (id : String) : JsonValue :=
  .object [("resultOf".toList, .string id.toList), ("name".toList, .string "Email/query".toList),
    ("path".toList, .string "/ids".toList)]

def queryCall (members : JsonMap) : MethodCall :=
  ⟨"Email/query".toList, .object members, "c0".toList⟩

def plainMembers : JsonMap :=
  AList.singleton "accountId".toList (.string "account-alice".toList)

def lostMembers : JsonMap := AList.singleton "#filter".toList (referenceTo "c9")

def doubledMembers : JsonMap :=
  (AList.singleton "#ids".toList (referenceTo "c0")).insert "ids".toList (.array [])

def singleMembers : JsonMap := AList.singleton "#ids".toList (referenceTo "c0")

def getCall (members : JsonMap) : MethodCall :=
  ⟨"Email/get".toList, .object members, "c1".toList⟩

def mailPrincipal : Principal := Principal.fromUsername "alice".toList

theorem substitution_missed :
    ¬ SubstitutesAlike queryApi [mailCapability] mailPrincipal
        (processCalls queryApi [mailCapability] mailPrincipal [queryCall plainMembers]
          ⟨[], []⟩ ()).1 [queryCall plainMembers] (getCall doubledMembers) doubledMembers ∧
      ¬ SubstitutesAlike queryApi [mailCapability] mailPrincipal
        (processCalls queryApi [mailCapability] mailPrincipal
          [queryCall lostMembers, queryCall plainMembers] ⟨[], []⟩ ()).1
        [queryCall lostMembers, queryCall plainMembers] (getCall singleMembers) singleMembers := by
  constructor
  · rintro (refused | substituted)
    · obtain ⟨error, failed, _⟩ := refused doubledMembers (List.Perm.refl _)
      have accepted : (resolveBackReferences queryApi.reader
          (processCalls queryApi [mailCapability] mailPrincipal [queryCall plainMembers]
            ⟨[], []⟩ ()).1.completed doubledMembers).toOption.isSome = true := by
        decide +kernel
      rw [failed] at accepted
      cases accepted
    · obtain ⟨resolved, _, meaning, _⟩ := substituted doubledMembers (List.Perm.refl _)
      exact meaning.apart "ids".toList ⟨"c0".toList, "Email/query".toList, "/ids".toList⟩
        (by decide +kernel) (by decide +kernel)
  · rintro (refused | substituted)
    · obtain ⟨error, failed, _⟩ := refused singleMembers (List.Perm.refl _)
      have accepted : (resolveBackReferences queryApi.reader
          (processCalls queryApi [mailCapability] mailPrincipal
            [queryCall lostMembers, queryCall plainMembers] ⟨[], []⟩ ()).1.completed
          singleMembers).toOption.isSome = true := by
        decide +kernel
      rw [failed] at accepted
      cases accepted
    · obtain ⟨resolved, _, meaning, _⟩ := substituted singleMembers (List.Perm.refl _)
      obtain ⟨value, led, _⟩ := meaning.replaced "ids".toList
        ⟨"c0".toList, "Email/query".toList, "/ids".toList⟩ (by decide +kernel)
      have none : (selected queryApi.reader
          ([queryCall lostMembers, queryCall plainMembers].zip
            (processCalls queryApi [mailCapability] mailPrincipal
              [queryCall lostMembers, queryCall plainMembers] ⟨[], []⟩ ()).1.responses)
          ⟨"c0".toList, "Email/query".toList, "/ids".toList⟩).isNone = true := by
        decide +kernel
      rw [led] at none
      cases none

end Rusmes
