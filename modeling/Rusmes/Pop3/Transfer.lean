import Rusmes.Library.LineEnds
import Rusmes.Pop3.Uids

/-!
What a client receives for RETR and TOP against what LIST, STAT and the status line announce.
The stuffing of lines is not part of the message, and its octets are not counted. Each reading
of a mail builds its header map again, and the order of the fields may come out another.
-/

namespace Rusmes

open WireText

/-- The mail as another reading of it: a streamed body has been read to its end. -/
structure Mail.Reread (mail found : Mail) : Prop where
  headers : found.message.headers.entries.Perm mail.message.headers.entries
  body : found.message.body = mail.message.body.drained

namespace Pop3Session

variable {β σ : Type}

def fieldLine (field : Text × Text) : Text := field.1 ++ ": ".toList ++ field.2 ++ "\r\n".toList

def headText (mail : Mail) : Text := mail.message.headers.fields.flatMap fieldLine ++ "\r\n".toList

def dataLines (wire : Text) : List Text := (textLines wire).tail.dropLast

def unstuffed (line : Text) : Text := if line.head? = some '.' then line.tail else line

def sentText (wire : Text) : Text :=
  (dataLines wire).flatMap fun line => unstuffed line ++ ['\r', '\n']

def headerBlock (lines : List Text) : List Text := lines.takeWhile (!·.isEmpty)

def bodyLines (lines : List Text) : List Text := (lines.dropWhile (!·.isEmpty)).tail

def wireOf (handled : Pop3Handled × Pop3World β σ) : Text :=
  match handled.1 with
  | .answer response => response.toWire
  | .enter _ _ => []

section Announced

variable (services : Pop3Services β σ)

def Finds (store : σ) (info : MessageInfo) (found : Mail) : Prop :=
  (services.messageStore.getMessage info.messageId store).1 = .ok (some found)

structure Announced (store : σ) (info : MessageInfo) (mail : Mail) : Prop where
  size : info.size = octetLength (mailToWire mail)
  again : ∃ found, Finds services store info found ∧ mail.Reread found

structure Maildrop (world : Pop3World β σ) (mails : List Mail) : Prop where
  transaction : world.session.state = .transaction
  messages : List.Forall₂ (Announced services world.store) world.session.messages mails

def unmarked (world : Pop3World β σ) (mails : List Mail) : List (Nat × Mail) :=
  ((world.session.messages.zip mails).zipIdx.filter fun entry => !entry.1.1.deleted).map fun entry =>
    (entry.2 + 1, entry.1.2)

def announcedSize (mails : List (Nat × Mail)) : Nat :=
  (mails.map fun entry => octetLength (mailToWire entry.2)).sum

/-- The message with the number goes out as the text of the mail, with the header fields in the
order they were found in; TOP is asked for later. -/
structure SendsMessage (world later : Pop3World β σ) (number : UInt32) (info : MessageInfo)
    (mail : Mail) : Prop where
  text : ∀ found, Finds services world.store info found →
    sentText (wireOf (handleRetr services number world)) =
      mailToWire { found with message.body := mail.message.body }
  terminator : (textLines (wireOf (handleRetr services number world))).getLast? = some ['.'] ∧
    ['.'] ∉ dataLines (wireOf (handleRetr services number world))
  status : (textLines (wireOf (handleRetr services number world))).head? =
    some ("+OK ".toList ++ decimal (octetLength
      (sentText (wireOf (handleRetr services number world)))) ++ " octets".toList)
  list : (handleList (some number) world).1 = .answer (.ok (decimal number.toNat ++ ' ' ::
    decimal (octetLength (sentText (wireOf (handleRetr services number world))))))
  top : ∀ lines, dataLines (wireOf (handleTop services number lines later)) =
    headerBlock (dataLines (wireOf (handleRetr services number world))) ++
      [] :: (bodyLines (dataLines (wireOf (handleRetr services number world)))).take lines.toNat

structure SendsAnnounced (world later : Pop3World β σ) (mails : List Mail) : Prop where
  message : ∀ number info mail, world.session.numbered number = some info →
    info.deleted = false → mails[number.toNat - 1]? = some mail →
      SendsMessage services world later number info mail
  listing : (handleList none world).1 = .answer (.okMultiline
    (sizeSummary (unmarked world mails).length (announcedSize (unmarked world mails)))
    ((unmarked world mails).map fun entry =>
      decimal entry.1 ++ ' ' :: decimal (octetLength (mailToWire entry.2))))
  stat : (handleStat world).1 = .answer (.ok (decimal (unmarked world mails).length ++ ' ' ::
    decimal (announcedSize (unmarked world mails))))

def openingLines (mail : Mail) : List Text :=
  (textLines (headText mail)).take
    ((textLines (headText mail)).findIdx List.isEmpty + UInt32.size)

def SameOpening (world later : Pop3World β σ) (info : MessageInfo) : Prop :=
  ∀ found again, Finds services world.store info found → Finds services later.store info again →
    openingLines again = openingLines found

end Announced

/-- The line feeds of the mail end lines as they are sent, the last line has its end, and no
streamed body has been used up. -/
structure SentAsIs (mail : Mail) : Prop where
  headers : ∀ field ∈ mail.message.headers.fields, NoBareFeed field.1 ∧ NoBareFeed field.2
  body : NoBareFeed (decodeLossy mail.message.body.octets)
  ended : decodeLossy mail.message.body.octets = [] ∨
    (decodeLossy mail.message.body.octets).getLast? = some '\n'
  streamed : ∀ large, mail.message.body = .large large → decodeLossy large.reader = []

theorem mailToWire_head (mail : Mail) :
    mailToWire mail = headText mail ++ decodeLossy mail.message.body.octets := rfl

theorem fieldLine_ended (field : Text × Text) : (fieldLine field).getLast? = some '\n' := by
  rw [fieldLine, List.getLast?_append_of_ne_nil _ (by decide)]
  rfl

theorem headText_ended (mail : Mail) : (headText mail).getLast? = some '\n' := by
  rw [headText, List.getLast?_append_of_ne_nil _ (by decide)]
  rfl

theorem noBareFeed_fieldLine (field : Text × Text) :
    NoBareFeed (fieldLine field) ↔ NoBareFeed field.1 ∧ NoBareFeed field.2 := by
  have colon : NoBareFeed ": ".toList := feedsAfter_unbroken (by decide) ' '
  have ending : NoBareFeed "\r\n".toList := by simp [NoBareFeed, feedsAfter]
  rw [fieldLine, noBareFeed_append (Or.inr (by decide)), List.append_assoc,
    noBareFeed_append (Or.inr (by simp)), noBareFeed_append (Or.inl (by decide))]
  simp only [colon, ending, true_and, and_true]

theorem noBareFeed_headText (mail : Mail) : NoBareFeed (headText mail) ↔
    ∀ field ∈ mail.message.headers.fields, NoBareFeed field.1 ∧ NoBareFeed field.2 := by
  have ending : NoBareFeed "\r\n".toList := by simp [NoBareFeed, feedsAfter]
  rw [headText, noBareFeed_append (Or.inr (by decide))]
  simp only [ending, and_true]
  induction mail.message.headers.fields with
  | nil => simp [NoBareFeed, feedsAfter]
  | cons field fields ih =>
      have apart : (fieldLine field).getLast? ≠ some '\r' := by
        rw [fieldLine_ended]
        decide
      rw [List.flatMap_cons, noBareFeed_append (Or.inl apart), noBareFeed_fieldLine,
        List.forall_mem_cons]
      exact and_congr_right fun _ => ih

theorem textLines_headText (mail : Mail) : textLines (headText mail) =
    mail.message.headers.fields.flatMap (fun field => textLines (fieldLine field)) ++ [[]] := by
  rw [headText]
  induction mail.message.headers.fields with
  | nil => rfl
  | cons field fields ih =>
      rw [List.flatMap_cons, List.append_assoc, textLines_append (Or.inr (fieldLine_ended field)),
        ih, List.flatMap_cons, List.append_assoc]

theorem textLines_mailToWire (mail : Mail) : textLines (mailToWire mail) =
    textLines (headText mail) ++ textLines (decodeLossy mail.message.body.octets) := by
  rw [mailToWire_head, textLines_append (Or.inr (headText_ended mail))]

end Pop3Session

namespace Mail.Reread

open Pop3Session

variable {mail found : Mail}

theorem fields (reread : mail.Reread found) :
    found.message.headers.fields.Perm mail.message.headers.fields :=
  reread.headers.flatMap_right _

theorem noBareFeed (reread : mail.Reread found) :
    NoBareFeed (headText found) ↔ NoBareFeed (headText mail) := by
  rw [noBareFeed_headText, noBareFeed_headText]
  exact ⟨fun clean field member => clean field (reread.fields.mem_iff.mpr member),
    fun clean field member => clean field (reread.fields.mem_iff.mp member)⟩

theorem octetLength_text (reread : mail.Reread found) (body : MessageBody) :
    octetLength (mailToWire { found with message.body := body }) =
      octetLength (mailToWire { mail with message.body := body }) :=
  ((((reread.fields.flatMap_right _).append_right _).append_right _).flatMap_right _).length_eq

theorem length_textLines (reread : mail.Reread found) :
    (textLines (headText found)).length = (textLines (headText mail)).length := by
  rw [textLines_headText, textLines_headText, List.length_append, List.length_append,
    (reread.fields.flatMap_right _).length_eq]

end Mail.Reread

def Pop3Response.dotted (line : Text) : Text := if line.head? = some '.' then '.' :: line else line

namespace Pop3Session

open Pop3Response

theorem unstuffed_dotted (line : Text) : unstuffed (dotted line) = line := by
  by_cases dot : line.head? = some '.'
  · simp [dotted, unstuffed, dot]
  · simp [dotted, unstuffed, dot]

theorem dotted_ne (line : Text) : dotted line ≠ ['.'] := by
  by_cases dot : line.head? = some '.'
  · cases line with
    | nil => cases dot
    | cons first rest => simp [dotted, Option.some.inj dot]
  · intro same
    rw [dotted, if_neg dot] at same
    exact dot (by rw [same]; rfl)

theorem dotted_unbroken {line : Text} (unbroken : '\n' ∉ line) : '\n' ∉ dotted line := by
  rw [dotted]
  split
  · simpa using unbroken
  · exact unbroken

theorem textLines_ended {line : Text} (unbroken : '\n' ∉ line) (rest : Text) :
    textLines (line ++ "\r\n".toList ++ rest) = line :: textLines rest := by
  have whole : '\n' ∉ line ++ ['\r'] := by simpa using unbroken
  have cut := textLines_line whole rest
  rw [stripReturn, List.getLast?_concat, if_pos rfl, List.dropLast_concat] at cut
  rw [← cut]
  simp

theorem textLines_stuffed {lines : List Text} (unbroken : ∀ line ∈ lines, '\n' ∉ line) (rest : Text) :
    textLines (lines.flatMap stuffed ++ rest) = lines.map dotted ++ textLines rest := by
  induction lines with
  | nil => rfl
  | cons line lines ih =>
      rw [List.forall_mem_cons] at unbroken
      rw [List.flatMap_cons, stuffed, ← dotted, List.append_assoc,
        textLines_ended (dotted_unbroken unbroken.1), ih unbroken.2]
      rfl

theorem textLines_okMultiline {message : Text} {lines : List Text} (plain : '\n' ∉ message)
    (unbroken : ∀ line ∈ lines, '\n' ∉ line) :
    textLines (okMultiline message lines).toWire =
      ("+OK ".toList ++ message) :: (lines.map dotted ++ [['.']]) := by
  have whole : '\n' ∉ "+OK ".toList ++ message := by simpa using plain
  rw [okMultiline, toWire, textLines_ended whole, textLines_stuffed unbroken]
  rfl

theorem dataLines_okMultiline {message : Text} {lines : List Text} (plain : '\n' ∉ message)
    (unbroken : ∀ line ∈ lines, '\n' ∉ line) :
    dataLines (okMultiline message lines).toWire = lines.map dotted := by
  rw [dataLines, textLines_okMultiline plain unbroken, List.tail_cons, List.dropLast_concat]

theorem sentText_okMultiline {message : Text} {lines : List Text} (plain : '\n' ∉ message)
    (unbroken : ∀ line ∈ lines, '\n' ∉ line) :
    sentText (okMultiline message lines).toWire = lines.flatMap (· ++ ['\r', '\n']) := by
  rw [sentText, dataLines_okMultiline plain unbroken, List.flatMap_map]
  simp only [unstuffed_dotted]

theorem isEmpty_dotted (line : Text) : (dotted line).isEmpty = line.isEmpty := by
  rw [dotted]
  split <;> cases line <;> simp_all

theorem headerBlock_dotted (lines : List Text) :
    headerBlock (lines.map dotted) = (headerBlock lines).map dotted := by
  simp only [headerBlock, List.takeWhile_map, Function.comp_def, isEmpty_dotted]

theorem bodyLines_dotted (lines : List Text) :
    bodyLines (lines.map dotted) = (bodyLines lines).map dotted := by
  simp only [bodyLines, List.dropWhile_map, Function.comp_def, isEmpty_dotted, List.map_tail]

theorem dotted_injective : Function.Injective dotted :=
  Function.LeftInverse.injective unstuffed_dotted

theorem take_headerBlock {lines : List Text} (blank : [] ∈ lines) (count : Nat) :
    lines.take (lines.findIdx List.isEmpty + 1 + count) =
      headerBlock lines ++ [] :: (bodyLines lines).take count := by
  induction lines with
  | nil => cases blank
  | cons line lines ih =>
      cases line with
      | nil =>
          rw [List.findIdx_cons, List.isEmpty_nil, cond_true, Nat.zero_add, Nat.add_comm,
            List.take_succ_cons]
          rfl
      | cons first rest =>
          have later : [] ∈ lines := by simpa using blank
          have index : ((first :: rest) :: lines).findIdx List.isEmpty + 1 + count =
              lines.findIdx List.isEmpty + 1 + count + 1 := by
            rw [List.findIdx_cons, List.isEmpty_cons, cond_false]
            omega
          rw [index, List.take_succ_cons, ih later]
          rfl

theorem take_findIdx_iff {α : Type} {blank : α → Bool} {one other : List α} {bound : Nat}
    (length : other.length = one.length) (inside : one.findIdx blank < one.length)
    (otherInside : other.findIdx blank < other.length) (positive : 0 < bound) (common : List α) :
    (∀ count < bound, (other ++ common).take (other.findIdx blank + 1 + count) =
        (one ++ common).take (one.findIdx blank + 1 + count)) ↔
      other.take (other.findIdx blank + bound) = one.take (one.findIdx blank + bound) := by
  constructor
  · intro alike
    have index : other.findIdx blank = one.findIdx blank := by
      have shortest := congrArg List.length (alike 0 positive)
      simp only [List.length_take, List.length_append] at shortest
      omega
    have longest := alike (bound - 1) (by omega)
    rw [index, show one.findIdx blank + 1 + (bound - 1) = one.findIdx blank + bound by omega]
      at longest
    have cut := congrArg (List.take one.length) longest
    rw [List.take_take, List.take_take, Nat.min_comm, ← List.take_take, ← List.take_take,
      List.take_left' rfl, List.take_left' length] at cut
    rw [index]
    exact cut
  · intro openings count few
    have index : other.findIdx blank = one.findIdx blank := by
      have found := congrArg (List.findIdx blank) openings
      rw [List.findIdx_take, List.findIdx_take] at found
      omega
    have part := congrArg (List.take (one.findIdx blank + 1 + count)) openings
    rw [List.take_take, List.take_take, Nat.min_eq_left (by omega), Nat.min_eq_left (by omega)]
      at part
    rw [index, List.take_append, List.take_append, part, length]

/-! Reading the message again. -/

theorem sentAsIs_small {mail : Mail} {bytes : Octets} (small : mail.message.body = .small bytes) :
    SentAsIs mail ↔ NoBareFeed (mailToWire mail) ∧
      (mailToWire mail = [] ∨ (mailToWire mail).getLast? = some '\n') := by
  have apart : (headText mail).getLast? ≠ some '\r' := by
    rw [headText_ended]
    decide
  have final : (mailToWire mail = [] ∨ (mailToWire mail).getLast? = some '\n') ↔
      (decodeLossy mail.message.body.octets = [] ∨
        (decodeLossy mail.message.body.octets).getLast? = some '\n') := by
    have some_ : headText mail ≠ [] := fun none => by
      have ended := headText_ended mail
      rw [none] at ended
      cases ended
    rw [mailToWire_head]
    cases decodeLossy mail.message.body.octets with
    | nil => simp [headText_ended, some_]
    | cons first rest => simp [List.getLast?_append]
  rw [final, mailToWire_head, noBareFeed_append (Or.inl apart), noBareFeed_headText]
  constructor
  · intro plain
    exact ⟨⟨plain.headers, plain.body⟩, plain.ended⟩
  · rintro ⟨⟨headers, body⟩, ended⟩
    refine ⟨headers, body, ended, fun large streamed => ?_⟩
    rw [small] at streamed
    cases streamed

theorem sentAsIs_large {mail : Mail} {large : LargeBody} (streamed : mail.message.body = .large large) :
    SentAsIs mail ↔ NoBareFeed (headText mail) ∧ decodeLossy large.reader = [] := by
  rw [noBareFeed_headText]
  constructor
  · intro plain
    exact ⟨plain.headers, plain.streamed large streamed⟩
  · rintro ⟨headers, empty⟩
    have text : decodeLossy mail.message.body.octets = [] := by rwa [streamed]
    refine ⟨headers, ?_, Or.inl text, fun other same => ?_⟩
    · rw [text]
      trivial
    · rw [streamed, MessageBody.large.injEq] at same
      rwa [← same]

theorem endedLines_headText {mail : Mail} {more : Text} :
    endedLines (headText mail) = headText mail ++ more ↔ NoBareFeed (headText mail) ∧ more = [] := by
  have same : NoBareFeed (headText mail) → endedLines (headText mail) = headText mail :=
    fun plain => (endedLines_iff _).mpr ⟨plain, Or.inr (headText_ended mail)⟩
  constructor
  · intro longer
    have plain := noBareFeed_of_endedLines longer
    rw [same plain] at longer
    exact ⟨plain, List.self_eq_append_right.mp longer⟩
  · rintro ⟨plain, rfl⟩
    rw [same plain, List.append_nil]

theorem sentAsIs_reread {mail found : Mail} (reread : mail.Reread found) :
    SentAsIs { found with message.body := mail.message.body } ↔ SentAsIs mail := by
  constructor
  · intro plain
    exact ⟨fun field member => plain.headers field (reread.fields.mem_iff.mpr member), plain.body,
      plain.ended, plain.streamed⟩
  · intro plain
    exact ⟨fun field member => plain.headers field (reread.fields.mem_iff.mp member), plain.body,
      plain.ended, plain.streamed⟩

theorem endedLines_reread {mail found : Mail} (reread : mail.Reread found) :
    endedLines (mailToWire found) = mailToWire { found with message.body := mail.message.body } ↔
      SentAsIs mail := by
  have body := reread.body
  cases kind : mail.message.body with
  | small bytes =>
      have same : found.message.body = .small bytes := by rw [body, kind, MessageBody.drained]
      have whole : { found with message.body := mail.message.body } = found := by rw [kind, ← same]
      rw [← kind, whole, endedLines_iff, ← sentAsIs_small same, ← sentAsIs_reread reread, whole]
  | large large =>
      have drained : decodeLossy found.message.body.octets = [] := by
        rw [body, kind]
        rfl
      rw [mailToWire_head, drained, List.append_nil, sentAsIs_large kind, ← reread.noBareFeed]
      exact endedLines_headText

structure Offered (world : Pop3World β σ) (number : UInt32) (info : MessageInfo) : Prop where
  transaction : world.session.state = .transaction
  there : world.session.numbered number = some info
  kept : info.deleted = false

section Sent

variable {services : Pop3Services β σ} {world later : Pop3World β σ} {number : UInt32}
  {info : MessageInfo} {mail found : Mail}

theorem wireOf_retrieve (offered : Offered world number info)
    (finds : Finds services world.store info found) (present : MessageInfo → Text → Pop3Response) :
    wireOf (retrieve services number present world) = (present info (mailToWire found)).toWire := by
  rw [Finds] at finds
  simp only [retrieve, offered.transaction, offered.there, offered.kept, finds, ne_eq, not_true,
    if_false, Bool.false_eq_true, answered, wireOf]

theorem octets_plain (size : Nat) : '\n' ∉ decimal size ++ " octets".toList := by
  rw [List.mem_append, not_or]
  exact ⟨not_mem_decimal (by decide) size, by decide⟩

theorem wireOf_retr (offered : Offered world number info)
    (finds : Finds services world.store info found) :
    wireOf (handleRetr services number world) =
      (okMultiline (decimal info.size ++ " octets".toList) (textLines (mailToWire found))).toWire :=
  wireOf_retrieve offered finds _

theorem textLines_retr (offered : Offered world number info)
    (finds : Finds services world.store info found) :
    textLines (wireOf (handleRetr services number world)) =
      ("+OK ".toList ++ (decimal info.size ++ " octets".toList)) ::
        ((textLines (mailToWire found)).map dotted ++ [['.']]) := by
  rw [wireOf_retr offered finds]
  exact textLines_okMultiline (octets_plain info.size) fun _ => textLines_unbroken

theorem dataLines_retr (offered : Offered world number info)
    (finds : Finds services world.store info found) :
    dataLines (wireOf (handleRetr services number world)) =
      (textLines (mailToWire found)).map dotted := by
  rw [wireOf_retr offered finds]
  exact dataLines_okMultiline (octets_plain info.size) fun _ => textLines_unbroken

theorem sentText_retr (offered : Offered world number info)
    (finds : Finds services world.store info found) :
    sentText (wireOf (handleRetr services number world)) = endedLines (mailToWire found) := by
  rw [wireOf_retr offered finds]
  exact sentText_okMultiline (octets_plain info.size) fun _ => textLines_unbroken

theorem dataLines_top (offered : Offered world number info)
    (finds : Finds services world.store info found) (lines : UInt32) :
    dataLines (wireOf (handleTop services number lines world)) =
      ((textLines (mailToWire found)).take
        ((textLines (mailToWire found)).findIdx List.isEmpty + 1 + lines.toNat)).map dotted := by
  rw [handleTop, wireOf_retrieve offered finds]
  exact dataLines_okMultiline (by decide) fun _ member =>
    textLines_unbroken (List.mem_of_mem_take member)

theorem blank_headText (mail : Mail) : [] ∈ textLines (headText mail) := by
  rw [textLines_headText]
  exact List.mem_append_right _ List.mem_cons_self

theorem findIdx_headText (mail : Mail) :
    (textLines (headText mail)).findIdx List.isEmpty < (textLines (headText mail)).length :=
  List.findIdx_lt_length_of_exists ⟨[], blank_headText mail, rfl⟩

theorem findIdx_mailToWire (mail : Mail) : (textLines (mailToWire mail)).findIdx List.isEmpty =
    (textLines (headText mail)).findIdx List.isEmpty := by
  rw [textLines_mailToWire, List.findIdx_append, if_pos (findIdx_headText mail)]

theorem top_iff (reread : mail.Reread found) {again : Mail} (rereadAgain : mail.Reread again)
    (offered : Offered world number info) (finds : Finds services world.store info found)
    (offeredAgain : Offered later number info) (findsAgain : Finds services later.store info again) :
    (∀ lines, dataLines (wireOf (handleTop services number lines later)) =
      headerBlock (dataLines (wireOf (handleRetr services number world))) ++
        [] :: (bodyLines (dataLines (wireOf (handleRetr services number world)))).take lines.toNat) ↔
      openingLines again = openingLines found := by
  have body : decodeLossy again.message.body.octets = decodeLossy found.message.body.octets := by
    rw [rereadAgain.body, reread.body]
  have length : (textLines (headText again)).length = (textLines (headText found)).length := by
    rw [rereadAgain.length_textLines, reread.length_textLines]
  have blank : [] ∈ textLines (mailToWire found) := by
    rw [textLines_mailToWire]
    exact List.mem_append_left _ (blank_headText found)
  have each : ∀ lines : UInt32, dataLines (wireOf (handleTop services number lines later)) =
        headerBlock (dataLines (wireOf (handleRetr services number world))) ++
          [] :: (bodyLines (dataLines (wireOf (handleRetr services number world)))).take
            lines.toNat ↔
      (textLines (headText again) ++ textLines (decodeLossy found.message.body.octets)).take
          ((textLines (headText again)).findIdx List.isEmpty + 1 + lines.toNat) =
        (textLines (headText found) ++ textLines (decodeLossy found.message.body.octets)).take
          ((textLines (headText found)).findIdx List.isEmpty + 1 + lines.toNat) := by
    intro lines
    have cut := congrArg (List.map dotted) (take_headerBlock blank lines.toNat)
    rw [List.map_append, List.map_cons, List.map_take, List.map_take] at cut
    rw [dataLines_retr offered finds, dataLines_top offeredAgain findsAgain, headerBlock_dotted,
      bodyLines_dotted, show ([] : Text) = dotted [] from rfl, ← cut, ← List.map_take,
      (List.map_injective_iff.mpr dotted_injective).eq_iff, findIdx_mailToWire, findIdx_mailToWire,
      textLines_mailToWire, textLines_mailToWire, body]
  rw [openingLines, openingLines, ← take_findIdx_iff length (findIdx_headText found)
    (findIdx_headText again) (by decide) (textLines (decodeLossy found.message.body.octets))]
  constructor
  · intro alike count few
    have asked := (each (UInt32.ofNatLT count few)).mp (alike (UInt32.ofNatLT count few))
    rwa [UInt32.toNat_ofNatLT] at asked
  · intro alike lines
    exact (each lines).mpr (alike lines.toNat lines.toNat_lt)

theorem retr_text_iff (reread : mail.Reread found) (offered : Offered world number info)
    (finds : Finds services world.store info found) :
    sentText (wireOf (handleRetr services number world)) =
      mailToWire { found with message.body := mail.message.body } ↔ SentAsIs mail := by
  rw [sentText_retr offered finds, endedLines_reread reread]

theorem sendsMessage_iff (announced : Announced services world.store info mail)
    (announcedAgain : Announced services later.store info mail)
    (offered : Offered world number info) (offeredAgain : Offered later number info) :
    SendsMessage services world later number info mail ↔
      SentAsIs mail ∧ SameOpening services world later info := by
  obtain ⟨found, finds, reread⟩ := announced.again
  obtain ⟨again, findsAgain, rereadAgain⟩ := announcedAgain.again
  have unique : ∀ {store} {one other : Mail}, Finds services store info one →
      Finds services store info other → one = other := fun first second => by
    rw [Finds, first, Except.ok.injEq, Option.some.injEq] at second
    exact second
  have top := top_iff reread rereadAgain offered finds offeredAgain findsAgain
  constructor
  · intro sends
    refine ⟨(retr_text_iff reread offered finds).mp (sends.text found finds), ?_⟩
    intro one other findsOne findsOther
    rw [← unique finds findsOne, ← unique findsAgain findsOther]
    exact top.mp sends.top
  · rintro ⟨plain, alike⟩
    have text := (retr_text_iff reread offered finds).mpr plain
    have size : octetLength (sentText (wireOf (handleRetr services number world))) = info.size := by
      rw [text, reread.octetLength_text, announced.size]
    refine ⟨?_, ⟨?_, ?_⟩, ?_, ?_, top.mpr (alike found again finds findsAgain)⟩
    · intro other findsOther
      rw [← unique finds findsOther]
      exact text
    · rw [textLines_retr offered finds, ← List.cons_append, List.getLast?_concat]
    · rw [dataLines_retr offered finds]
      intro member
      obtain ⟨line, -, same⟩ := List.mem_map.mp member
      exact dotted_ne line same
    · rw [size, textLines_retr offered finds, List.head?_cons, List.append_assoc]
    · rw [size, handleList, if_neg (not_not.mpr offered.transaction)]
      simp only [describe, offered.there, offered.kept, Bool.false_eq_true, if_false, answered]

end Sent

section Listed

variable {services : Pop3Services β σ} {world : Pop3World β σ} {mails : List Mail}

theorem unmarked_sizes {store : σ} {messages : List MessageInfo}
    (announced : List.Forall₂ (Announced services store) messages mails) (start : Nat) :
    ((messages.zipIdx start).filter fun entry => !entry.1.deleted).map
        (fun entry => (entry.2 + 1, entry.1.size)) =
      (((messages.zip mails).zipIdx start).filter fun entry => !entry.1.1.deleted).map
        fun entry => (entry.2 + 1, octetLength (mailToWire entry.1.2)) := by
  induction announced generalizing start with
  | nil => rfl
  | @cons info mail messages mails first others ih =>
      rw [List.zip_cons_cons, List.zipIdx_cons, List.zipIdx_cons, List.filter_cons,
        List.filter_cons]
      cases info.deleted with
      | true => exact ih (start + 1)
      | false =>
          simp only [Bool.not_false, if_true, List.map_cons, first.size]
          rw [ih (start + 1)]

theorem numberedSizes (drop : Maildrop services world mails) :
    (world.session.messages.zipIdx.filter fun entry => !entry.1.deleted).map
        (fun entry => (entry.2 + 1, entry.1.size)) =
      (unmarked world mails).map fun entry => (entry.1, octetLength (mailToWire entry.2)) := by
  rw [unmarked_sizes drop.messages 0, unmarked, List.map_map]
  rfl

theorem listing_unmarked (drop : Maildrop services world mails) :
    world.session.listing MessageInfo.size = (unmarked world mails).map fun entry =>
      decimal entry.1 ++ ' ' :: decimal (octetLength (mailToWire entry.2)) := by
  have lines := congrArg (List.map fun pair : Nat × Nat => decimal pair.1 ++ ' ' :: decimal pair.2)
    (numberedSizes drop)
  rwa [List.map_map, List.map_map] at lines

theorem remaining_unmarked (drop : Maildrop services world mails) :
    world.session.remaining.map MessageInfo.size =
      (unmarked world mails).map fun entry => octetLength (mailToWire entry.2) := by
  have sizes := congrArg (List.map Prod.snd) (numberedSizes drop)
  rw [List.map_map, List.map_map] at sizes
  rw [remaining, ← List.zipIdx_map_fst 0 world.session.messages, List.filter_map, List.map_map]
  exact sizes

theorem length_unmarked (drop : Maildrop services world mails) :
    world.session.remaining.length = (unmarked world mails).length := by
  have lengths := congrArg List.length (remaining_unmarked drop)
  rwa [List.length_map, List.length_map] at lengths

theorem totalSize_unmarked (drop : Maildrop services world mails) :
    totalSize world.session.remaining = announcedSize (unmarked world mails) :=
  congrArg List.sum (remaining_unmarked drop)

/-! What the session has measured. -/

def Measured (services : Pop3Services β σ) (info : MessageInfo) : Prop :=
  ∃ store mail, Finds services store info mail ∧ info.size = octetLength (mailToWire mail)

theorem loadMessages_measured (place : Nat) (ids : List MessageId) (loaded : List MessageInfo)
    (store : σ) (before : ∀ info ∈ loaded, Measured services info) :
    ∀ info ∈ (loadMessages services place ids loaded store).2.1, Measured services info := by
  induction ids generalizing place loaded store with
  | nil => exact before
  | cons id ids ih =>
      rw [loadMessages]
      cases read : services.messageStore.getMessage id store with
      | mk found next =>
          cases found with
          | error message => exact before
          | ok found =>
              cases found with
              | none => exact ih (place + 1) loaded next before
              | some mail =>
                  apply ih (place + 1)
                  intro info member
                  rcases List.mem_append.mp member with old | new
                  · exact before info old
                  · rw [List.mem_singleton.mp new]
                    exact ⟨store, mail, congrArg Prod.fst read, rfl⟩

/-- A message is sent as it was announced if its text survives the cutting into lines, and its
header fields come in the same order both times. -/
theorem sends_announced_iff {later : Pop3World β σ} (drop : Maildrop services world mails)
    (again : Maildrop services later mails) (same : later.session = world.session) :
    SendsAnnounced services world later mails ↔
      ∀ number info mail, world.session.numbered number = some info → info.deleted = false →
        mails[number.toNat - 1]? = some mail →
          SentAsIs mail ∧ SameOpening services world later info := by
  have each : ∀ number info mail, world.session.numbered number = some info →
      info.deleted = false → mails[number.toNat - 1]? = some mail →
        (SendsMessage services world later number info mail ↔
          SentAsIs mail ∧ SameOpening services world later info) := by
    intro number info mail there kept place
    have located : world.session.messages[number.toNat - 1]? = some info := by
      rw [numbered] at there
      split at there
      · cases there
      · exact there
    obtain ⟨inside, rfl⟩ := List.getElem?_eq_some_iff.mp located
    obtain ⟨insideMails, rfl⟩ := List.getElem?_eq_some_iff.mp place
    have listedAgain := again.messages
    rw [same] at listedAgain
    exact sendsMessage_iff (drop.messages.get inside insideMails) (listedAgain.get inside insideMails)
      ⟨drop.transaction, there, kept⟩ ⟨again.transaction, by rwa [same], kept⟩
  constructor
  · intro sends number info mail there kept place
    exact (each number info mail there kept place).mp (sends.message number info mail there kept place)
  · intro plain
    refine ⟨fun number info mail there kept place =>
      (each number info mail there kept place).mpr (plain number info mail there kept place), ?_, ?_⟩
    · rw [handleList, if_neg (not_not.mpr drop.transaction), ← length_unmarked drop,
        ← totalSize_unmarked drop, ← listing_unmarked drop]
      rfl
    · rw [handleStat, if_neg (not_not.mpr drop.transaction), ← length_unmarked drop,
        ← totalSize_unmarked drop]
      rfl

open Pop3Server (Shelf shelfMessages shelfServices)

def letter (body : Text) : Mail :=
  { noteFromAlice [] with message := ⟨∅, .small (encodeUtf8 body)⟩ }

def letterServices (body : Text) : Pop3Services Unit Shelf :=
  { shelfServices with
    messageStore := { shelfMessages with getMessage := fun _ shelf => (.ok (some (letter body)), shelf) } }

def letterWorld (body : Text) : Pop3World Unit Shelf where
  session :=
    { new "<0@localhost>".toList with
      state := .transaction
      messages := [⟨⟨0⟩, 1, octetLength (mailToWire (letter body)), false⟩] }
  auth := ()
  store := ⟨[⟨0⟩], List.nodup_singleton _⟩

theorem letter_drop (body : Text) :
    Maildrop (letterServices body) (letterWorld body) [letter body] where
  transaction := rfl
  messages := .cons ⟨rfl, letter body, rfl, List.Perm.refl _, rfl⟩ .nil

theorem letter_sent : SendsAnnounced (letterServices ".hidden\r\n".toList)
    (letterWorld ".hidden\r\n".toList) (letterWorld ".hidden\r\n".toList)
    [letter ".hidden\r\n".toList] := by
  apply (sends_announced_iff (letter_drop _) (letter_drop _) rfl).mpr
  intro number info mail there kept place
  have same : mail = letter ".hidden\r\n".toList := List.mem_singleton.mp (List.mem_of_getElem? place)
  have text : decodeLossy mail.message.body.octets = ".hidden\r\n".toList := by
    rw [same]
    exact decodeLossy_encodeUtf8 _
  refine ⟨⟨?_, ?_, ?_, ?_⟩, ?_⟩
  · rw [same]
    intro field member
    cases member
  · rw [text]
    simp [NoBareFeed, feedsAfter]
  · rw [text]
    exact Or.inr rfl
  · rw [same]
    intro large streamed
    cases streamed
  · intro found again finds findsAgain
    rw [Finds] at finds findsAgain
    rw [finds, Except.ok.injEq, Option.some.injEq] at findsAgain
    rw [findsAgain]

/-- A bare line feed gets its carriage return, and a last line its end. -/
theorem letter_not_sent : Maildrop (letterServices "one\ntwo".toList)
      (letterWorld "one\ntwo".toList) [letter "one\ntwo".toList] ∧
    ¬SendsAnnounced (letterServices "one\ntwo".toList) (letterWorld "one\ntwo".toList)
      (letterWorld "one\ntwo".toList) [letter "one\ntwo".toList] := by
  refine ⟨letter_drop _, fun sends => ?_⟩
  have offered : Offered (letterWorld "one\ntwo".toList) 1
      ⟨⟨0⟩, 1, octetLength (mailToWire (letter "one\ntwo".toList)), false⟩ := ⟨rfl, rfl, rfl⟩
  have reread : (letter "one\ntwo".toList).Reread (letter "one\ntwo".toList) :=
    ⟨List.Perm.refl _, rfl⟩
  have finds : Finds (letterServices "one\ntwo".toList) (letterWorld "one\ntwo".toList).store
      ⟨⟨0⟩, 1, octetLength (mailToWire (letter "one\ntwo".toList)), false⟩
      (letter "one\ntwo".toList) := rfl
  have plain := (retr_text_iff reread offered finds).mp
    ((sends.message 1 _ _ offered.there rfl rfl).text _ finds)
  have text : decodeLossy (letter "one\ntwo".toList).message.body.octets = "one\ntwo".toList :=
    decodeLossy_encodeUtf8 _
  have body := plain.body
  rw [text] at body
  simp [NoBareFeed, feedsAfter] at body

end Listed

end Pop3Session

end Rusmes
