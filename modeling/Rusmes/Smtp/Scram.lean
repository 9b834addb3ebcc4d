import Rusmes.Proto.Base64
import Rusmes.Smtp.Connection
import Rusmes.Smtp.ScramFinal

/-!
SCRAM-SHA-256 from the client's first message to the server's last. A client that
derives its proof from the password and from the texts it sent and received is accepted.
-/

namespace Rusmes

open WireText

variable {σ : Type}

def computeSaltedPassword (pbkdf2 : Octets → Octets → Nat → Octets) (password : Text)
    (salt : Octets) (iterations : Nat) : Except Text Octets :=
  .ok (pbkdf2 (encodeUtf8 password) salt iterations)

def computeClientKey (crypto : Crypto) (saltedPassword : Octets) : Except Text Octets :=
  crypto.hmacSha256 saltedPassword (encodeUtf8 "Client Key".toList)

def computeServerKey (crypto : Crypto) (saltedPassword : Octets) : Except Text Octets :=
  crypto.hmacSha256 saltedPassword (encodeUtf8 "Server Key".toList)

def deriveScramCreds (crypto : Crypto) (pbkdf2 : Octets → Octets → Nat → Octets)
    (password : Text) (salt : Octets) (iterations : Nat) : Except Text ScramCredentials := do
  let saltedPassword ← computeSaltedPassword pbkdf2 password salt iterations
  let clientKey ← computeClientKey crypto saltedPassword
  let serverKey ← computeServerKey crypto saltedPassword
  .ok {
    salt := salt
    iterationCount := iterations
    storedKey := computeStoredKey crypto clientKey
    serverKey := serverKey }

theorem deriveScramCreds_public {crypto : Crypto} {pbkdf2 : Octets → Octets → Nat → Octets}
    {password : Text} {salt : Octets} {iterations : Nat} {credentials : ScramCredentials}
    (enrolled : deriveScramCreds crypto pbkdf2 password salt iterations = .ok credentials) :
    credentials.salt = salt ∧ credentials.iterationCount = iterations := by
  simp only [deriveScramCreds, computeSaltedPassword, bind, Except.bind,
    -String.reduceToList] at enrolled
  split at enrolled
  · cases enrolled
  · split at enrolled
    · cases enrolled
    · cases enrolled
      exact ⟨rfl, rfl⟩

def readServerFirst (crypto : Crypto) (serverFirst : Text) : Except Text (Text × Octets × Nat) :=
  match (splitOn ',' serverFirst).zipWith (fun part name => stripPrefix name part)
      ["r=".toList, "s=".toList, "i=".toList] with
  | [some nonce, some salt, some count] => do
      let salt ← crypto.base64Decode salt
      .ok (nonce, salt, digitsValue count)
  | _ => .error "Invalid server-first message".toList

def authMessage (bare serverFirst withoutProof : Text) : Text :=
  bare ++ ',' :: serverFirst ++ ',' :: withoutProof

def clientProof (crypto : Crypto) (pbkdf2 : Octets → Octets → Nat → Octets) (password : Text)
    (salt : Octets) (iterations : Nat) (authMessage : Text) : Except Text Octets := do
  let saltedPassword ← computeSaltedPassword pbkdf2 password salt iterations
  let clientKey ← computeClientKey crypto saltedPassword
  let clientSignature ← crypto.hmacSha256 (computeStoredKey crypto clientKey)
    (encodeUtf8 authMessage)
  .ok (clientKey.zipWith (· ^^^ ·) clientSignature)

def clientFinal (crypto : Crypto) (pbkdf2 : Octets → Octets → Nat → Octets)
    (password bare serverFirst channelBinding : Text) : Except Text (Text × Octets) := do
  let (nonce, salt, iterations) ← readServerFirst crypto serverFirst
  let withoutProof := "c=".toList ++ channelBinding ++ ",r=".toList ++ nonce
  let proof ← clientProof crypto pbkdf2 password salt iterations
    (authMessage bare serverFirst withoutProof)
  .ok (withoutProof, proof)

/-- What the parameters are known for: Base64 is undone by its decoder and written in its
alphabet, and an HMAC takes keys of any length and has 32 octets. -/
structure Crypto.Documented (crypto : Crypto) : Prop where
  decodes : ∀ octets, crypto.base64Decode (crypto.base64Encode octets) = .ok octets
  alphabet : ∀ octets, ∀ character ∈ crypto.base64Encode octets,
    character ∈ '=' :: base64Alphabet.map Char.ofUInt8
  hmac : ∀ key message, ∃ mac, crypto.hmacSha256 key message = .ok mac ∧ mac.length = 32

namespace Crypto.Documented

variable {crypto : Crypto} (documented : crypto.Documented)
include documented

theorem symbol {octets : Octets} {character : Char}
    (member : character ∈ crypto.base64Encode octets) :
    isWhitespace character = false ∧ character ≠ ',' ∧ character ≠ '*' := by
  have symbols : ∀ symbol ∈ '=' :: base64Alphabet.map Char.ofUInt8,
      isWhitespace symbol = false ∧ symbol ≠ ',' ∧ symbol ≠ '*' := by decide
  exact symbols character (documented.alphabet octets character member)

theorem trim_base64Encode (octets : Octets) :
    trim (crypto.base64Encode octets) = crypto.base64Encode octets :=
  trim_solid fun _ member => (documented.symbol member).1

theorem comma_not_mem (octets : Octets) : ',' ∉ crypto.base64Encode octets :=
  fun member => (documented.symbol member).2.1 rfl

theorem ne_abort (octets : Octets) : crypto.base64Encode octets ≠ "*".toList := by
  intro abort
  have member : '*' ∈ crypto.base64Encode octets := by simp [abort]
  exact (documented.symbol member).2.2 rfl

end Crypto.Documented

theorem decodeScramMessage_base64Encode {services : SmtpServices σ}
    (documented : services.toCrypto.Documented) (text : Text) :
    SmtpSession.decodeScramMessage services (services.base64Encode (encodeUtf8 text)) =
      .ok text := by
  rw [SmtpSession.decodeScramMessage, documented.trim_base64Encode, documented.decodes]
  change decodeOctets (encodeUtf8 text) = .ok text
  rw [decodeOctets, decodeUtf8_encodeUtf8]

theorem zipWith_xor_zipWith_xor {key signature : Octets} (same : key.length = signature.length) :
    (key.zipWith (· ^^^ ·) signature).zipWith (· ^^^ ·) signature = key := by
  induction key generalizing signature with
  | nil => rfl
  | cons octet key ih =>
      cases signature with
      | nil => cases same
      | cons other signature =>
          rw [List.length_cons, List.length_cons, Nat.add_right_cancel_iff] at same
          rw [List.zipWith_cons_cons, List.zipWith_cons_cons, ih same, UInt8.xor_assoc,
            UInt8.xor_self, UInt8.xor_zero]

theorem verifyScramClientProof_clientProof {crypto : Crypto} (documented : crypto.Documented)
    {pbkdf2 : Octets → Octets → Nat → Octets} {password : Text} {salt : Octets}
    {iterations : Nat} {credentials : ScramCredentials}
    (enrolled : deriveScramCreds crypto pbkdf2 password salt iterations = .ok credentials)
    (authMessage : Text) :
    ∃ proof, clientProof crypto pbkdf2 password salt iterations authMessage = .ok proof ∧
      verifyScramClientProof crypto credentials.storedKey authMessage
        (crypto.base64Encode proof) = .ok true := by
  obtain ⟨clientKey, keyed, keyLength⟩ :=
    documented.hmac (pbkdf2 (encodeUtf8 password) salt iterations) (encodeUtf8 "Client Key".toList)
  obtain ⟨serverKey, served, -⟩ :=
    documented.hmac (pbkdf2 (encodeUtf8 password) salt iterations) (encodeUtf8 "Server Key".toList)
  obtain ⟨signature, signed, signatureLength⟩ :=
    documented.hmac (computeStoredKey crypto clientKey) (encodeUtf8 authMessage)
  have stored : credentials.storedKey = computeStoredKey crypto clientKey := by
    simp only [deriveScramCreds, computeSaltedPassword, computeClientKey, computeServerKey, bind,
      Except.bind, keyed, served, Except.ok.injEq, -String.reduceToList] at enrolled
    rw [← enrolled]
  refine ⟨clientKey.zipWith (· ^^^ ·) signature, ?_, ?_⟩
  · simp only [clientProof, computeSaltedPassword, computeClientKey, bind, Except.bind, keyed,
      signed, -String.reduceToList]
  · simp only [verifyScramClientProof, documented.decodes, stored, signed, bind, Except.bind,
      List.length_zipWith, keyLength, signatureLength, Nat.min_self, ne_eq, not_true_eq_false,
      if_false]
    rw [zipWith_xor_zipWith_xor (keyLength.trans signatureLength.symm)]
    simp

theorem exists_lastNamed {parts : List Text} {part name : Text} (member : part ∈ parts)
    (leads : name <+: part) : ∃ value, LastNamed parts name value := by
  induction parts using List.reverseRecOn with
  | nil => cases member
  | append_singleton parts last ih =>
      by_cases lastLeads : name <+: last
      · obtain ⟨value, rfl⟩ := lastLeads
        exact ⟨value, parts, [], rfl, by simp⟩
      · rw [List.mem_append, List.mem_singleton] at member
        rcases member with earlier | rfl
        · obtain ⟨value, before, after, rfl, unnamed⟩ := ih earlier
          refine ⟨value, before, after ++ [last], by simp, ?_⟩
          rw [List.forall_mem_append, List.forall_mem_singleton]
          exact ⟨unnamed, lastLeads⟩
        · exact absurd leads lastLeads

theorem splitOn_named {letter : Char} (plain : letter ≠ ',') (value : Text) :
    ∃ first others, splitOn ',' value = first :: others ∧
      splitOn ',' (letter :: '=' :: value) = (letter :: '=' :: first) :: others := by
  obtain ⟨first, others, parts⟩ := List.exists_cons_of_ne_nil (splitOn_ne_nil ',' value)
  refine ⟨first, others, parts, ?_⟩
  rw [splitOn_cons_ne plain, splitOn_cons_ne (by decide), parts]
  rfl

theorem splitOn_named_plain {letter : Char} (plain : letter ≠ ',') {value : Text}
    (whole : ',' ∉ value) :
    splitOn ',' (letter :: '=' :: value) = [letter :: '=' :: value] :=
  splitOn_unbroken (by simp [whole, plain.symm])

theorem parseScramClientFinal_sent (channelBinding : Text) {nonce proof : Text}
    (plainNonce : ',' ∉ nonce) (plainProof : ',' ∉ proof) :
    ∃ final, parseScramClientFinal ("c=".toList ++ channelBinding ++ ",r=".toList ++ nonce ++
        ",p=".toList ++ proof) = .ok final ∧
      final.nonce = nonce ∧ final.proof = proof ∧
      final.withoutProof = "c=".toList ++ channelBinding ++ ",r=".toList ++ nonce := by
  have shape : "c=".toList ++ channelBinding ++ ",r=".toList ++ nonce ++ ",p=".toList ++ proof =
      'c' :: '=' :: channelBinding ++ ',' :: ('r' :: '=' :: nonce ++ ',' :: 'p' :: '=' :: proof) := by
    simp
  obtain ⟨first, others, -, bound⟩ := splitOn_named (by decide : 'c' ≠ ',') channelBinding
  have parts : splitOn ',' ("c=".toList ++ channelBinding ++ ",r=".toList ++ nonce ++
      ",p=".toList ++ proof) =
      ('c' :: '=' :: first) :: (others ++ ['r' :: '=' :: nonce, 'p' :: '=' :: proof]) := by
    rw [shape, splitOn_cut, splitOn_cut, bound, splitOn_named_plain (by decide) plainNonce,
      splitOn_named_plain (by decide) plainProof]
    rfl
  have named : ∃ value, LastNamed (('c' :: '=' :: first) :: (others ++ ['r' :: '=' :: nonce,
      'p' :: '=' :: proof])) "c=".toList value :=
    exists_lastNamed List.mem_cons_self ⟨first, rfl⟩
  rw [← parts] at named
  obtain ⟨binding, named⟩ := named
  have cut : rsplitOnceAt (',' :: "p=".toList) ("c=".toList ++ channelBinding ++ ",r=".toList ++
      nonce ++ ",p=".toList ++ proof) =
      some ("c=".toList ++ channelBinding ++ ",r=".toList ++ nonce, proof) := by
    refine rsplitOnceAt_eq_some.mpr ⟨by simp, fun again => ?_⟩
    have member : ',' ∈ "p=".toList ++ proof := again.subset List.mem_cons_self
    simp [plainProof] at member
  refine ⟨⟨binding, nonce, proof, "c=".toList ++ channelBinding ++ ",r=".toList ++ nonce⟩,
    parseScramClientFinal_eq_ok.mpr ⟨⟨proof, cut⟩, named, ?_, ?_⟩, rfl, rfl, rfl⟩
  · rw [AttributeOf, parts]
    exact ⟨('c' :: '=' :: first) :: others, ['p' :: '=' :: proof], rfl,
      by simp [List.cons_prefix_cons]⟩
  · rw [AttributeOf, parts]
    exact ⟨('c' :: '=' :: first) :: others ++ ['r' :: '=' :: nonce], [], by simp, by simp⟩

theorem readServerFirst_sent {crypto : Crypto} (documented : crypto.Documented) {nonce : Text}
    (plainNonce : ',' ∉ nonce) (salt : Octets) (iterations : Nat) :
    readServerFirst crypto ("r=".toList ++ nonce ++ ",s=".toList ++ crypto.base64Encode salt ++
      ",i=".toList ++ decimal iterations) = .ok (nonce, salt, iterations) := by
  have shape : "r=".toList ++ nonce ++ ",s=".toList ++ crypto.base64Encode salt ++
      ",i=".toList ++ decimal iterations = 'r' :: '=' :: nonce ++ ',' ::
        ('s' :: '=' :: crypto.base64Encode salt ++ ',' :: 'i' :: '=' :: decimal iterations) := by
    simp
  rw [shape, readServerFirst, splitOn_cut, splitOn_cut, splitOn_named_plain (by decide) plainNonce,
    splitOn_named_plain (by decide) (documented.comma_not_mem salt),
    splitOn_named_plain (by decide) (not_mem_decimal (by decide) iterations)]
  simp [stripPrefix, List.cons_prefix_cons, documented.decodes, digitsValue_decimal, bind,
    Except.bind]

theorem comma_not_mem_hexEncode (octets : Octets) : ',' ∉ SmtpSession.hexEncode octets := by
  have digits : ∀ value < 256, ',' ∉ hexDigits 2 value := by decide +kernel
  intro member
  obtain ⟨octet, -, inside⟩ := List.mem_flatMap.mp member
  exact digits octet.toNat octet.toNat_lt inside

theorem parseScramClientFirst_nonce {bare : Text} {first : ScramClientFirst}
    (parsed : parseScramClientFirst ("n,,".toList ++ bare) = .ok first) :
    first.bare = bare ∧ ',' ∉ first.nonce := by
  have stripped : stripPrefix "n,,".toList ("n,,".toList ++ bare) = some bare := by
    rw [stripPrefix, if_pos (List.prefix_append _ bare), List.drop_left]
  have apart : Apart ["n=".toList, "r=".toList] "r=".toList :=
    apart_of_length (by simp) (by decide)
  rw [parseScramClientFirst, stripped] at parsed
  dsimp only [-String.reduceToList] at parsed
  generalize found : scramAttribute ["n=".toList, "r=".toList] "r=".toList (splitOn ',' bare) =
    nonce at parsed
  split at parsed
  · cases parsed
  · cases parsed
  · rename_i username value _
    cases parsed
    obtain ⟨earlier, later, parts, -⟩ := (scramAttribute_eq_some apart _ _).mp found
    have whole : ',' ∉ "r=".toList ++ value := by
      have member : "r=".toList ++ value ∈ splitOn ',' bare := by simp [parts]
      exact splitOn_whole member
    exact ⟨rfl, fun member => whole (List.mem_append_right _ member)⟩

/-! The exchange. -/

namespace SmtpSession

theorem handleScramClientFinal_accepts {services : SmtpServices σ} {session : SmtpSession}
    {pending : ScramState} {line : Text} {final : ScramClientFinal}
    (documented : services.toCrypto.Documented) (waiting : session.scramState = some pending)
    (started : line ≠ "*".toList)
    (parsed : (decodeScramMessage services line >>= parseScramClientFinal) = .ok final)
    (same : final.nonce = pending.nonce)
    (verified : verifyScramClientProof services.toCrypto pending.storedKey
      (scramAuthMessage pending final) final.proof = .ok true) :
    ∃ reply, session.handleScramClientFinal services line = (.ok reply, { session with
      scramState := none, authenticated := true, username := some pending.username }) ∧
      reply.code = 235 := by
  obtain ⟨mac, signed, -⟩ :=
    documented.hmac pending.serverKey (encodeUtf8 (scramAuthMessage pending final))
  have signature : computeScramServerSignature services.toCrypto pending.serverKey
      (scramAuthMessage pending final) = .ok (services.base64Encode mac) := by
    rw [computeScramServerSignature, signed]
    rfl
  refine ⟨.new 235 ("2.7.0 ".toList ++ services.base64Encode (encodeUtf8 ("v=".toList ++
    services.base64Encode mac)) ++ " Authentication successful".toList), ?_, rfl⟩
  simp only [handleScramClientFinal, waiting, if_neg started, parsed, same, ne_eq,
    not_true_eq_false, if_false, verified, signature]

def scramPending (services : SmtpServices σ) (first : ScramClientFirst) (random : Octets)
    (credentials : ScramCredentials) : ScramState :=
  let nonce := first.nonce ++ hexEncode random
  { clientFirstBare := first.bare
    serverFirst := "r=".toList ++ nonce ++ ",s=".toList ++ services.base64Encode credentials.salt ++
      ",i=".toList ++ decimal credentials.iterationCount
    nonce := nonce
    username := first.username
    storedKey := credentials.storedKey
    serverKey := credentials.serverKey }

theorem handleAuthScramSha256_started {services : SmtpServices σ}
    (documented : services.toCrypto.Documented) {bare : Text} {first : ScramClientFirst}
    (greeted : parseScramClientFirst ("n,,".toList ++ bare) = .ok first)
    {world drawn fetched : σ} {random : Octets} {credentials : ScramCredentials}
    (draws : services.randomBytes 16 world = (.ok random, drawn))
    (fetches : services.fetchScramCredentials first.username drawn =
      (.ok (some credentials), fetched)) (session : SmtpSession) :
    session.handleAuthScramSha256 services
        (some (services.base64Encode (encodeUtf8 ("n,,".toList ++ bare)))) world =
      (.ok (.new 334 (services.base64Encode
          (encodeUtf8 (scramPending services first random credentials).serverFirst))),
        { session with scramState := some (scramPending services first random credentials) },
        fetched) := by
  have decoded : (decodeScramMessage services (services.base64Encode
      (encodeUtf8 ("n,,".toList ++ bare))) >>= parseScramClientFirst) = .ok first := by
    rw [decodeScramMessage_base64Encode documented]
    exact greeted
  have drew : generateScramServerNonce services world = (.ok (hexEncode random), drawn) := by
    simp only [generateScramServerNonce, draws]
  simp only [handleAuthScramSha256, decoded, drew, fetches]
  rfl

/-- A client that knows the password and answers with the proof it derives from the
texts exchanged is accepted, and those texts are the ones the server verifies. -/
theorem handleScramClientFinal_complete {services : SmtpServices σ}
    (documented : services.toCrypto.Documented) {pbkdf2 : Octets → Octets → Nat → Octets}
    {password : Text} {salt : Octets} {iterations : Nat} {credentials : ScramCredentials}
    (enrolled : deriveScramCreds services.toCrypto pbkdf2 password salt iterations =
      .ok credentials)
    {bare : Text} {first : ScramClientFirst}
    (greeted : parseScramClientFirst ("n,,".toList ++ bare) = .ok first)
    {world drawn fetched : σ} {random : Octets}
    (draws : services.randomBytes 16 world = (.ok random, drawn))
    (fetches : services.fetchScramCredentials first.username drawn =
      (.ok (some credentials), fetched)) (session : SmtpSession) (channelBinding : Text) :
    ∃ serverFirst waiting pending withoutProof proof final reply,
      session.handleAuthScramSha256 services
          (some (services.base64Encode (encodeUtf8 ("n,,".toList ++ bare)))) world =
        (.ok (.new 334 (services.base64Encode (encodeUtf8 serverFirst))), waiting, fetched) ∧
      clientFinal services.toCrypto pbkdf2 password bare serverFirst channelBinding =
        .ok (withoutProof, proof) ∧
      waiting.scramState = some pending ∧
      (decodeScramMessage services (services.base64Encode (encodeUtf8
          (withoutProof ++ ",p=".toList ++ services.base64Encode proof))) >>=
        parseScramClientFinal) = .ok final ∧
      scramAuthMessage pending final = authMessage bare serverFirst withoutProof ∧
      waiting.handleScramClientFinal services (services.base64Encode (encodeUtf8
          (withoutProof ++ ",p=".toList ++ services.base64Encode proof))) =
        (.ok reply, { session with
          scramState := none, authenticated := true, username := some first.username }) ∧
      reply.code = 235 := by
  obtain ⟨bareSame, plainFirst⟩ := parseScramClientFirst_nonce greeted
  obtain ⟨saltSame, countSame⟩ := deriveScramCreds_public enrolled
  have started := handleAuthScramSha256_started documented greeted draws fetches session
  have plainNonce : ',' ∉ first.nonce ++ hexEncode random := by
    simp [plainFirst, comma_not_mem_hexEncode]
  generalize whole : scramPending services first random credentials = pending at started
  have nonceSame : pending.nonce = first.nonce ++ hexEncode random := by rw [← whole]; rfl
  have sent : pending.serverFirst = "r=".toList ++ pending.nonce ++ ",s=".toList ++
      services.base64Encode salt ++ ",i=".toList ++ decimal iterations := by
    rw [← whole, ← saltSame, ← countSame]
    rfl
  rw [← nonceSame] at plainNonce
  obtain ⟨proof, proved, verified⟩ := verifyScramClientProof_clientProof documented enrolled
    (authMessage bare pending.serverFirst
      ("c=".toList ++ channelBinding ++ ",r=".toList ++ pending.nonce))
  obtain ⟨final, parsed, finalNonce, finalProof, finalText⟩ :=
    parseScramClientFinal_sent channelBinding plainNonce (documented.comma_not_mem proof)
  have answered : clientFinal services.toCrypto pbkdf2 password bare pending.serverFirst
      channelBinding =
      .ok ("c=".toList ++ channelBinding ++ ",r=".toList ++ pending.nonce, proof) := by
    have read := readServerFirst_sent documented plainNonce salt iterations
    rw [← sent] at read
    simp only [clientFinal, read, bind, Except.bind, proved, -String.reduceToList]
  have decoded : (decodeScramMessage services (services.base64Encode (encodeUtf8
      ("c=".toList ++ channelBinding ++ ",r=".toList ++ pending.nonce ++ ",p=".toList ++
        services.base64Encode proof))) >>= parseScramClientFinal) = .ok final := by
    rw [decodeScramMessage_base64Encode documented]
    exact parsed
  have texts : scramAuthMessage pending final = authMessage bare pending.serverFirst
      ("c=".toList ++ channelBinding ++ ",r=".toList ++ pending.nonce) := by
    rw [scramAuthMessage, finalText, ← whole, ← bareSame]
    rfl
  have accepted : verifyScramClientProof services.toCrypto pending.storedKey
      (scramAuthMessage pending final) final.proof = .ok true := by
    rw [texts, finalProof, ← verified, ← whole]
    rfl
  have waiting : { session with scramState := some pending }.scramState = some pending := rfl
  obtain ⟨reply, answers, code⟩ := handleScramClientFinal_accepts documented waiting
    (documented.ne_abort _) decoded finalNonce accepted
  refine ⟨pending.serverFirst, _, pending, _, proof, final, reply, started, answered, rfl, decoded,
    texts, ?_, code⟩
  rw [answers, ← whole]
  rfl

end SmtpSession

namespace Pencil

def salt : Octets := [91, 109, 153, 104, 157, 18, 53, 142, 236, 160, 75, 20, 18, 54, 250, 129]

def saltedPassword : Octets :=
  [196, 164, 149, 16, 50, 58, 180, 249, 82, 202, 193, 250, 153, 68, 25, 57,
    231, 142, 167, 77, 107, 232, 29, 223, 112, 150, 232, 117, 19, 220, 97, 93]

def clientKey : Octets :=
  [166, 15, 201, 35, 214, 126, 134, 68, 169, 45, 22, 185, 110, 218, 94, 244,
    101, 107, 12, 114, 92, 72, 67, 116, 190, 37, 83, 85, 118, 153, 110, 139]

def storedKey : Octets :=
  [88, 110, 93, 242, 131, 230, 220, 235, 92, 62, 121, 29, 139, 133, 40, 236,
    25, 30, 102, 64, 69, 206, 151, 23, 146, 226, 230, 181, 187, 19, 226, 166]

def serverKey : Octets :=
  [193, 243, 203, 193, 193, 58, 157, 53, 161, 76, 9, 144, 238, 217, 118, 41,
    234, 34, 88, 99, 229, 102, 164, 49, 74, 185, 159, 63, 0, 229, 217, 213]

def clientSignature : Octets :=
  [56, 228, 176, 223, 46, 247, 178, 82, 152, 74, 1, 89, 84, 116, 110, 52,
    229, 169, 89, 62, 72, 124, 135, 168, 197, 215, 145, 78, 162, 152, 240, 204]

def serverSignature : Octets :=
  [137, 254, 172, 145, 39, 198, 18, 82, 34, 173, 228, 24, 169, 202, 118, 211,
    210, 154, 81, 83, 205, 194, 194, 48, 70, 141, 115, 231, 62, 234, 17, 102]

def bare : Text := "n=user,r=rOprNGfwEbeRWgbNEkqO".toList

def texts : Text :=
  bare ++ ",r=rOprNGfwEbeRWgbNEkqO00000000000000000000000000000000".toList ++
    ",s=W22ZaJ0SNY7soEsUEjb6gQ==,i=4096,c=biws".toList ++
    ",r=rOprNGfwEbeRWgbNEkqO00000000000000000000000000000000".toList

def zeros : Octets := List.replicate 32 0

def pbkdf2 (password salted : Octets) (iterations : Nat) : Octets :=
  if password = encodeUtf8 "pencil".toList ∧ salted = salt ∧ iterations = 4096 then saltedPassword
  else zeros

def mac (key message : Octets) : Octets :=
  if key = saltedPassword ∧ message = encodeUtf8 "Client Key".toList then clientKey
  else if key = saltedPassword ∧ message = encodeUtf8 "Server Key".toList then serverKey
  else if key = storedKey ∧ message = encodeUtf8 texts then clientSignature
  else if key = serverKey ∧ message = encodeUtf8 texts then serverSignature
  else zeros

def services : SmtpServices Unit where
  toCrypto := {
    base64Encode := encodeBase64
    base64Decode := fun text => decodeBase64Blocks (encodeUtf8 text)
    sha256 := fun octets => if octets = clientKey then storedKey else zeros
    hmacSha256 := fun key message => .ok (mac key message) }
  parseNetwork := openServices.parseNetwork
  allowMessageIpAndSender := openServices.allowMessageIpAndSender
  authenticate := openServices.authenticate
  verifyIdentity := openServices.verifyIdentity
  fetchScramCredentials := fun user world =>
    (.ok (if user = "user".toList then some ⟨salt, 4096, storedKey, serverKey⟩ else none), world)
  listMailboxes := openServices.listMailboxes
  unixSeconds := openServices.unixSeconds
  randomBytes := openServices.randomBytes
  now := openServices.now

theorem documented : services.toCrypto.Documented where
  decodes := decodeBase64Blocks_encodeBase64
  alphabet := encodeBase64_alphabet
  hmac key message := by
    refine ⟨mac key message, rfl, ?_⟩
    unfold mac
    split_ifs <;> rfl

def session : SmtpSession where
  remoteAddr := .v4 0
  config := mxConfig

theorem handleScramClientFinal_complete_pencil :
    ∃ serverFirst waiting withoutProof proof reply,
      session.handleAuthScramSha256 services
          (some (encodeBase64 (encodeUtf8 ("n,,".toList ++ bare)))) () =
        (.ok (.new 334 (encodeBase64 (encodeUtf8 serverFirst))), waiting, ()) ∧
      clientFinal services.toCrypto pbkdf2 "pencil".toList bare serverFirst "biws".toList =
        .ok (withoutProof, proof) ∧
      waiting.handleScramClientFinal services (encodeBase64 (encodeUtf8
          (withoutProof ++ ",p=".toList ++ encodeBase64 proof))) =
        (.ok reply, { session with
          scramState := none, authenticated := true, username := some "user".toList }) ∧
      reply.code = 235 := by
  have enrolled : deriveScramCreds services.toCrypto pbkdf2 "pencil".toList salt 4096 =
      .ok ⟨salt, 4096, storedKey, serverKey⟩ := by decide +kernel
  have greeted : parseScramClientFirst ("n,,".toList ++ bare) =
      .ok ⟨"user".toList, "rOprNGfwEbeRWgbNEkqO".toList, bare⟩ := by decide +kernel
  have draws : services.randomBytes 16 () = (.ok (List.replicate 16 0), ()) := rfl
  obtain ⟨serverFirst, waiting, -, withoutProof, proof, -, reply, started, answered, -, -, -,
    accepted, code⟩ := SmtpSession.handleScramClientFinal_complete documented enrolled greeted
      draws rfl session "biws".toList
  exact ⟨serverFirst, waiting, withoutProof, proof, reply, started, answered, accepted, code⟩

end Pencil

end Rusmes
