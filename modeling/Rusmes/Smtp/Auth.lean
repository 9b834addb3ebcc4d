import Rusmes.Library.WireText

/-!
The AUTH mechanisms of `auth.rs`. Base64, SHA-256 and its HMAC are parameters;
what the server does around them is written out.
-/

namespace Rusmes

open WireText

structure Crypto where
  base64Encode : Octets → Text
  base64Decode : Text → Except Text Octets
  sha256 : Octets → Octets
  hmacSha256 : Octets → Octets → Except Text Octets

def decodeOctets (octets : Octets) : Except Text Text :=
  match decodeUtf8 octets with
  | some text => .ok text
  | none => .error "Failed to decode UTF-8".toList

def encodeChallenge (crypto : Crypto) (challenge : Text) : Text :=
  crypto.base64Encode (encodeUtf8 challenge)

def decodeResponse (crypto : Crypto) (encoded : Text) : Except Text Text := do
  let decoded ← crypto.base64Decode (trim encoded)
  decodeOctets decoded

def parsePlainAuth (crypto : Crypto) (encoded : Text) : Except Text (Text × Text) := do
  let decoded ← decodeResponse crypto encoded
  match splitOn '\x00' decoded with
  | [username, password] => .ok (username, password)
  | [_, username, password] => .ok (username, password)
  | _ =>
      .error "Invalid PLAIN authentication format: expected 2 or 3 null-separated parts".toList

def parseCramMd5Response (response : Text) : Except Text (Text × Text) :=
  match splitOnce ' ' response with
  | some parts => .ok parts
  | none => .error "Invalid CRAM-MD5 response format: expected 'username hmac'".toList

/-- The value of the last attribute with the given name; each part is taken for the
first of the names it starts with. -/
def scramAttribute (names : List Text) (name : Text) (parts : List Text) : Option Text :=
  parts.foldl (fun found part =>
    match names.find? (fun other => other <+: part) with
    | some other => if other = name then some (part.drop name.length) else found
    | none => found) none

structure ScramClientFirst where
  username : Text
  nonce : Text
  bare : Text
  deriving DecidableEq, Repr

def parseScramClientFirst (message : Text) : Except Text ScramClientFirst :=
  match stripPrefix "n,,".toList message with
  | none => .error "Invalid GS2 header in client-first message".toList
  | some bare =>
      let field (name : Text) :=
        scramAttribute ["n=".toList, "r=".toList] name (splitOn ',' bare)
      match field "n=".toList, field "r=".toList with
      | none, _ => .error "Missing username in client-first".toList
      | some _, none => .error "Missing nonce in client-first".toList
      | some username, some nonce => .ok { username, nonce, bare }

structure ScramClientFinal where
  channelBinding : Text
  nonce : Text
  proof : Text
  withoutProof : Text
  deriving DecidableEq, Repr

def parseScramClientFinal (message : Text) : Except Text ScramClientFinal :=
  match rsplitOnceAt ",p=".toList message with
  | none => .error "Invalid client-final: missing proof".toList
  | some (withoutProof, _) =>
      let field (name : Text) :=
        scramAttribute ["c=".toList, "r=".toList, "p=".toList] name (splitOn ',' message)
      match field "c=".toList, field "r=".toList, field "p=".toList with
      | none, _, _ => .error "Missing channel binding in client-final".toList
      | some _, none, _ => .error "Missing nonce in client-final".toList
      | some _, some _, none => .error "Missing proof in client-final".toList
      | some channelBinding, some nonce, some proof =>
          .ok { channelBinding, nonce, proof, withoutProof }

def computeStoredKey (crypto : Crypto) (clientKey : Octets) : Octets :=
  crypto.sha256 clientKey

def verifyScramClientProof (crypto : Crypto) (storedKey : Octets) (authMessage proof : Text) :
    Except Text Bool := do
  let proof ← crypto.base64Decode proof
  let clientSignature ← crypto.hmacSha256 storedKey (encodeUtf8 authMessage)
  if proof.length ≠ clientSignature.length then
    .ok false
  else
    let clientKey := proof.zipWith (· ^^^ ·) clientSignature
    .ok (computeStoredKey crypto clientKey = storedKey)

def computeScramServerSignature (crypto : Crypto) (serverKey : Octets) (authMessage : Text) :
    Except Text Text := do
  let serverSignature ← crypto.hmacSha256 serverKey (encodeUtf8 authMessage)
  .ok (crypto.base64Encode serverSignature)

end Rusmes
