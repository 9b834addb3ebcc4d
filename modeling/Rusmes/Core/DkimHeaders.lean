import Rusmes.Core.DkimBody
import Rusmes.Imap.Sequence
import Rusmes.Library.Lossy
import Rusmes.Library.Words

/-!
The signature field and the header canonicalization of `dkim_verify.rs`, and beside them the input
that RFC 6376 signs.
-/

namespace Rusmes

open WireText

structure DkimSignature where
  version : UInt32
  algorithm : Text
  domain : Text
  selector : Text
  signedHeaders : List Text
  bodyHash : Text
  signature : Text
  canonicalization : Text × Text

abbrev TagTable := AList fun _ : Text => Text

def insertTag (params : TagTable) (part : Text) : TagTable :=
  match splitOnce '=' (trim part) with
  | some (key, value) => AList.insert (trim key) (trim value) params
  | none => params

def tagParams (header : Text) : TagTable :=
  (splitOn ';' (unfoldHeader header)).foldl insertTag ∅

def requiredTag (params : TagTable) (name error : Text) : Except Text Text :=
  match params.lookup name with
  | some value => .ok value
  | none => .error error

def parseCanonicalization : Option Text → Text × Text
  | some tag =>
      match splitOn '/' tag with
      | [header, body] => (header, body)
      | parts => (parts.headD [], "simple".toList)
  | none => ("simple".toList, "simple".toList)

section Mailet

variable (letters : CaseMapping)

def parseDkimSignature (header : Text) : Except Text DkimSignature := do
  let params := tagParams header
  let version := ((params.lookup "v".toList).bind fun value => (parseU32 value).toOption).getD 1
  let algorithm ← requiredTag params "a".toList "Missing algorithm (a=)".toList
  let domain ← requiredTag params "d".toList "Missing domain (d=)".toList
  let selector ← requiredTag params "s".toList "Missing selector (s=)".toList
  let signed ← requiredTag params "h".toList "Missing signed headers (h=)".toList
  let bodyHash ← requiredTag params "bh".toList "Missing body hash (bh=)".toList
  let signature ← requiredTag params "b".toList "Missing signature (b=)".toList
  return {
    version, algorithm, domain, selector
    signedHeaders := (splitOn ':' signed).map fun name => letters.toLowercase (trim name)
    bodyHash, signature
    canonicalization := parseCanonicalization (params.lookup "c".toList) }

def parseDkimSignatureHeader (message : MimeMessage) : Option Text :=
  message.headers.getFirst letters "dkim-signature".toList

def getMessageRawData (message : MimeMessage) : Octets :=
  message.headers.fields.flatMap (fun field => headerLine field.1 field.2) ++ [13, 10] ++
    match message.body with
    | .small bytes => bytes
    | .large _ => []

def joinWords (text : Text) : Text := joinWith [' '] (splitWhitespace text)

def canonicalizeHeader (method name value : Text) : Octets :=
  if method = "relaxed".toList then
    encodeUtf8 (letters.toLowercase name ++ ':' :: joinWords value) ++ [13, 10]
  else headerLine name value

def signatureParts (signature : DkimSignature) : List Text :=
  ["v=".toList ++ decimal signature.version.toNat,
    "a=".toList ++ signature.algorithm,
    "d=".toList ++ signature.domain,
    "s=".toList ++ signature.selector,
    "c=".toList ++ signature.canonicalization.1 ++ '/' :: signature.canonicalization.2,
    "h=".toList ++ joinWith [':'] signature.signedHeaders,
    "bh=".toList ++ signature.bodyHash,
    "b=".toList]

def canonicalizeHeaders (messageData : Octets) (signature : DkimSignature) (method : Text) :
    Octets :=
  let headers := (parseHeaders letters messageData).1
  let sigValue := joinWith "; ".toList (signatureParts signature)
  signature.signedHeaders.flatMap (fun name =>
      match headers.lookup name with
      | some value => canonicalizeHeader letters method name value
      | none => []) ++
    if method = "relaxed".toList then encodeUtf8 ("dkim-signature:".toList ++ joinWords sigValue)
    else encodeUtf8 ("DKIM-Signature: ".toList ++ sigValue)

def signatureInput (data : Octets) (header : Text) : Except Text Octets := do
  let signature ← parseDkimSignature letters header
  return canonicalizeHeaders letters
    (getMessageRawData (MimeMessage.parseFromBytes letters data)) signature
    signature.canonicalization.1

end Mailet

structure RawField where
  name : Octets
  value : Octets

def rawFields : List Octets → List RawField
  | [] => []
  | line :: lines =>
      if continuesField line ∨ 58 ∉ line then rawFields lines
      else
        ⟨line.takeWhile (· ≠ 58),
          (line.dropWhile (· ≠ 58)).tail ++ (lines.takeWhile continuesField).flatten⟩ ::
          rawFields lines

def messageFields (data : Octets) : List RawField := rawFields (completeLines data)

def relaxValue (value : Octets) : Octets := squeeze isBlank 32 value

def tagName (tag : Octets) : Octets := relaxValue (tag.takeWhile (· ≠ 61))

def tagValue (tag : Octets) : Octets := (tag.dropWhile (· ≠ 61)).tail

def withoutSignature (tag : Octets) : Octets :=
  if 61 ∈ tag ∧ tagName tag = [98] then tag.takeWhile (· ≠ 61) ++ [61] else tag

def removeSignature (value : Octets) : Octets :=
  [59].intercalate ((value.splitOn 59).map withoutSignature)

section HashInput

variable (letters : CaseMapping)

def fieldKey (name : Octets) : Text := letters.toLowercase (trim (decodeLossy name))

def signedNames (value : Octets) : List Text :=
  match (value.splitOn 59).find? fun tag => 61 ∈ tag ∧ tagName tag = [104] with
  | some tag => ((tagValue tag).splitOn 58).map (fieldKey letters)
  | none => []

/-- For each name the next field from the bottom that the names before it left, if there is one. -/
def signedFields (bottomUp : List RawField) : List Text → List Text → List RawField
  | _, [] => []
  | before, name :: names =>
      ((bottomUp.filter fun field => fieldKey letters field.name = name)[before.count name]?).toList ++
        signedFields bottomUp (name :: before) names

def relaxField (field : RawField) : Octets :=
  encodeUtf8 (fieldKey letters field.name) ++ 58 :: (relaxValue field.value ++ [13, 10])

def hashInput (data value : Octets) : Octets :=
  (signedFields letters (messageFields data).reverse [] (signedNames letters value)).flatMap
      (relaxField letters) ++
    (encodeUtf8 "dkim-signature:".toList ++ relaxValue (removeSignature value))

end HashInput

def fieldText (value : Octets) : Text := unfoldHeader (decodeLossy value)

end Rusmes
