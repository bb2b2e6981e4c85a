import ReceiptVerifier.Json
import ReceiptVerifier.Receipt

/-!
# JWS verification

`rust/src/jws.rs`: any Apple-signed compact JWS, verified offline. ES256 only, exactly three `x5c`
certificates, the chain to a pinned root at the payload's own date, the marker OIDs on leaf and
intermediate, then the signature.
-/

namespace ReceiptVerifier

open Openssl

/-- The longest compact JWS, in bytes. -/
def maxJwsBytes : Nat := 262144

/-- A verified payload: the JSON object Apple signed, unchanged, and the environment it names. -/
structure JsonPayload where
  json : String
  environment : Option Environment
deriving DecidableEq, Repr

def invalidCertificate (detail : String) : Failure := ⟨.invalidCertificate, detail⟩

/-- Why a payload does not read as a JSON object in UTF-8. -/
inductive Unreadable where
  | notUtf8
  | notAnObject
deriving DecidableEq, Repr

/-! ## Header and payload -/

section

variable (json : SerdeJson)

/-- The last `alg` string and the last `x5c` array of strings. -/
def readHeader (bytes : Bytes) : Except Failure (Option String × Option (List String)) :=
  match fromUtf8 bytes with
  | none => .error (malformed "header is not UTF-8")
  | some text =>
    match wholeObjectMembers json text with
    | none => .error (malformed "header is not a JSON object")
    | some members => .ok (string json members "alg", strings json members "x5c")

/-- The environment of a container's members, when it is an object that names one. -/
def nestedEnvironment (members : Members) (container : String) : Option (Option Environment) :=
  match members[container]? with
  | none => none
  | some raw =>
    match wholeObjectMembers json raw with
    | none => none
    | some inner =>
      if inner.contains "environment" then
        some (Environment.fromJwsEnvironment (string json inner "environment"))
      else none

/-- The first of `environment`, `data.environment` and `summary.environment` that is present
decides, whatever its value. -/
def environment (members : Members) : Option Environment :=
  if members.contains "environment" then
    Environment.fromJwsEnvironment (string json members "environment")
  else (["data", "summary"].findSome? (nestedEnvironment json members)).join

/-- What one read of a payload yields. -/
structure ReadPayload where
  json : String
  /-- The last `signedDate`, else the last `receiptCreationDate`. -/
  signedDate : Option Int
  environment : Option Environment
deriving DecidableEq, Repr

def readPayload (bytes : Bytes) : Except Unreadable ReadPayload :=
  match fromUtf8 bytes with
  | none => .error .notUtf8
  | some text =>
    match wholeObjectMembers json text with
    | none => .error .notAnObject
    | some members =>
      .ok { json := text
            signedDate :=
              (instant json members "signedDate").or (instant json members "receiptCreationDate")
            environment := environment json members }

end

/-- The verdict on a payload whose signature passed. -/
def signedPayload (payload : Except Unreadable ReadPayload) : Except Failure JsonPayload :=
  match payload with
  | .ok read => .ok { json := read.json, environment := read.environment }
  | .error _ => .error ⟨.unreadablePayload, "signed payload is not a JSON object"⟩

/-! ## The outer structure -/

variable (ssl : OpenSsl) (base64 : Base64) (json : SerdeJson)

/-- Decodes one `x5c` entry: standard base64 with canonical padding. -/
def decodeX5cEntry (text : String) : Except Failure Bytes :=
  match decodeReceiptBase64 base64 (utf8 text) with
  | none => .error (invalidCertificate "x5c entry is not valid base64")
  | some der => .ok der

/-- Only whether the entry is a certificate; its key is judged when it is about to be used. -/
def parseX5cCertificate (entry : String) : Except Failure Certificate :=
  match decodeX5cEntry base64 entry with
  | .error failure => .error failure
  | .ok der =>
    match (Certificate.fromDer ssl der).filter fun certificate => certificate.isReadable ssl with
    | none => .error (invalidCertificate "x5c entry is not a valid certificate")
    | some certificate => .ok certificate

/-- Decodes unpadded base64url, canonical only. -/
def decodeBase64urlStrict (text : Bytes) : Option Bytes := base64.decodeUrl text

/-- A compact JWS whose outer structure holds, with what the checks after it need. -/
structure OuterJws where
  headerB64 : Bytes
  payloadB64 : Bytes
  signature : Bytes
  leaf : Certificate
  intermediate : Certificate
  payload : Except Unreadable ReadPayload

/-- The decoded form of a segment. -/
def segment (text : Bytes) (what : String) : Except Failure Bytes :=
  match decodeBase64urlStrict base64 text with
  | none => .error (malformed (what ++ " is not canonical base64url"))
  | some bytes => .ok bytes

/-- The checks before any cryptography: three segments, their base64url, the header, and three
certificates. The third is parsed and then dropped: it is trusted by nobody. -/
def readOuter (jws : Bytes) : Except Failure OuterJws :=
  if jws.length > maxJwsBytes then
    .error ⟨.tooLarge, "jws exceeds the maximum accepted size of " ++ toString maxJwsBytes ++
      " bytes"⟩
  else
    match jws.splitOn 0x2e with
    | [headerB64, payloadB64, signatureB64] => do
      let headerBytes ← segment base64 headerB64 "header"
      let payloadBytes ← segment base64 payloadB64 "payload"
      let signature ← segment base64 signatureB64 "signature"
      let (alg, x5c) ← readHeader json headerBytes
      if alg ≠ some "ES256" then .error (malformed "alg must be ES256")
      else
        match x5c with
        | some [leafEntry, intermediateEntry, rootEntry] => do
          let leaf ← parseX5cCertificate ssl base64 leafEntry
          let intermediate ← parseX5cCertificate ssl base64 intermediateEntry
          let _ ← parseX5cCertificate ssl base64 rootEntry
          .ok { headerB64 := headerB64, payloadB64 := payloadB64, signature := signature,
                leaf := leaf, intermediate := intermediate,
                payload := readPayload json payloadBytes }
        | _ => .error (malformed "x5c must contain exactly 3 certificates")
    | segments =>
      .error (malformed ("expected 3 dot-separated segments, got " ++ toString segments.length))

/-! ## Verification -/

/-- The instant the chain is judged at: the payload's own date, otherwise the clock. -/
def jwsInstant (payload : Except Unreadable ReadPayload) (clock : Clock) :
    Except Failure Int × Clock :=
  match payload.toOption.bind ReadPayload.signedDate with
  | some millis => (.ok millis, clock)
  | none => clock.now

def verifySignature (outer : OuterJws) : Run (Except Failure Unit) := do
  let signingInput := outer.headerB64 ++ [0x2e] ++ outer.payloadB64
  if ← verifyEs256 ssl outer.leaf outer.signature signingInput then pure (.ok ())
  else pure (.error (invalidSignature "ES256 signature does not match the leaf key"))

/-- The chain, the markers, and only then the signature. -/
def verifyLeaf (outer : OuterJws) (anchors : List TrustAnchor) (atMillis : Int) :
    Run (Except Failure Unit) := do
  match ← validatePair ssl outer.leaf outer.intermediate anchors atMillis with
  | .error failure => pure (.error failure)
  | .ok () =>
    if !ssl.hasExtension outer.leaf signingLeafOid then
      pure (.error ⟨.invalidCertificatePurpose,
        "leaf certificate lacks Apple marker OID " ++ signingLeafOid⟩)
    else if !ssl.hasExtension outer.intermediate wwdrIntermediateOid then
      pure (.error ⟨.invalidCertificatePurpose,
        "intermediate certificate lacks Apple marker OID " ++ wwdrIntermediateOid⟩)
    else verifySignature ssl outer

/-- Verifies a compact JWS and returns its payload. -/
def verifyJws (jws : Bytes) (anchors : List TrustAnchor) (clock : Clock) :
    Run (Except Failure JsonPayload × Clock) :=
  match readOuter ssl base64 json jws with
  | .error failure => pure (.error failure, clock)
  | .ok outer =>
    let (instant, clock) := jwsInstant outer.payload clock
    match instant with
    | .error failure => pure (.error failure, clock)
    | .ok atMillis => do
      match ← verifyLeaf ssl outer anchors atMillis with
      | .error failure => pure (.error failure, clock)
      | .ok () => pure (signedPayload outer.payload, clock)

end ReceiptVerifier
