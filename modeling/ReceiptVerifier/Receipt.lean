import ReceiptVerifier.Openssl.Cms
import ReceiptVerifier.Path
import ReceiptVerifier.Payload

/-!
# Receipt verification

`rust/src/receipt.rs`: a legacy PKCS#7 receipt verified offline. The envelope, the bag, the chain
and each `SignerInfo` in turn until one passes; then the payload that signature covers.
-/

namespace ReceiptVerifier

open Openssl

def maxEmbeddedCertificates : Nat := 10
def maxSignerInfos : Nat := 4

def envelopeLimits : EnvelopeLimits :=
  { depth := maxAsn1Depth, nodes := maxAsn1Nodes, signerInfos := maxSignerInfos,
    certificates := maxEmbeddedCertificates }

/-- The largest receipt string, in bytes: Apple's own request limit. -/
def maxReceiptBytes : Nat := 3145728

def signingLeafOid : String := "1.2.840.113635.100.6.11.1"
def wwdrIntermediateOid : String := "1.2.840.113635.100.6.2.1"

def tooManySignerInfos (count : Nat) : Failure :=
  malformed ("receipt carries " ++ toString count ++ " SignerInfos, more than the maximum of " ++
    toString maxSignerInfos)

def tooManyCertificates (count : Nat) : Failure :=
  malformed ("receipt embeds " ++ toString count ++ " certificates, more than the maximum of " ++
    toString maxEmbeddedCertificates)

/-- The failure for an envelope the adapter refused. -/
def envelopeFailure : CmsError → Failure
  | .tooManySignerInfos count => tooManySignerInfos count
  | .tooManyCertificates count => tooManyCertificates count
  | .tooDeep => malformed ("malformed CMS structure: nested deeper than " ++
      toString maxAsn1Depth ++ " constructed values")
  | .tooManyNodes => malformed ("malformed CMS structure: more than " ++
      toString maxAsn1Nodes ++ " ASN.1 values")
  | other => malformed ("malformed CMS structure: " ++ other.display)

/-- What a passing signature hands on: the attribute SET, or why it did not parse. -/
abbrev SignedAttributes := Except PayloadError (List Attribute)

def invalidSignature (detail : String) : Failure := ⟨.invalidSignature, detail⟩

variable (ssl : OpenSsl)

/-! ## The bag -/

/-- The embedded certificates a strict reader decodes, and the ones it does not. -/
structure Embedded where
  readable : List Certificate
  unreadable : List Certificate

def Embedded.partition (certificates : List Certificate) : Embedded where
  readable := certificates.filter fun certificate => certificate.isReadable ssl
  unreadable := certificates.filter fun certificate => !certificate.isReadable ssl

/-- The loop of `signerCertificates`: the first match, and the others, each certificate once. -/
def collectSigners (info : SignerInfo) : List Certificate → Option Certificate →
    List Certificate → Option (Certificate × List Certificate)
  | [], first, others => first.map fun first => (first, others)
  | certificate :: rest, first, others =>
    if !SignedData.namesSigner ssl info certificate then collectSigners info rest first others
    else
      match first with
      | none => collectSigners info rest (some certificate) others
      | some kept =>
        if !(kept :: others).any fun kept => kept.sameAs certificate then
          collectSigners info rest first (others ++ [certificate])
        else collectSigners info rest first others

/-- The certificates a `SignerInfo` names as its signer, the first apart from the rest, or the
verdict for the bag. -/
def signerCertificates (info : SignerInfo) (embedded : Embedded) :
    Except Failure (Certificate × List Certificate) :=
  if embedded.unreadable.any fun certificate => SignedData.namesSigner ssl info certificate then
    .error ⟨.invalidCertificate, "receipt signer certificate does not decode"⟩
  else if !embedded.unreadable.isEmpty then
    .error (malformed "an embedded certificate is not a valid certificate")
  else
    match collectSigners ssl info embedded.readable none [] with
    | none => .error (malformed "signer certificate not embedded")
    | some matched => .ok matched

/-! ## One signer -/

def verifyCmsSignature (cms : SignedData) (info : SignerInfo) (signer : Certificate) :
    Run (Except Failure Unit) := do
  if !cms.contentTypeAttributeMatches ssl info then
    pure (.error (invalidSignature "contentType attribute differs from the eContentType"))
  else if ← cms.verifySigner ssl info signer then pure (.ok ())
  else pure (.error (invalidSignature "CMS signature check failed"))

/-- Whether a path's second certificate carries the WWDR marker. -/
def hasWwdrMarker (path : List Certificate) : Bool :=
  path[1]?.any fun intermediate => ssl.hasExtension intermediate wwdrIntermediateOid

/-- The chain first, then the markers, and only then the signature. -/
def verifySigner (cms : SignedData) (info : SignerInfo) (signer : Certificate)
    (authenticated : List Certificate) (anchors : List TrustAnchor) (atMillis : Int) :
    Run (Except Failure Unit) := do
  if !authenticated.any fun certificate => certificate.sameAs signer then
    pure (.error (untrusted "signer certificate is not issued under a pinned Apple root"))
  else if !signer.hasUsableKey ssl then
    pure (.error ⟨.invalidCertificate,
      "receipt signer certificate has a public key this library cannot use"⟩)
  else
    match ← receiptPath ssl signer authenticated anchors atMillis with
    | .error failure => pure (.error failure)
    | .ok path =>
      if !ssl.hasExtension signer signingLeafOid then
        pure (.error ⟨.invalidCertificatePurpose,
          "receipt signer certificate lacks Apple receipt-signing marker OID " ++ signingLeafOid⟩)
      else if !hasWwdrMarker ssl path then
        pure (.error ⟨.invalidCertificatePurpose,
          "receipt intermediate certificate lacks Apple WWDR marker OID " ++ wwdrIntermediateOid⟩)
      else verifyCmsSignature ssl cms info signer

/-- Every certificate a `SignerInfo` names: one passing is enough, and only when none does is the
first one's failure the verdict. -/
def verifySigners (cms : SignedData) (info : SignerInfo) (first : Certificate)
    (others : List Certificate) (authenticated : List Certificate) (anchors : List TrustAnchor)
    (atMillis : Int) : Run (Except Failure Unit) := do
  match ← verifySigner ssl cms info first authenticated anchors atMillis with
  | .ok () => pure (.ok ())
  | .error failure =>
    if ← Traced.any (fun signer => do
        let verdict ← verifySigner ssl cms info signer authenticated anchors atMillis
        pure verdict.isOk) others then pure (.ok ())
    else pure (.error failure)

/-! ## The envelope -/

section

variable (jiff : Jiff)

/-- The receipt's first attribute 12, when the SET parsed and it decodes. -/
def signedCreationDate (attributes : SignedAttributes) : Option Int :=
  match attributes with
  | .error _ => none
  | .ok attributes => creationDate ssl jiff attributes

/-- The instant the chain is judged at: the first attribute 12, otherwise the clock. -/
def chainInstant (attributes : SignedAttributes) (clock : Clock) : Except Failure Int × Clock :=
  match signedCreationDate ssl jiff attributes with
  | some millis => (.ok millis, clock)
  | none => clock.now

/-- What the loop over the `SignerInfo`s carries: the attribute SET and the authenticated list once
they are there, the first failure, and the clock. -/
structure SignerLoop where
  parsed : Option SignedAttributes := none
  authenticated : Option (List Certificate) := none
  firstFailure : Option Failure := none
  clock : Clock

/-- The authenticated list: signer-independent, so walked once for all `SignerInfo`s. -/
def SignerLoop.authenticate (loop : SignerLoop) (embedded : Embedded)
    (anchors : List TrustAnchor) : Run (List Certificate) :=
  match loop.authenticated with
  | some authenticated => pure authenticated
  | none => authenticatedTopDown ssl embedded.readable anchors

/-- The verdict on one `SignerInfo` once the chain instant was asked for, and the authenticated list
if it is there now. -/
def SignerLoop.verdict (loop : SignerLoop) (cms : SignedData) (embedded : Embedded)
    (anchors : List TrustAnchor) (info : SignerInfo) (first : Certificate)
    (others : List Certificate) (instant : Except Failure Int) :
    Run (Except Failure Unit × Option (List Certificate)) :=
  match instant with
  | .error failure => pure (.error failure, loop.authenticated)
  | .ok atMillis => do
    let authenticated ← loop.authenticate ssl embedded anchors
    let verdict ← verifySigners ssl cms info first others authenticated anchors atMillis
    pure (verdict, some authenticated)

/-- The loop over the `SignerInfo`s, each tried until one passes. -/
def verifySignerInfos (cms : SignedData) (embedded : Embedded) (anchors : List TrustAnchor) :
    List SignerInfo → SignerLoop → Run (Except Failure SignedAttributes × Clock)
  | [], loop => pure (.error (loop.firstFailure.getD (malformed "no signer info")), loop.clock)
  | info :: infos, loop =>
    match signerCertificates ssl info embedded with
    | .error failure =>
      verifySignerInfos cms embedded anchors infos
        { loop with firstFailure := loop.firstFailure.or (some failure) }
    | .ok (first, others) => do
      let attributes := loop.parsed.getD (parsePayloadAttributes ssl cms.content)
      let (instant, clock) := chainInstant ssl jiff attributes loop.clock
      let (verdict, authenticated) ←
        loop.verdict ssl cms embedded anchors info first others instant
      match verdict with
      | .ok () => pure (.ok attributes, clock)
      | .error failure =>
        -- a broken clock is the host's fault: an earlier verdict must not hide it
        if failure.reason = .internalError then pure (.error failure, clock)
        else
          verifySignerInfos cms embedded anchors infos
            { parsed := some attributes, authenticated := authenticated,
              firstFailure := loop.firstFailure.or (some failure), clock := clock }

/-- Every check up to and including a signature. -/
def verifyEnvelope (der : Bytes) (anchors : List TrustAnchor) (clock : Clock) :
    Run (Except Failure SignedAttributes × Clock) :=
  match SignedData.parse ssl der envelopeLimits with
  | .error err => pure (.error (envelopeFailure err), clock)
  | .ok cms =>
    verifySignerInfos ssl jiff cms (Embedded.partition ssl cms.certificates) anchors
      cms.signerInfos { clock := clock }

/-! ## The receipt -/

/-- The payload a passing signature hands on, decoded. -/
def decodeSignedPayload (attributes : SignedAttributes) : Except Failure ReceiptPayload :=
  match attributes with
  | .ok attributes => .ok (parseReceiptPayload ssl jiff attributes)
  | .error _ => .error ⟨.unreadablePayload, "signed receipt content could not be read"⟩

/-- The `base64` crate, in the three configurations the core and the server use. -/
structure Base64 where
  /-- Standard alphabet, canonical padding, trailing bits allowed. -/
  decodeReceipt : Bytes → Option Bytes
  /-- URL-safe alphabet, no padding, canonical. -/
  decodeUrl : Bytes → Option Bytes
  /-- Standard alphabet, canonical, with the text of the error. -/
  decodeStandard : Bytes → Except String Bytes
  /-- Standard alphabet, padded. -/
  encode : Bytes → String

def decodeReceiptBase64 (base64 : Base64) (text : Bytes) : Option Bytes :=
  if text.isEmpty then none else base64.decodeReceipt text

def decodeReceiptData (base64 : Base64) (text : Bytes) : Except Failure Bytes :=
  match decodeReceiptBase64 base64 text with
  | none => .error ⟨.malformed, "receipt is not valid base64"⟩
  | some der => .ok der

/-- Verifies a receipt in its base64 form and decodes its payload. -/
def verifyReceipt (base64 : Base64) (text : Bytes) (anchors : List TrustAnchor) (clock : Clock) :
    Run (Except Failure ReceiptPayload × Clock) :=
  if text.length > maxReceiptBytes then
    pure (.error ⟨.tooLarge, "receipt exceeds the maximum accepted size of " ++
      toString maxReceiptBytes ++ " bytes"⟩, clock)
  else
    match decodeReceiptData base64 text with
    | .error failure => pure (.error failure, clock)
    | .ok der => do
      let (verdict, clock) ← verifyEnvelope ssl jiff der anchors clock
      match verdict with
      | .error failure => pure (.error failure, clock)
      | .ok attributes => pure (decodeSignedPayload ssl jiff attributes, clock)

end

end ReceiptVerifier
