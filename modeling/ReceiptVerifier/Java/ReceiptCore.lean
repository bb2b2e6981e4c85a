import ReceiptVerifier.Receipt

/-!
# The Java port's loops over signers

`ReceiptCore.java` and `ReceiptCertificates.java`: every `SignerInfo` of Apple's shape and every
certificate it names, tried in receipt order until one passes. BouncyCastle and the path builder are
not part of the repository: `Bouncy` holds what the loops ask of them.

The loops are written over any kind of signer and any trace, so that what they try can be observed.
-/

namespace ReceiptVerifier

namespace Java

open Openssl

/-- What a call throws: a `VerificationException`, or an exception of another class, by its name. -/
inductive Thrown where
  | verification (failure : Failure)
  | unchecked (name : String)
deriving DecidableEq, Repr

/-- `throw first`: a reference that is still null. -/
def Thrown.ofNullable : Option Failure → Thrown
  | some failure => .verification failure
  | none => .unchecked "java.lang.NullPointerException"

/-- What the loops ask about signers and certificates. -/
structure Bouncy where
  /-- The signer's `SignerId` matches the certificate: the serial number and the issuer, or the
  `subjectKeyIdentifier`. -/
  sidMatches : SignerInfo → Certificate → Bool
  /-- `getPublicKey`: `none` when it throws or returns null. -/
  publicKey : Certificate → Option PublicKey
  /-- `getExtensionValue` is not null. -/
  hasExtension : Certificate → String → Bool
  /-- `validateChain`: the path, leaf first, at an instant. -/
  validateChain : Certificate → List Certificate → Int → Except Thrown (List Certificate)
  /-- `verifyCmsSignature`. -/
  verifyCmsSignature : SignerInfo → PublicKey → Except Thrown Unit

namespace ReceiptCore

/-! ## The bag -/

/-- The loop of `ReceiptCertificates.signers`: each match once. -/
def collectMatches (matched : Certificate → Bool) :
    List Certificate → List Certificate → List Certificate
  | [], found => found
  | certificate :: rest, found =>
    if matched certificate && !found.contains certificate then
      collectMatches matched rest (found ++ [certificate])
    else collectMatches matched rest found

/-- `ReceiptCertificates.signers`: every embedded certificate a signer names, in receipt order. -/
def signers (matched : Certificate → Bool) (certificates : List Certificate) :
    Except Thrown (List Certificate) :=
  let found := collectMatches matched certificates []
  if found.isEmpty then
    .error (.verification ⟨.malformed, "signer certificate not embedded"⟩)
  else .ok found

/-! ## One pair -/

def decodeKey (bouncy : Bouncy) (certificate : Certificate) (what : String) :
    Except Thrown PublicKey :=
  match bouncy.publicKey certificate with
  | some key => .ok key
  | none => .error (.verification ⟨.invalidCertificate, what ++ " does not decode"⟩)

def requireMarkers (bouncy : Bouncy) (signer : Certificate) (intermediate : Option Certificate)
    (what : String) : Except Thrown Unit :=
  if !bouncy.hasExtension signer signingLeafOid then
    .error (.verification ⟨.invalidCertificatePurpose,
      what ++ " signer certificate lacks Apple signing marker OID " ++ signingLeafOid⟩)
  else
    match intermediate with
    | none => .error (.verification ⟨.invalidCertificatePurpose,
        what ++ " signer is issued by a root directly, with no WWDR intermediate"⟩)
    | some intermediate =>
      if !bouncy.hasExtension intermediate wwdrIntermediateOid then
        .error (.verification ⟨.invalidCertificatePurpose,
          what ++ " intermediate certificate lacks Apple WWDR marker OID " ++ wwdrIntermediateOid⟩)
      else .ok ()

/-- The body of `verifySigner`'s loop, for one certificate. -/
def verifyPair (bouncy : Bouncy) (authenticated : List Certificate) (instant : Int)
    (signer : SignerInfo) (signerCert : Certificate) : Except Thrown Unit :=
  if !authenticated.contains signerCert then
    .error (.verification ⟨.untrustedChain,
      "signer certificate is not issued under a pinned Apple root"⟩)
  else do
    let signerKey ← decodeKey bouncy signerCert "receipt signer certificate"
    let path ← bouncy.validateChain signerCert authenticated instant
    requireMarkers bouncy signerCert (if path.length < 2 then none else path[1]?) "receipt"
    bouncy.verifyCmsSignature signer signerKey

/-! ## The loops -/

section

variable {σ ε : Type}

/-- The loop of `verifySigner` over the certificates a signer names. -/
def verifySigner (pair : Certificate → Traced ε (Except Thrown Unit)) :
    List Certificate → Option Failure → Traced ε (Except Thrown Unit)
  | [], first => pure (.error (.ofNullable first))
  | signerCert :: rest, first => do
    match ← pair signerCert with
    | .ok () => pure (.ok ())
    | .error (.verification e) => verifySigner pair rest (first.or (some e))
    | .error e => pure (.error e)

/-- The loop of `verifySignature` over the signers. -/
def verifySignature (named : σ → Except Thrown (List Certificate))
    (pair : σ → Certificate → Traced ε (Except Thrown Unit)) :
    List σ → Option Failure → Traced ε (Except Thrown Unit)
  | [], first => pure (.error (.ofNullable first))
  | signer :: rest, first => do
    let verdict ←
      match named signer with
      | .error e => pure (.error e)
      | .ok certificates => verifySigner (pair signer) certificates none
    match verdict with
    | .ok () => pure (.ok ())
    | .error (.verification e) => verifySignature named pair rest (first.or (some e))
    | .error e => pure (.error e)

end

end ReceiptCore

end Java

end ReceiptVerifier
