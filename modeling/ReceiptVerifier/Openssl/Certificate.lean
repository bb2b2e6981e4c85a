import ReceiptVerifier.Lib.Traced
import ReceiptVerifier.Openssl.Walk

/-!
# Certificates, and what OpenSSL is asked

`rust/openssl/src/certificate.rs`. OpenSSL is not part of the repository: `OpenSsl` holds the
functions of it that the adapter calls, as arbitrary functions of the encodings they are given, and
everything the adapter does around them is translated.

A certificate is its encoding. Each use of a public key for a signature check is an `Event`, where
the adapter's `keys::record` notes it, and so is each run of `X509_verify_cert`.
-/

namespace ReceiptVerifier

namespace Openssl

/-- A certificate OpenSSL parsed, as its encoding. -/
structure Certificate where
  der : Bytes
deriving DecidableEq, Repr

/-- A public key OpenSSL built, as its `SubjectPublicKeyInfo`. -/
structure PublicKey where
  der : Bytes
deriving DecidableEq, Repr

/-- A `SignerInfo` of a CMS structure, as its encoding. -/
structure SignerInfo where
  der : Bytes
deriving DecidableEq, Repr

/-- A signed attribute: its type as a NID, and its first value when that is an OBJECT
IDENTIFIER. -/
structure SignedAttribute where
  nid : Int
  firstObject : Option Bytes
deriving DecidableEq, Repr

/-- What `d2i_CMS_ContentInfo` reads of a `signedData`. -/
structure ContentInfo where
  certificates : List Certificate
  signerInfos : List SignerInfo
  /-- The eContent octets; `none` for a detached signature. -/
  content : Option Bytes
  eContentType : Option Bytes
deriving DecidableEq, Repr

/-- How many members the shallow decode of an envelope finds. -/
structure EnvelopeMembers where
  certificates : Nat
  signerInfos : Nat
deriving DecidableEq, Repr

/-- Why the shallow decode refuses an envelope. -/
inductive ShallowError where
  | malformed
  | notSignedData
deriving DecidableEq, Repr

/-- One call of the verify callback with a problem: its `X509_V_ERR_*` code, its depth and the
certificate it is about. -/
structure Report where
  error : Int
  depth : Int
  current : Option Certificate
deriving DecidableEq, Repr

/-- What one `X509_verify_cert` run did, its callback answering 1 throughout. -/
structure VerifyCert where
  verified : Bool
  chain : List Certificate
  reports : List Report
deriving DecidableEq, Repr

/-- A value of an ASN.1 `ANY`: its universal type, and what the readers of it need. -/
inductive Asn1Type where
  | integer (value : Int)
  | octetString (octets : Bytes)
  | other
deriving DecidableEq, Repr

/-- OpenSSL, as the adapter uses it. -/
structure OpenSsl where
  asn1 : Asn1GetObject
  /-- `decodes_as_any`: the value decodes as an `ANY`. -/
  decodesAsAny : Bytes → Bool
  /-- `d2i_X509`: the certificate at the start of the bytes, and whether it is all of them. -/
  d2iX509 : Bytes → Option (Certificate × Bool)
  /-- `PEM_read_bio_X509` until the input ends. -/
  pemX509 : Bytes → Option (List Certificate)
  /-- `X509_get_version`. -/
  version : Certificate → Int
  /-- The unused bits of the `signatureValue`; `none` when it cannot be read. -/
  signatureUnusedBits : Certificate → Option Int
  /-- The OID of every extension, in order. -/
  extensionOids : Certificate → Option (List Bytes)
  /-- `X509_get_ext_d2i`: the extension is absent, or present once and decodes. -/
  decodesIfPresent : Certificate → Int → Bool
  /-- The extension `OBJ_txt2obj` reads from the text is among the certificate's. -/
  hasExtension : Certificate → String → Bool
  /-- `X509_get_pubkey`. -/
  publicKey : Certificate → Option PublicKey
  /-- `X509_check_issued (issuer, subject)` is `X509_V_OK`. -/
  checkIssued : Certificate → Certificate → Bool
  /-- The first certificate's subject is the second's issuer (`X509_NAME_cmp`). -/
  subjectIsIssuerOf : Certificate → Certificate → Bool
  /-- `X509_verify`. -/
  verify : Certificate → PublicKey → Bool
  /-- `notAfter` is at or after the second. -/
  notAfterAtLeast : Certificate → Int → Bool
  /-- `X509_verify_cert` for a target through untrusted certificates to a store, at a second, with
  `X509_V_FLAG_PARTIAL_CHAIN`; `none` when a structure for it cannot be made. -/
  verifyCert : Certificate → List Certificate → List Certificate → Int → Option VerifyCert
  /-- The shallow decode: the counts of an envelope's members. -/
  shallow : Bytes → Except ShallowError EnvelopeMembers
  /-- `d2i_CMS_ContentInfo`, and whether it read all of the bytes. -/
  contentInfo : Bytes → Option (ContentInfo × Bool)
  /-- `CMS_SignerInfo_cert_cmp` is 0. -/
  certCmp : SignerInfo → Certificate → Bool
  /-- The signed attributes; `none` when the field is absent. -/
  signedAttributes : SignerInfo → Option (List SignedAttribute)
  /-- `EVP_get_digestbynid` of the `digestAlgorithm`, as the digest's NID. -/
  digest : SignerInfo → Option Int
  /-- `CMS_SignerInfo_verify` under a key is 1. -/
  verifySignedAttributes : SignerInfo → PublicKey → Bool
  /-- The digest of the content can be made and `CMS_SignerInfo_verify_content` with it is 1. -/
  verifyContent : SignerInfo → PublicKey → Int → Bytes → Bool
  /-- The key is an EC key on P-256. -/
  isP256 : PublicKey → Bool
  /-- The ECDSA check of `r` and `s` over the SHA-256 of a message; `none` when the signature cannot
  be built from them. -/
  ecdsa : Bytes → Bytes → Option (PublicKey → Bytes → Bool)
  /-- The fields of every entry of a `SET OF ReceiptAttribute` that is all of the bytes. -/
  receiptPayload : Bytes → Option (List (List Asn1Type))
  /-- The octets of an `OCTET STRING` that is all of the bytes. -/
  octetStringItem : Bytes → Option Bytes
  /-- The value of an `INTEGER` that is all of the bytes. -/
  integerItem : Bytes → Option Int
  /-- The universal type and the octets of a `DisplayText` that is all of the bytes. -/
  displayText : Bytes → Option (Nat × Bytes)
  /-- SHA-256. -/
  sha256 : Bytes → Bytes

/-- What a key is used to check. -/
inductive KeyUse where
  | issuedBy
  | signedBy
  | cmsSignature
  | es256
deriving DecidableEq, Repr

inductive Event where
  /-- The owner's key is about to check a signature. -/
  | keyUsed (owner : Certificate) (key : PublicKey) (use : KeyUse)
  /-- OpenSSL builds and checks a path of its own. -/
  | pathRun (target : Certificate) (untrusted store : List Certificate)
deriving DecidableEq, Repr

abbrev Run := Traced Event

variable (ssl : OpenSsl)

namespace Certificate

/-- Parses exactly one certificate. -/
def fromDer (der : Bytes) : Option Certificate :=
  match ssl.d2iX509 der with
  | none => none
  | some (certificate, whole) => if whole then some certificate else none

/-- Every certificate in PEM text, in order. -/
def allFromPem (pem : Bytes) : Option (List Certificate) := ssl.pemX509 pem

/-- Whether two certificates are the same one (`X509_cmp`). -/
def sameAs (a b : Certificate) : Bool := a == b

/-- `NID_basic_constraints`. -/
def nidBasicConstraints : Int := 87
/-- `NID_key_usage`. -/
def nidKeyUsage : Int := 83

/-- Two neighbours of a list are equal. -/
def hasEqualNeighbours : List Bytes → Bool
  | a :: b :: l => a == b || hasEqualNeighbours (b :: l)
  | _ => false

/-- Whether a strict X.509 reader decodes the certificate. -/
def isReadable (c : Certificate) : Bool :=
  if !(0 ≤ ssl.version c && ssl.version c ≤ 2) || ssl.signatureUnusedBits c != some 0 then false
  else
    match ssl.extensionOids c with
    | none => false
    | some oids =>
      if hasEqualNeighbours (oids.mergeSort fun a b => decide (a ≤ b)) then false
      else
        ssl.decodesIfPresent c nidBasicConstraints && ssl.decodesIfPresent c nidKeyUsage

/-- Whether OpenSSL can build the certificate's key. -/
def hasUsableKey (c : Certificate) : Bool := (ssl.publicKey c).isSome

/-- Whether `issuer` issued this certificate: `X509_check_issued`, then the signature. -/
def issuedBy (c issuer : Certificate) : Run Bool :=
  if !ssl.checkIssued issuer c then pure false
  else
    match ssl.publicKey issuer with
    | none => pure false
    | some key => do
      Traced.emit (.keyUsed issuer key .issuedBy)
      pure (ssl.verify c key)

/-- Whether this certificate names `issuer` as its issuer and `issuer`'s key verifies it. -/
def signedBy (c issuer : Certificate) : Run Bool :=
  if !ssl.subjectIsIssuerOf issuer c then pure false
  else
    match ssl.publicKey issuer with
    | none => pure false
    | some key => do
      Traced.emit (.keyUsed issuer key .signedBy)
      pure (ssl.verify c key)

end Certificate

/-- ES256 over `message` with the certificate's key, which must be on P-256. -/
def verifyEs256 (leaf : Certificate) (rawSignature message : Bytes) : Run Bool :=
  if rawSignature.length ≠ 64 then pure false
  else
    match ssl.publicKey leaf with
    | none => pure false
    | some key =>
      if !ssl.isP256 key then pure false
      else
        match ssl.ecdsa (rawSignature.take 32) (rawSignature.drop 32) with
        | none => pure false
        | some check => do
          Traced.emit (.keyUsed leaf key .es256)
          pure (check key message)

end Openssl

end ReceiptVerifier
