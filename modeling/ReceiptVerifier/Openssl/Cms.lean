import ReceiptVerifier.Openssl.Certificate

/-!
# CMS `SignedData`

`rust/openssl/src/cms.rs`: a `ContentInfo` parsed in an order that bounds a hostile envelope before
anything is built per entry, and each `SignerInfo` checked on its own.
-/

namespace ReceiptVerifier

namespace Openssl

/-- Why a blob is not a `SignedData` the core can look at. -/
inductive CmsError where
  | malformed
  | trailing
  | tooDeep
  | tooManyNodes
  | notSignedData
  | tooManySignerInfos (count : Nat)
  | tooManyCertificates (count : Nat)
  | noContent
  | noSignerInfo
deriving DecidableEq, Repr

def CmsError.display : CmsError → String
  | .malformed => "not a CMS ContentInfo"
  | .trailing => "bytes follow the CMS ContentInfo"
  | .tooDeep => "the CMS envelope nests too deep"
  | .tooManyNodes => "the CMS envelope holds too many values"
  | .notSignedData => "not a CMS SignedData"
  | .tooManySignerInfos count => toString count ++ " SignerInfos"
  | .tooManyCertificates count => toString count ++ " embedded certificates"
  | .noContent => "no encapsulated payload"
  | .noSignerInfo => "no signer info"

/-- The bounds `SignedData.parse` enforces before the full decode. -/
structure EnvelopeLimits where
  depth : Nat
  nodes : Nat
  signerInfos : Nat
  certificates : Nat

/-- A parsed CMS `SignedData` with attached content. -/
structure SignedData where
  certificates : List Certificate
  signerInfos : List SignerInfo
  eContentType : Option Bytes
  content : Bytes
deriving DecidableEq, Repr

/-- The member bounds, `SignerInfo`s first. -/
def within (members : EnvelopeMembers) (limits : EnvelopeLimits) : Except CmsError Unit :=
  if members.signerInfos > limits.signerInfos then .error (.tooManySignerInfos members.signerInfos)
  else if members.certificates > limits.certificates then
    .error (.tooManyCertificates members.certificates)
  else .ok ()

def walkFailure : WalkError → CmsError
  | .malformed => .malformed
  | .trailing => .trailing
  | .tooDeep => .tooDeep
  | .tooManyNodes => .tooManyNodes

def shallowFailure : ShallowError → CmsError
  | .malformed => .malformed
  | .notSignedData => .notSignedData

variable (ssl : OpenSsl)

namespace SignedData

/-- Parses a DER or BER `ContentInfo`: the header walk, the shallow decode, the member bounds and
only then the full decode. -/
def parse (der : Bytes) (limits : EnvelopeLimits) : Except CmsError SignedData :=
  let budget : Budget := { depth := limits.depth, nodes := limits.nodes }
  match walkExact ssl.asn1 der budget .ber (some ssl.decodesAsAny) with
  | .error err => .error (walkFailure err)
  | .ok () =>
    match ssl.shallow der with
    | .error err => .error (shallowFailure err)
    | .ok members =>
      match within members limits with
      | .error err => .error err
      | .ok () =>
        match ssl.contentInfo der with
        | none => .error .malformed
        | some (cms, whole) =>
          if !whole then .error .trailing
          else
            match cms.content with
            | none => .error .noContent
            | some content =>
              if cms.signerInfos.length = 0 then .error .noSignerInfo
              else
                .ok { certificates := cms.certificates, signerInfos := cms.signerInfos,
                      eContentType := cms.eContentType, content := content }

variable {ssl} in
/-- Everything that holds of an envelope `parse` accepts. -/
theorem parse_eq_ok {der : Bytes} {limits : EnvelopeLimits} {cms : SignedData}
    (h : parse ssl der limits = .ok cms) :
    walkExact ssl.asn1 der ⟨limits.depth, limits.nodes⟩ .ber (some ssl.decodesAsAny) = .ok () ∧
    ∃ members info, ssl.shallow der = .ok members ∧ within members limits = .ok () ∧
      ssl.contentInfo der = some (info, true) ∧ info.signerInfos ≠ [] ∧
      info.content = some cms.content ∧ cms.certificates = info.certificates ∧
      cms.signerInfos = info.signerInfos ∧ cms.eContentType = info.eContentType := by
  unfold parse at h
  cases walked : walkExact ssl.asn1 der ⟨limits.depth, limits.nodes⟩ .ber
      (some ssl.decodesAsAny) with
  | error err => simp [walked] at h
  | ok =>
    cases shallow : ssl.shallow der with
    | error err => simp [walked, shallow] at h
    | ok members =>
      cases bounded : within members limits with
      | error err => simp [walked, shallow, bounded] at h
      | ok =>
        cases decoded : ssl.contentInfo der with
        | none => simp [walked, shallow, bounded, decoded] at h
        | some read =>
          obtain ⟨info, whole⟩ := read
          cases whole with
          | false => simp [walked, shallow, bounded, decoded] at h
          | true =>
            cases content : info.content with
            | none => simp [walked, shallow, bounded, decoded, content] at h
            | some octets =>
              by_cases none : info.signerInfos.length = 0
              · simp [walked, shallow, bounded, decoded, content, none] at h
              · simp only [walked, shallow, bounded, decoded, content, none, Bool.not_true,
                  Bool.false_eq_true, ↓reduceIte, Except.ok.injEq] at h
                subst h
                exact ⟨rfl, members, info, rfl, bounded, rfl,
                  fun empty => none (by rw [empty, List.length_nil]), content, rfl, rfl, rfl⟩

/-- Whether a `SignerInfo` names `certificate` as its signer. -/
def namesSigner (info : SignerInfo) (certificate : Certificate) : Bool :=
  ssl.certCmp info certificate

/-- `NID_pkcs9_contentType`. -/
def nidContentType : Int := 50

/-- Whether the first `contentType` signed attribute names the `eContentType`. True when there are
no signed attributes or no `contentType` among them. -/
def contentTypeAttributeMatches (cms : SignedData) (info : SignerInfo) : Bool :=
  match ssl.signedAttributes info with
  | none => true
  | some attributes =>
    match attributes.find? fun attr => attr.nid == nidContentType with
    | none => true
    | some attr =>
      match cms.eContentType with
      | none => false
      | some wanted => attr.firstObject == some wanted

/-- Verifies a `SignerInfo` under `signer`'s key: the signature over the signed attributes, if there
are any, then the content. -/
def verifySigner (cms : SignedData) (info : SignerInfo) (signer : Certificate) : Run Bool :=
  match ssl.digest info with
  | none => pure false
  | some md =>
    match ssl.publicKey signer with
    | none => pure false
    | some key => do
      Traced.emit (.keyUsed signer key .cmsSignature)
      if (ssl.signedAttributes info).isSome && !ssl.verifySignedAttributes info key then pure false
      else pure (ssl.verifyContent info key md cms.content)

end SignedData

end Openssl

end ReceiptVerifier
