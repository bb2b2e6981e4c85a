import ReceiptVerifier.Lib.Traced
import ReceiptVerifier.Openssl.Certificate

/-!
# The Java port's top-down walk

`ReceiptCore.authenticatedTopDown` and `AppleTrust.signedByAny`. Certificates are their encodings,
as `X509Certificate.equals` compares them; `Issuance` holds what the walk asks BouncyCastle about
them.
-/

namespace ReceiptVerifier

namespace Java

open Openssl

/-- A `java.security.cert.TrustAnchor` with no name constraints. -/
structure TrustAnchor where
  trustedCert : Certificate
deriving DecidableEq, Repr

/-- What the walk asks about certificates. -/
structure Issuance where
  /-- `getIssuerX500Principal`, in the canonical form `equals` compares. -/
  issuerX500Principal : Certificate → String
  /-- `getSubjectX500Principal`. -/
  subjectX500Principal : Certificate → String
  /-- `getPublicKey`: `none` when it throws or returns null. -/
  publicKey : Certificate → Option PublicKey
  /-- `AppleTrust.signedBy`. -/
  signedBy : Certificate → PublicKey → Bool
  /-- `getBasicConstraints`: -1 when the certificate is no CA. -/
  basicConstraints : Certificate → Int

namespace AppleTrust

def roots (trustAnchors : List TrustAnchor) : List Certificate :=
  trustAnchors.map TrustAnchor.trustedCert

/-- Whether one of `issuers` signed the certificate. -/
def signedByAny (issuance : Issuance) (certificate : Certificate) : List Certificate → Bool
  | [] => false
  | issuer :: issuers =>
    if issuance.issuerX500Principal certificate ≠ issuance.subjectX500Principal issuer then
      signedByAny issuance certificate issuers
    else
      match issuance.publicKey issuer with
      | none => signedByAny issuance certificate issuers
      | some key =>
        if issuance.signedBy certificate key then true
        else signedByAny issuance certificate issuers

end AppleTrust

namespace ReceiptCore

/-- One pass of the walk's loop: what `issuers` is, and which candidates are asked about it. -/
structure Round where
  issuers : List Certificate
  pending : List Certificate
deriving DecidableEq, Repr

/-- The CAs among the certificates a round accepted, those that vouched before left out: the next
`issuers`, and `vouchers` with them. -/
def nextIssuers (issuance : Issuance) :
    List Certificate → List Certificate → List Certificate → List Certificate × List Certificate
  | [], issuers, vouchers => (issuers, vouchers)
  | certificate :: accepted, issuers, vouchers =>
    if issuance.basicConstraints certificate != -1 && !vouchers.contains certificate then
      nextIssuers issuance accepted (issuers ++ [certificate]) (vouchers ++ [certificate])
    else nextIssuers issuance accepted issuers vouchers

/-- The candidates one of `issuers` signed. -/
def acceptedOf (issuance : Issuance) (issuers pending : List Certificate) : List Certificate :=
  pending.filter fun candidate => AppleTrust.signedByAny issuance candidate issuers

/-- `pending.removeAll(taken)`. -/
def removeAll (pending taken : List Certificate) : List Certificate :=
  pending.filter fun c => !taken.contains c

theorem length_removeAll_lt {issuance : Issuance} {issuers pending : List Certificate}
    (some : acceptedOf issuance issuers pending ≠ []) :
    (removeAll pending (acceptedOf issuance issuers pending)).length < pending.length := by
  obtain ⟨c, taken⟩ := List.exists_mem_of_ne_nil _ some
  exact List.length_filter_lt_length_iff_exists.mpr
    ⟨c, (List.mem_filter.mp taken).1, by simp [taken]⟩

/-- The loop of `authenticatedTopDown`. -/
def topDownLoop (issuance : Issuance) (issuers vouchers accepted pending : List Certificate) :
    Traced Round (List Certificate) :=
  if pending.isEmpty then pure accepted
  else
    let acceptedThisRound := acceptedOf issuance issuers pending
    if _h : acceptedThisRound = [] then do
      Traced.emit ⟨issuers, pending⟩
      pure accepted
    else do
      Traced.emit ⟨issuers, pending⟩
      let next := nextIssuers issuance acceptedThisRound [] vouchers
      topDownLoop issuance next.1 next.2 (accepted ++ acceptedThisRound)
        (removeAll pending acceptedThisRound)
termination_by pending.length
decreasing_by exact length_removeAll_lt _h

/-- The embedded certificates a pinned root vouches for, directly or through a CA already
accepted. -/
def authenticatedTopDown (issuance : Issuance) (embedded : List Certificate)
    (trustAnchors : List TrustAnchor) : Traced Round (List Certificate) :=
  topDownLoop issuance (AppleTrust.roots trustAnchors) (AppleTrust.roots trustAnchors) [] embedded

end ReceiptCore

end Java

end ReceiptVerifier
