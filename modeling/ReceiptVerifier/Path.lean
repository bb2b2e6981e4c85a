import ReceiptVerifier.Lib.Rounds
import ReceiptVerifier.Openssl.Path

/-!
# Certificate path policy

`rust/src/path.rs`: which certificates may be tried, at which instant, and what each problem OpenSSL
reports means as a reason. `TrustAnchor` is `rust/src/roots.rs`'s.
-/

namespace ReceiptVerifier

open Openssl

/-- A pinned certificate, and the bytes it was given as. -/
structure TrustAnchor where
  der : Bytes
  certificate : Certificate
deriving DecidableEq, Repr

def untrusted (detail : String) : Failure := ⟨.untrustedChain, detail⟩

def outsideValidity : Failure :=
  ⟨.invalidCertificate, "certificate is outside its validity window at the chain instant"⟩

def unprocessedCriticalExtension : Failure :=
  untrusted "a certificate on the path has an unsupported critical extension"

def anchorCertificates (anchors : List TrustAnchor) : List Certificate :=
  anchors.map TrustAnchor.certificate

variable (ssl : OpenSsl)

/-! ## The top-down walk -/

/-- Whether one of `issuers` issued the candidate. -/
def vouchedBy (issuers : List Certificate) (candidate : Certificate) : Run Bool :=
  Traced.any (fun issuer => candidate.issuedBy ssl issuer) issuers

/-- `issuedBy` as a link from the issuer down. -/
def issues (issuer candidate : Certificate) : Bool := (candidate.issuedBy ssl issuer).value

/-- What one round accepts is what `Rounds` takes, and likewise what it leaves pending. -/
theorem value_partition_vouchedBy (issuers pending : List Certificate) :
    (Traced.partition (vouchedBy ssl issuers) pending).value =
      (Rounds.next (issues ssl) issuers pending, Rounds.rest (issues ssl) issuers pending) := by
  simp [vouchedBy, Rounds.next, Rounds.rest, issues]

/-- The rounds of `authenticatedTopDown`. -/
def topDownRounds (pending issuers accepted : List Certificate) : Run (List Certificate) :=
  if pending.isEmpty then pure accepted
  else
    let round := Traced.partition (vouchedBy ssl issuers) pending
    if _h : round.value.1 = [] then do
      let _ ← round
      pure accepted
    else do
      let _ ← round
      topDownRounds round.value.2 round.value.1 (accepted ++ round.value.1)
termination_by pending.length
decreasing_by
  simp only [round, value_partition_vouchedBy] at _h ⊢
  exact Rounds.length_rest_lt _ _h

/-- The embedded certificates a pinned anchor vouched for, directly or through a certificate
accepted this way, walking down from the anchors. -/
def authenticatedTopDown (embedded : List Certificate) (anchors : List TrustAnchor) :
    Run (List Certificate) :=
  let isAnchor := fun certificate : Certificate =>
    anchors.any fun anchor => anchor.certificate.sameAs certificate
  let accepted := embedded.filter isAnchor
  let pending := embedded.filter fun certificate => !isAnchor certificate
  topDownRounds ssl pending (anchorCertificates anchors ++ accepted) accepted

/-! ## Paths -/

/-- `i64::MAX`. -/
def i64Max : Int := 2 ^ 63 - 1

/-- The second an instant falls in, and that instant rounded up to a second. -/
def seconds (atMillis : Int) : Int × Int :=
  let second := atMillis / 1000
  (second, min (second + if atMillis % 1000 ≠ 0 then 1 else 0) i64Max)

/-- Asks OpenSSL for the path from `target` to one of `anchors`, and adds the millisecond `notAfter`
check. -/
def checkedPath (target : Certificate) (untrusted : List Certificate) (anchors : List TrustAnchor)
    (atMillis : Int) : Run PathOutcome := do
  let (second, roundedUp) := seconds atMillis
  let outcome ← verifyPath ssl target untrusted (anchorCertificates anchors) second
  let belowAnchor :=
    if outcome.anchored then outcome.chain.length - 1 else outcome.chain.length
  let late := ((outcome.chain.take belowAnchor).zipIdx.filter fun (certificate, _) =>
    !ssl.notAfterAtLeast certificate roundedUp).map fun (_, depth) => ⟨depth, .expired⟩
  pure { outcome with problems := outcome.problems ++ late }

/-- A problem that means no path reaches a pinned anchor, or that a link on it is broken. -/
def isStructural : PathProblemKind → Bool
  | .notYetValid | .expired | .unhandledCriticalExtension => false
  | _ => true

def structuralFailure : PathProblemKind → Failure
  | .notCa =>
    untrusted "an intermediate is not a CA, or its path length constraint is exceeded"
  | .tooLong => untrusted "chain exceeds the maximum length"
  | _ => untrusted "chain does not reach a pinned root"

/-- The path of a receipt's signer below the anchor, signer first. -/
def receiptPath (signer : Certificate) (authenticated : List Certificate)
    (anchors : List TrustAnchor) (atMillis : Int) : Run (Except Failure (List Certificate)) := do
  let outcome ← checkedPath ssl signer authenticated anchors atMillis
  match outcome.problems.find? fun p => isStructural p.kind with
  | some problem => pure (.error (structuralFailure problem.kind))
  | none =>
    if !outcome.anchored then pure (.error (untrusted "chain does not reach a pinned root"))
    else if outcome.problems.any fun p => p.kind == .notYetValid || p.kind == .expired then
      pure (.error outsideValidity)
    else if !outcome.problems.isEmpty then pure (.error unprocessedCriticalExtension)
    else pure (.ok outcome.chain.dropLast)

/-- The verdict of `validatePair` on the path OpenSSL found. -/
def pairVerdict (leaf intermediate : Certificate) (outcome : PathOutcome) : Except Failure Unit :=
  let hasAt := fun (depth : Nat) (kinds : List PathProblemKind) =>
    outcome.problems.any fun p => p.depth == depth && kinds.contains p.kind
  let validity := [PathProblemKind.notYetValid, .expired]
  let critical := [PathProblemKind.unhandledCriticalExtension]
  match outcome.problems.find? fun p => isStructural p.kind && p.kind != .notCa with
  | some problem => .error (structuralFailure problem.kind)
  | none =>
    if hasAt 1 validity then .error outsideValidity
    else if hasAt 1 [.notCa] then .error (untrusted "intermediate is not a CA")
    else if hasAt 1 critical then .error unprocessedCriticalExtension
    else if hasAt 0 validity then .error outsideValidity
    else if hasAt 0 critical then .error unprocessedCriticalExtension
    else if !outcome.problems.isEmpty then
      .error (untrusted "certificate chain does not validate to a pinned root")
    else
      match outcome.chain with
      | [pathLeaf, pathIntermediate, _] =>
        if !outcome.anchored || !pathLeaf.sameAs leaf || !pathIntermediate.sameAs intermediate then
          .error (untrusted "path is not leaf, x5c[1], pinned root")
        else .ok ()
      | _ => .error (untrusted "path is not leaf, x5c[1], pinned root")

/-- Validates the fixed JWS path: leaf, intermediate, pinned anchor. -/
def validatePair (leaf intermediate : Certificate) (anchors : List TrustAnchor) (atMillis : Int) :
    Run (Except Failure Unit) := do
  if !(← Traced.any (fun anchor => intermediate.issuedBy ssl anchor.certificate) anchors) then
    pure (.error (untrusted "intermediate is not issued by a pinned root"))
  else if !intermediate.hasUsableKey ssl then
    pure (.error ⟨.invalidCertificate, "x5c entry has a public key this library cannot use"⟩)
  else if !(← leaf.issuedBy ssl intermediate) then
    pure (.error (untrusted "leaf is not issued by the intermediate"))
  else if !leaf.hasUsableKey ssl then
    pure (.error ⟨.invalidCertificate, "x5c entry has a public key this library cannot use"⟩)
  else
    let outcome ← checkedPath ssl leaf [intermediate] anchors atMillis
    pure (pairVerdict leaf intermediate outcome)

end ReceiptVerifier
