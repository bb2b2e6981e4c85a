import ReceiptVerifier.Openssl.Certificate

/-!
# OpenSSL's path validation

`rust/openssl/src/path.rs`: `X509_verify_cert` over a store of the anchors, run once per anchor that
may end the path, through the untrusted certificates that sign the path.
-/

namespace ReceiptVerifier

namespace Openssl

/-- What kind of problem a path has. -/
inductive PathProblemKind where
  | noIssuer
  | badSignature
  | notCa
  | tooLong
  | notYetValid
  | expired
  | unhandledCriticalExtension
  | other (code : Int)
deriving DecidableEq, Repr

/-- One problem, at the depth OpenSSL found it (0 is the target). -/
structure PathProblem where
  depth : Nat
  kind : PathProblemKind
deriving DecidableEq, Repr

/-- What a path validation found. -/
structure PathOutcome where
  /-- The path OpenSSL built, target first. -/
  chain : List Certificate
  /-- Whether the path ends at one of the anchors. -/
  anchored : Bool
  problems : List PathProblem
deriving DecidableEq, Repr

namespace PathOutcome

/-- Whether the path passed: anchored, and not one problem. -/
def passed (outcome : PathOutcome) : Bool := outcome.anchored && outcome.problems.isEmpty

/-- Whether every link of the path holds. Other problems may remain. -/
def linksHold (outcome : PathOutcome) : Bool :=
  outcome.anchored &&
    !outcome.problems.any fun problem => problem.kind == .noIssuer || problem.kind == .badSignature

def failed (kind : PathProblemKind) : PathOutcome := ⟨[], false, [⟨0, kind⟩]⟩

end PathOutcome

/-! ## The verify callback -/

/-- `X509_V_ERR_CERT_NOT_YET_VALID`, `X509_V_ERR_CERT_HAS_EXPIRED`, `X509_V_ERR_INVALID_CA` and
`X509_V_ERR_PATH_LENGTH_EXCEEDED`. -/
def anchorErrors : List Int := [9, 10, 79, 25]

/-- A trust anchor is trusted by fiat: its validity window, CA flag and path length constraint are
not judged. -/
def waived (anchors : List Certificate) (report : Report) : Bool :=
  match report.current with
  | none => false
  | some current =>
    anchorErrors.contains report.error && anchors.any fun anchor => anchor.sameAs current

/-- The kind of an `X509_V_ERR_*` code. -/
def kindOf (code : Int) : PathProblemKind :=
  -- unable to get the issuer (also locally), unable to verify the leaf signature, self-signed at
  -- depth zero or in the chain, untrusted
  if [2, 20, 21, 18, 19, 27].contains code then .noIssuer
  -- signature failure, issuer key not decoded, signature not decrypted
  else if [7, 6, 4].contains code then .badSignature
  else if [79, 25].contains code then .notCa
  else if code = 22 then .tooLong
  -- not yet valid, or an error in the `notBefore` field
  else if [9, 13].contains code then .notYetValid
  -- expired, or an error in the `notAfter` field
  else if [10, 14].contains code then .expired
  else if code = 34 then .unhandledCriticalExtension
  else .other code

/-- The problem the callback records for a report, unless an anchor may have it. -/
def recordProblem (anchors : List Certificate) (report : Report) : Option PathProblem :=
  if waived anchors report then none
  else
    some { depth := if report.depth < 0 then usizeMax else report.depth.toNat,
           kind := kindOf report.error }

/-! ## Runs -/

variable (ssl : OpenSsl)

/-- One `X509_verify_cert` run over a store holding `store` and nothing else. -/
def runWith (target : Certificate) (untrusted anchors store : List Certificate) (atSecs : Int) :
    Run (Option PathOutcome) := do
  Traced.emit (.pathRun target untrusted store)
  match ssl.verifyCert target untrusted store atSecs with
  | none => pure none
  | some run =>
    let problems := run.reports.filterMap (recordProblem anchors)
    pure (some
      { chain := run.chain
        anchored := run.chain.getLast?.any fun top => anchors.any fun anchor => top.sameAs anchor
        problems :=
          if !run.verified && problems.isEmpty then [⟨0, .other (-1)⟩] else problems })

/-- The certificates of `untrusted` not linked yet. -/
def unlinked (untrusted linked : List Certificate) : List Certificate :=
  untrusted.filter fun candidate => !linked.any fun seen => seen.sameAs candidate

/-- Whether the candidate signed a certificate of the frontier other than itself. -/
def signedOneOf (frontier : List Certificate) (candidate : Certificate) : Run Bool :=
  Traced.any (fun below => if below.sameAs candidate then pure false
    else below.signedBy ssl candidate) frontier

theorem length_unlinked_lt {untrusted linked next : List Certificate}
    (sub : ∀ c ∈ next, c ∈ unlinked untrusted linked) (some : next ≠ []) :
    (unlinked untrusted (linked ++ next)).length < (unlinked untrusted linked).length := by
  have same : unlinked untrusted (linked ++ next) =
      (unlinked untrusted linked).filter fun c => !next.any fun seen => seen.sameAs c := by
    simp [unlinked, List.filter_filter, Bool.and_comm]
  obtain ⟨c, hc⟩ := List.exists_mem_of_ne_nil next some
  rw [same]
  refine List.length_filter_lt_length_iff_exists.mpr ⟨c, sub c hc, ?_⟩
  simp [hc, Certificate.sameAs]

/-- The rounds of `linkedAbove`. -/
def linkedRounds (untrusted linked frontier : List Certificate) : Run (List Certificate) :=
  let round := Traced.filter (signedOneOf ssl frontier) (unlinked untrusted linked)
  if _h : round.value = [] then do
    let _ ← round
    pure linked
  else do
    let _ ← round
    linkedRounds untrusted (linked ++ round.value) round.value
termination_by (unlinked untrusted linked).length
decreasing_by
  refine length_unlinked_lt (fun c hc => ?_) _h
  rw [Traced.value_filter] at hc
  exact (List.mem_filter.mp hc).1

/-- The certificates of `untrusted` that signed the target, or signed a certificate already linked
this way, in their order in `untrusted`. -/
def linkedAbove (target : Certificate) (untrusted : List Certificate) :
    Run (List Certificate) := do
  let linked ← linkedRounds ssl untrusted [] [target]
  pure (untrusted.filter fun candidate => linked.any fun seen => seen.sameAs candidate)

/-- Whether OpenSSL's issuer lookup would pair `issuer` with `certificate`. -/
def mayHaveIssued (issuer certificate : Certificate) : Bool := ssl.checkIssued issuer certificate

/-- The runs over the candidate anchors, until one passes. -/
def runCandidates (target : Certificate) (untrusted anchors : List Certificate) (atSecs : Int) :
    List Certificate → Option PathOutcome → Option PathOutcome → Run (Option PathOutcome)
  | [], firstLinked, first => pure (firstLinked.or first)
  | anchor :: candidates, firstLinked, first => do
    match ← runWith ssl target untrusted anchors [anchor] atSecs with
    | none => pure none
    | some outcome =>
      if outcome.passed then pure (some outcome)
      else if firstLinked.isNone && outcome.linksHold then
        runCandidates target untrusted anchors atSecs candidates (some outcome) first
      else if first.isNone then
        runCandidates target untrusted anchors atSecs candidates firstLinked (some outcome)
      else runCandidates target untrusted anchors atSecs candidates firstLinked first

/-- Runs the validation once per anchor that may have issued the target or a linked certificate. -/
def run (target : Certificate) (untrusted anchors : List Certificate) (atSecs : Int) :
    Run (Option PathOutcome) := do
  let untrusted ← linkedAbove ssl target untrusted
  let candidates := anchors.filter fun anchor => (target :: untrusted).any fun certificate =>
    mayHaveIssued ssl anchor certificate || anchor.sameAs certificate
  if candidates.isEmpty then runWith ssl target untrusted anchors anchors atSecs
  else runCandidates ssl target untrusted anchors atSecs candidates none none

/-- Builds and validates a path from `target` through `untrusted` to one of `anchors`. -/
def verifyPath (target : Certificate) (untrusted anchors : List Certificate) (atSecs : Int) :
    Run PathOutcome := do
  let outcome ← run ssl target untrusted anchors atSecs
  pure (outcome.getD (.failed (.other (-1))))

end Openssl

end ReceiptVerifier
