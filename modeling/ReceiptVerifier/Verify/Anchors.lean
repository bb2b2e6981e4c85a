import ReceiptVerifier.Openssl.Lookup
import ReceiptVerifier.Verify.Content

/-!
# The order of the anchors

`run` tries the candidate anchors one by one and commits to the first whose run passes at the whole
second. What is judged afterwards (the millisecond `notAfter` check, and for a JWS that the path is
leaf, intermediate, anchor) is judged of that one path. So the order of the anchors is immaterial
exactly when the candidates that pass are alike in what is judged afterwards.
-/

namespace ReceiptVerifier

open Openssl

variable {ssl : OpenSsl} {target : Certificate} {untrusted : List Certificate}

/-! ## Runs -/

/-- The certificates offered to OpenSSL: those that sign the path. -/
def offered (ssl : OpenSsl) (target : Certificate) (untrusted : List Certificate) :
    List Certificate :=
  (linkedAbove ssl target untrusted).value

/-- Whether `run` tries the anchor on its own. -/
def isCandidate (ssl : OpenSsl) (target : Certificate) (untrusted : List Certificate)
    (anchor : Certificate) : Bool :=
  (target :: offered ssl target untrusted).any fun certificate =>
    mayHaveIssued ssl anchor certificate || anchor.sameAs certificate

/-- The candidates among the anchors. -/
def candidates (ssl : OpenSsl) (target : Certificate) (untrusted anchors : List Certificate) :
    List Certificate :=
  anchors.filter (isCandidate ssl target untrusted)

/-- The stores `run` tries, in order. -/
def triedStores (ssl : OpenSsl) (target : Certificate) (untrusted anchors : List Certificate) :
    List (List Certificate) :=
  if (candidates ssl target untrusted anchors).isEmpty then [anchors]
  else (candidates ssl target untrusted anchors).map fun anchor => [anchor]

/-- What the run over a store finds. -/
def outcomeOver (ssl : OpenSsl) (target : Certificate) (untrusted anchors : List Certificate)
    (second : Int) (store : List Certificate) : PathOutcome :=
  (runWith ssl target (offered ssl target untrusted) anchors store second).value.getD
    (.failed (.other (-1)))

/-- Every run gives an outcome. -/
def RunsAnswer (ssl : OpenSsl) (target : Certificate) (untrusted : List Certificate)
    (second : Int) : Prop :=
  ∀ store, (ssl.verifyCert target (offered ssl target untrusted) store second).isSome = true

section

variable {anchors : List Certificate} {second : Int}

theorem value_runWith (answers : RunsAnswer ssl target untrusted second)
    (store : List Certificate) :
    (runWith ssl target (offered ssl target untrusted) anchors store second).value =
      some (outcomeOver ssl target untrusted anchors second store) := by
  obtain ⟨run, ran⟩ := Option.isSome_iff_exists.mp (answers store)
  simp [outcomeOver, runWith, ran]

theorem value_runCandidates (answers : RunsAnswer ssl target untrusted second)
    (anchorsLeft : List Certificate) {firstLinked first : Option PathOutcome}
    (notLinked : ∀ outcome, firstLinked = some outcome → outcome.passed = false)
    (notFirst : ∀ outcome, first = some outcome → outcome.passed = false) :
    (runCandidates ssl target (offered ssl target untrusted) anchors second anchorsLeft
      firstLinked first).value.filter PathOutcome.passed =
      (anchorsLeft.map fun anchor =>
        outcomeOver ssl target untrusted anchors second [anchor]).find? PathOutcome.passed := by
  induction anchorsLeft generalizing firstLinked first with
  | nil =>
    simp only [runCandidates, Traced.value_pure, List.map_nil, List.find?_nil]
    cases firstLinked with
    | some outcome => simp [Option.filter, notLinked outcome rfl]
    | none =>
      cases first with
      | none => rfl
      | some outcome => simp [Option.filter, notFirst outcome rfl]
  | cons anchor left ih =>
    simp only [runCandidates, Traced.value_bind, value_runWith answers, List.map_cons]
    cases passed : (outcomeOver ssl target untrusted anchors second [anchor]).passed with
    | true => simp [Option.filter, passed]
    | false =>
      rw [if_neg Bool.false_ne_true, List.find?_cons_of_neg (by simp [passed])]
      have failed : ∀ outcome, some (outcomeOver ssl target untrusted anchors second [anchor]) =
          some outcome → outcome.passed = false := by
        rintro outcome ⟨⟩
        exact passed
      -- whichever of the two memories takes this outcome, it holds no passing one
      split
      · exact ih failed notFirst
      · split
        · exact ih notLinked failed
        · exact ih notLinked notFirst

theorem value_run :
    (run ssl target untrusted anchors second).value =
      if (candidates ssl target untrusted anchors).isEmpty then
        (runWith ssl target (offered ssl target untrusted) anchors anchors second).value
      else
        (runCandidates ssl target (offered ssl target untrusted) anchors second
          (candidates ssl target untrusted anchors) none none).value := by
  rw [← apply_ite Traced.value]
  rfl

/-- A path passes iff the run over a tried store does, and it is the first such run's. -/
theorem filter_verifyPath (answers : RunsAnswer ssl target untrusted second) :
    (some (verifyPath ssl target untrusted anchors second).value).filter PathOutcome.passed =
      ((triedStores ssl target untrusted anchors).map
        (outcomeOver ssl target untrusted anchors second)).find? PathOutcome.passed := by
  have answered : (some (verifyPath ssl target untrusted anchors second).value).filter
      PathOutcome.passed =
        (run ssl target untrusted anchors second).value.filter PathOutcome.passed := by
    simp only [verifyPath, Traced.value_bind, Traced.value_pure]
    cases (run ssl target untrusted anchors second).value <;> rfl
  rw [answered, value_run, triedStores]
  split
  · rw [value_runWith answers, List.map_singleton, List.find?_singleton, Option.filter]
  · rw [List.map_map]
    exact value_runCandidates answers _ (by simp) (by simp)

end

/-! ## What is judged afterwards -/

/-- No certificate below the anchor ends before the instant. -/
def onTime (ssl : OpenSsl) (atMillis : Int) (outcome : PathOutcome) : Bool :=
  outcome.chain.dropLast.all fun c => ssl.notAfterAtLeast c (seconds atMillis).2

/-- The path is leaf, intermediate, anchor. -/
def isPair (leaf intermediate : Certificate) : List Certificate → Bool
  | [pathLeaf, pathIntermediate, _] => pathLeaf.sameAs leaf && pathIntermediate.sameAs intermediate
  | _ => false

section

variable {anchors : List TrustAnchor} {atMillis : Int}

/-- A path is answered, with whatever is asked of it, iff the first passing run's path is on time
and has it. -/
theorem checkedPath_accepts (answers : RunsAnswer ssl target untrusted (seconds atMillis).1)
    (judged : List Certificate → Bool) :
    ((checkedPath ssl target untrusted anchors atMillis).value.passed = true ∧
        judged (checkedPath ssl target untrusted anchors atMillis).value.chain = true) ↔
      Choice.accepts PathOutcome.passed
        (fun outcome => onTime ssl atMillis outcome && judged outcome.chain)
        ((triedStores ssl target untrusted (anchorCertificates anchors)).map
          (outcomeOver ssl target untrusted (anchorCertificates anchors)
            (seconds atMillis).1)) = true := by
  rw [passed_checkedPath_iff, chain_checkedPath, Choice.accepts, ← filter_verifyPath answers]
  generalize (verifyPath ssl target untrusted (anchorCertificates anchors)
    (seconds atMillis).1).value = outcome
  cases passed : outcome.passed with
  | false => simp [Option.filter, passed]
  | true => simp [Option.filter, passed, onTime]

theorem pairVerdict_ok_iff {leaf intermediate : Certificate} {outcome : PathOutcome} :
    pairVerdict leaf intermediate outcome = .ok () ↔
      outcome.passed = true ∧ isPair leaf intermediate outcome.chain = true := by
  unfold pairVerdict PathOutcome.passed
  cases problems : outcome.problems with
  | nil =>
    simp only [List.find?_nil, List.any_nil, Bool.false_eq_true, ↓reduceIte, List.isEmpty_nil,
      Bool.not_true, Bool.and_true]
    match outcome.chain with
    | [] | [_] | [_, _] | _ :: _ :: _ :: _ :: _ => simp [isPair]
    | [_, _, _] => cases outcome.anchored <;> simp [isPair]
  | cons problem rest =>
    simp only [List.isEmpty_cons, Bool.and_false, Bool.false_eq_true, false_and, iff_false,
      Bool.not_false, ↓reduceIte]
    intro answered
    repeat' split at answered
    all_goals cases answered

/-- What `validatePair` asks before it asks OpenSSL for the path. -/
structure PairVouched (ssl : OpenSsl) (leaf intermediate : Certificate)
    (anchors : List TrustAnchor) : Prop where
  anchored : ∃ anchor ∈ anchors, issues ssl anchor.certificate intermediate = true
  intermediateKey : intermediate.hasUsableKey ssl = true
  issued : issues ssl intermediate leaf = true
  leafKey : leaf.hasUsableKey ssl = true

theorem validatePair_ok_iff {leaf intermediate : Certificate} :
    (validatePair ssl leaf intermediate anchors atMillis).value = .ok () ↔
      PairVouched ssl leaf intermediate anchors ∧
        (checkedPath ssl leaf [intermediate] anchors atMillis).value.passed = true ∧
        isPair leaf intermediate
          (checkedPath ssl leaf [intermediate] anchors atMillis).value.chain = true := by
  have vouched : PairVouched ssl leaf intermediate anchors ↔
      (anchors.any fun anchor => issues ssl anchor.certificate intermediate) = true ∧
        intermediate.hasUsableKey ssl = true ∧ issues ssl intermediate leaf = true ∧
        leaf.hasUsableKey ssl = true := by
    rw [List.any_eq_true]
    exact ⟨fun h => ⟨h.anchored, h.intermediateKey, h.issued, h.leafKey⟩,
      fun ⟨a, b, c, d⟩ => ⟨a, b, c, d⟩⟩
  rw [vouched, ← pairVerdict_ok_iff]
  unfold validatePair
  simp only [Traced.value_bind, Traced.value_any]
  change (ite ((!anchors.any fun anchor => issues ssl anchor.certificate intermediate) = true) _
    _ : Run (Except Failure Unit)).value = .ok () ↔ _
  cases anchors.any fun anchor => issues ssl anchor.certificate intermediate with
  | false => simp
  | true =>
    cases intermediate.hasUsableKey ssl with
    | false => simp
    | true =>
      simp only [Bool.not_true, Bool.false_eq_true, ↓reduceIte, Traced.value_bind, true_and]
      change (ite ((!issues ssl intermediate leaf) = true) _ _ : Run (Except Failure Unit)).value =
        .ok () ↔ _
      cases issues ssl intermediate leaf with
      | false => simp
      | true => cases leaf.hasUsableKey ssl <;> simp

end

/-! ## Anchor lists -/

/-- The same anchors, in whatever order and however often. -/
def SameAnchors (anchors' anchors : List TrustAnchor) : Prop := ∀ a, a ∈ anchors' ↔ a ∈ anchors

/-- What the runs of the candidate anchors find. -/
def candidateRuns (ssl : OpenSsl) (target : Certificate) (untrusted : List Certificate)
    (second : Int) (anchors : List TrustAnchor) : List PathOutcome :=
  (candidates ssl target untrusted (anchorCertificates anchors)).map fun anchor =>
    outcomeOver ssl target untrusted (anchorCertificates anchors) second [anchor]

/-- What is supposed of OpenSSL: each run gives an outcome, and the run over every anchor, made when
none is a candidate, does not pass. -/
structure RunsSound (ssl : OpenSsl) (target : Certificate) (untrusted : List Certificate)
    (second : Int) : Prop where
  answers : RunsAnswer ssl target untrusted second
  noCandidate : ∀ anchors, candidates ssl target untrusted anchors = [] →
    (outcomeOver ssl target untrusted anchors second anchors).passed = false

section

variable {anchors wider : List TrustAnchor} {second : Int}

theorem any_mono {α : Type} {l l' : List α} {p : α → Bool} (sub : l ⊆ l') (h : l.any p = true) :
    l'.any p = true := by
  obtain ⟨a, mem, holds⟩ := List.any_eq_true.mp h
  exact List.any_eq_true.mpr ⟨a, sub mem, holds⟩

theorem anchorCertificates_mono (sub : anchors ⊆ wider) :
    anchorCertificates anchors ⊆ anchorCertificates wider :=
  List.map_subset _ sub

theorem waived_mono {certificates more : List Certificate} {report : Report}
    (sub : certificates ⊆ more) (h : waived certificates report = true) :
    waived more report = true := by
  unfold waived at h ⊢
  cases current : report.current with
  | none => simp [current] at h
  | some c =>
    simp only [current, Bool.and_eq_true] at h ⊢
    exact ⟨h.1, any_mono sub h.2⟩

/-- More anchors waive more and end more paths: a run that passes still does, on the same path. -/
theorem outcomeOver_mono (sub : anchors ⊆ wider) {store : List Certificate}
    (passed : (outcomeOver ssl target untrusted (anchorCertificates anchors) second
      store).passed = true) :
    (outcomeOver ssl target untrusted (anchorCertificates wider) second store).passed = true ∧
      (outcomeOver ssl target untrusted (anchorCertificates wider) second store).chain =
        (outcomeOver ssl target untrusted (anchorCertificates anchors) second store).chain := by
  have subset := anchorCertificates_mono sub
  unfold outcomeOver runWith at passed ⊢
  simp only [Traced.value_bind] at passed ⊢
  cases ran : ssl.verifyCert target (offered ssl target untrusted) store second with
  | none => simp [ran, PathOutcome.failed, PathOutcome.passed] at passed
  | some run =>
    simp only [ran, Traced.value_pure, Option.getD_some, PathOutcome.passed, Bool.and_eq_true,
      List.isEmpty_iff] at passed ⊢
    obtain ⟨anchored, problems⟩ := passed
    have verified : run.verified = true ∧
        run.reports.filterMap (recordProblem (anchorCertificates anchors)) = [] := by
      cases verified : run.verified with
      | true => simpa [verified] using problems
      | false =>
        simp only [verified, Bool.not_false] at problems
        split at problems
        · cases problems
        · next unempty => exact absurd ⟨trivial, problems⟩ unempty
    have noProblems : run.reports.filterMap (recordProblem (anchorCertificates wider)) = [] := by
      rw [List.filterMap_eq_nil_iff]
      intro report mem
      have waivedHere := List.filterMap_eq_nil_iff.mp verified.2 report mem
      unfold recordProblem at waivedHere ⊢
      split at waivedHere
      · next waived => rw [if_pos (waived_mono subset waived)]
      · cases waivedHere
    refine ⟨⟨?_, by simp [verified.1, noProblems]⟩, trivial⟩
    cases top : run.chain.getLast? with
    | none => simp [top] at anchored
    | some top' =>
      rw [top] at anchored
      exact any_mono subset anchored

end

section

variable {anchors anchors' wider : List TrustAnchor} {second : Int}

theorem SameAnchors.subset (same : SameAnchors anchors' anchors) : anchors' ⊆ anchors :=
  fun a => (same a).mp

theorem SameAnchors.symm (same : SameAnchors anchors' anchors) : SameAnchors anchors anchors' :=
  fun a => (same a).symm

theorem sameAnchors_cons {a : TrustAnchor} (mem : a ∈ anchors) :
    SameAnchors (a :: anchors) anchors := by
  intro b
  rw [List.mem_cons]
  refine or_iff_right_of_imp ?_
  rintro rfl
  exact mem

theorem mem_anchorCertificates {c : Certificate} :
    c ∈ anchorCertificates anchors ↔ ∃ a ∈ anchors, a.certificate = c :=
  List.mem_map

/-- A run asks of the anchors only which there are. -/
theorem outcomeOver_congr (same : SameAnchors anchors' anchors) (store : List Certificate) :
    outcomeOver ssl target untrusted (anchorCertificates anchors') second store =
      outcomeOver ssl target untrusted (anchorCertificates anchors) second store := by
  have any : ∀ p : Certificate → Bool,
      (anchorCertificates anchors').any p = (anchorCertificates anchors).any p := by
    intro p
    rw [Bool.eq_iff_iff]
    exact ⟨any_mono (anchorCertificates_mono same.subset),
      any_mono (anchorCertificates_mono same.symm.subset)⟩
  have record : recordProblem (anchorCertificates anchors') =
      recordProblem (anchorCertificates anchors) := by
    funext report
    unfold recordProblem waived
    simp only [any]
  unfold outcomeOver runWith
  simp only [any, record]

theorem mem_candidateRuns {run : PathOutcome} :
    run ∈ candidateRuns ssl target untrusted second anchors ↔
      ∃ a ∈ anchors, isCandidate ssl target untrusted a.certificate = true ∧
        outcomeOver ssl target untrusted (anchorCertificates anchors) second [a.certificate] =
          run := by
  unfold candidateRuns candidates
  simp only [List.mem_map, List.mem_filter, mem_anchorCertificates]
  constructor
  · rintro ⟨c, ⟨⟨a, mem, rfl⟩, candidate⟩, rfl⟩
    exact ⟨a, mem, candidate, rfl⟩
  · rintro ⟨a, mem, candidate, rfl⟩
    exact ⟨a.certificate, ⟨⟨a, mem, rfl⟩, candidate⟩, rfl⟩

theorem mem_candidateRuns_congr (same : SameAnchors anchors' anchors) (run : PathOutcome) :
    run ∈ candidateRuns ssl target untrusted second anchors' ↔
      run ∈ candidateRuns ssl target untrusted second anchors := by
  simp only [mem_candidateRuns, outcomeOver_congr same, same _]

/-- A candidate put in front is tried first. -/
theorem candidateRuns_cons {a : TrustAnchor} (mem : a ∈ anchors)
    (candidate : isCandidate ssl target untrusted a.certificate = true) :
    candidateRuns ssl target untrusted second (a :: anchors) =
      outcomeOver ssl target untrusted (anchorCertificates anchors) second [a.certificate] ::
        candidateRuns ssl target untrusted second anchors := by
  have first : candidates ssl target untrusted (anchorCertificates (a :: anchors)) =
      a.certificate :: candidates ssl target untrusted (anchorCertificates anchors) :=
    List.filter_cons_of_pos candidate
  unfold candidateRuns
  simp only [outcomeOver_congr (sameAnchors_cons mem), first, List.map_cons]

end

/-! ## The order of the anchors -/

section

variable {anchors wider : List TrustAnchor} {atMillis : Int} (judged : List Certificate → Bool)

/-- What is judged of a run that passed at the second. -/
def goodRun (ssl : OpenSsl) (atMillis : Int) (judged : List Certificate → Bool)
    (run : PathOutcome) : Bool :=
  onTime ssl atMillis run && judged run.chain

/-- Some candidate's run passes, and is good. -/
def SomeRunGood (ssl : OpenSsl) (target : Certificate) (untrusted : List Certificate)
    (atMillis : Int) (judged : List Certificate → Bool) (anchors : List TrustAnchor) : Prop :=
  ∃ run ∈ candidateRuns ssl target untrusted (seconds atMillis).1 anchors,
    run.passed = true ∧ goodRun ssl atMillis judged run = true

/-- The candidates' runs that pass are all good, or none of them is. -/
def RunsAlike (ssl : OpenSsl) (target : Certificate) (untrusted : List Certificate)
    (atMillis : Int) (judged : List Certificate → Bool) (anchors : List TrustAnchor) : Prop :=
  Choice.Alike PathOutcome.passed (goodRun ssl atMillis judged)
    (candidateRuns ssl target untrusted (seconds atMillis).1 anchors)

/-- The path is found, passes, is on time and has what is asked of it. -/
def PathAccepted (ssl : OpenSsl) (target : Certificate) (untrusted : List Certificate)
    (atMillis : Int) (judged : List Certificate → Bool) (anchors : List TrustAnchor) : Prop :=
  (checkedPath ssl target untrusted anchors atMillis).value.passed = true ∧
    judged (checkedPath ssl target untrusted anchors atMillis).value.chain = true

variable {judged}

theorem pathAccepted_iff (sound : RunsSound ssl target untrusted (seconds atMillis).1) :
    PathAccepted ssl target untrusted atMillis judged anchors ↔
      Choice.accepts PathOutcome.passed (goodRun ssl atMillis judged)
        (candidateRuns ssl target untrusted (seconds atMillis).1 anchors) = true := by
  rw [PathAccepted, checkedPath_accepts sound.answers, triedStores]
  split
  · next none =>
    have none := List.isEmpty_iff.mp none
    rw [candidateRuns, none, List.map_nil, List.map_singleton, Choice.accepts,
      List.find?_singleton, sound.noCandidate _ none]
    simp [Choice.accepts]
  · rw [List.map_map]
    rfl

/-- The order decides nothing exactly when the runs that pass are alike. -/
theorem pathAccepted_orderFree_iff
    (sound : RunsSound ssl target untrusted (seconds atMillis).1) :
    (∀ anchors', SameAnchors anchors' anchors →
      (PathAccepted ssl target untrusted atMillis judged anchors' ↔
        SomeRunGood ssl target untrusted atMillis judged anchors)) ↔
      RunsAlike ssl target untrusted atMillis judged anchors := by
  simp only [pathAccepted_iff sound]
  constructor
  · intro free
    refine Choice.alike_of_first_free fun run mem => ?_
    obtain ⟨a, pinned, candidate, rfl⟩ := mem_candidateRuns.mp mem
    have first := free (a :: anchors) (sameAnchors_cons pinned)
    rwa [candidateRuns_cons pinned candidate] at first
  · intro alike anchors' same
    have alike' := alike.congr (mem_candidateRuns_congr same)
    rw [alike'.accepts_iff]
    simp only [mem_candidateRuns_congr same]
    rfl

theorem SomeRunGood.mono (sub : anchors ⊆ wider)
    (h : SomeRunGood ssl target untrusted atMillis judged anchors) :
    SomeRunGood ssl target untrusted atMillis judged wider := by
  obtain ⟨run, mem, passed, good⟩ := h
  obtain ⟨a, pinned, candidate, rfl⟩ := mem_candidateRuns.mp mem
  obtain ⟨passed', sameChain⟩ := outcomeOver_mono sub passed
  refine ⟨_, mem_candidateRuns.mpr ⟨a, sub pinned, candidate, rfl⟩, passed', ?_⟩
  unfold goodRun onTime at good ⊢
  rwa [sameChain]

/-- Further anchors keep what was accepted, when the runs that pass are alike. -/
theorem PathAccepted.mono (sound : RunsSound ssl target untrusted (seconds atMillis).1)
    (sub : anchors ⊆ wider) (alike : RunsAlike ssl target untrusted atMillis judged wider)
    (h : PathAccepted ssl target untrusted atMillis judged anchors) :
    PathAccepted ssl target untrusted atMillis judged wider := by
  have good := Choice.exists_of_accepts ((pathAccepted_iff sound).mp h)
  exact (pathAccepted_iff sound).mpr (alike.accepts_iff.mpr (SomeRunGood.mono sub good))

theorem receiptPath_accepts_iff {signer : Certificate} {authenticated : List Certificate} :
    (∃ path, (receiptPath ssl signer authenticated anchors atMillis).value = .ok path) ↔
      PathAccepted ssl signer authenticated atMillis (fun _ => true) anchors := by
  simp only [receiptPath_ok_iff, PathAccepted, and_true]
  exact ⟨fun ⟨_, passed, _⟩ => passed, fun passed => ⟨_, passed, rfl⟩⟩

theorem PairVouched.congr {leaf intermediate : Certificate} {anchors' : List TrustAnchor}
    (same : SameAnchors anchors' anchors) :
    PairVouched ssl leaf intermediate anchors' ↔ PairVouched ssl leaf intermediate anchors := by
  constructor
  · rintro ⟨⟨a, pinned, link⟩, b, c, d⟩
    exact ⟨⟨a, (same a).mp pinned, link⟩, b, c, d⟩
  · rintro ⟨⟨a, pinned, link⟩, b, c, d⟩
    exact ⟨⟨a, (same a).mpr pinned, link⟩, b, c, d⟩

end

/-- **When the order of the anchors decides.** For a receipt and for a JWS: whatever the order of
the anchors and however often each is given, acceptance is that some candidate's run passes and is
good, exactly when the candidates' runs that pass are all good or none of them is. Further anchors
keep what was accepted as long as theirs are too. -/
theorem anchor_order_free_iff (ssl : OpenSsl) (signer leaf intermediate : Certificate)
    (authenticated : List Certificate) (anchors : List TrustAnchor) (atMillis : Int)
    (sound : RunsSound ssl signer authenticated (seconds atMillis).1)
    (soundPair : RunsSound ssl leaf [intermediate] (seconds atMillis).1) :
    ((∀ anchors', SameAnchors anchors' anchors →
        ((∃ path, (receiptPath ssl signer authenticated anchors' atMillis).value = .ok path) ↔
          SomeRunGood ssl signer authenticated atMillis (fun _ => true) anchors)) ↔
      RunsAlike ssl signer authenticated atMillis (fun _ => true) anchors) ∧
    (∀ wider, anchors ⊆ wider → RunsAlike ssl signer authenticated atMillis (fun _ => true) wider →
      (∃ path, (receiptPath ssl signer authenticated anchors atMillis).value = .ok path) →
      ∃ path, (receiptPath ssl signer authenticated wider atMillis).value = .ok path) ∧
    ((∀ anchors', SameAnchors anchors' anchors →
        ((validatePair ssl leaf intermediate anchors' atMillis).value = .ok () ↔
          PairVouched ssl leaf intermediate anchors ∧
            SomeRunGood ssl leaf [intermediate] atMillis (isPair leaf intermediate) anchors)) ↔
      (PairVouched ssl leaf intermediate anchors →
        RunsAlike ssl leaf [intermediate] atMillis (isPair leaf intermediate) anchors)) ∧
    ∀ wider, anchors ⊆ wider →
      RunsAlike ssl leaf [intermediate] atMillis (isPair leaf intermediate) wider →
      (validatePair ssl leaf intermediate anchors atMillis).value = .ok () →
      (validatePair ssl leaf intermediate wider atMillis).value = .ok () := by
  simp only [receiptPath_accepts_iff, validatePair_ok_iff]
  refine ⟨pathAccepted_orderFree_iff sound, fun wider sub alike =>
    PathAccepted.mono sound sub alike,
    ?_, ?_⟩
  · rw [← pathAccepted_orderFree_iff soundPair]
    constructor
    · intro free vouched anchors' same
      have this := free anchors' same
      rw [PairVouched.congr same] at this
      exact and_congr_right_iff.mp this vouched
    · intro free anchors' same
      rw [PairVouched.congr same]
      exact and_congr_right fun vouched => free vouched anchors' same
  · rintro wider sub alike ⟨⟨⟨a, pinned, link⟩, intermediateKey, issued, leafKey⟩, accepted⟩
    exact ⟨⟨⟨a, sub pinned, link⟩, intermediateKey, issued, leafKey⟩,
      PathAccepted.mono soundPair sub alike accepted⟩

/-! ## Two roots and a cross certificate -/

/-- No anchor was issued by another certificate that is pinned or in the bag. -/
def RootsOnly (ssl : OpenSsl) (anchors : List TrustAnchor) (bag : List Certificate) : Prop :=
  ∀ a ∈ anchors, ∀ c ∈ anchorCertificates anchors ++ bag, c ≠ a.certificate →
    issues ssl c a.certificate = false

/-- With a lookup that pairs as `X509_check_issued` does, a path that ends at an anchor has a
candidate. -/
theorem runsSound_of_looksUp {lookup : Lookup} {second : Int} (looks : ssl.LooksUp lookup)
    (checked : ∀ issuer c, lookup.pairs issuer c = true → ssl.checkIssued issuer c = true) :
    RunsSound ssl target untrusted second where
  answers store := by rw [looks]; rfl
  noCandidate anchors none := by
    rw [Bool.eq_false_iff]
    intro passed
    unfold outcomeOver runWith at passed
    simp only [Traced.value_bind, looks target _ anchors second, Traced.value_pure,
      Option.getD_some, PathOutcome.passed, Bool.and_eq_true] at passed
    cases last : (lookup.verifyCert second target (offered ssl target untrusted)
        anchors).chain.getLast? with
    | none => simp [last] at passed
    | some top =>
      obtain ⟨anchor, pinned, same⟩ : ∃ anchor ∈ anchors, top.sameAs anchor = true := by
        simpa [last] using passed.1
      obtain rfl : top = anchor := by simpa [Certificate.sameAs] using same
      have inside : ∀ c ∈ target :: (offered ssl target untrusted).filter
          (fun c => !c.sameAs target), c ∈ target :: offered ssl target untrusted := by
        intro c hc
        exact List.mem_cons.mpr ((List.mem_cons.mp hc).imp_right fun h => (List.mem_filter.mp h).1)
      have candidate : isCandidate ssl target untrusted top = true := by
        rw [isCandidate, List.any_eq_true]
        rcases Lookup.climb_top last with mem | ⟨c, mem, pairs⟩
        · exact ⟨top, inside top mem, by simp [Certificate.sameAs]⟩
        · exact ⟨c, inside c mem, by simp [mayHaveIssued, checked top c pairs]⟩
      have : top ∈ candidates ssl target untrusted anchors :=
        List.mem_filter.mpr ⟨pinned, candidate⟩
      rw [none] at this
      cases this

namespace Sample

/-- A second root. -/
def otherRoot : Certificate := ⟨[5]⟩

/-- A certificate for the root's name and key that the second root issued; it ends at second 0. The
root's own authority key identifier is not the one of this certificate. -/
def cross : Certificate := ⟨[6]⟩

/-- The lookup over these certificates: a path passes that ends in the store and is valid. -/
def crossLookup : Lookup where
  pairs issuer c :=
    [(root, root), (root, wwdr), (wwdr, leaf), (cross, wwdr), (otherRoot, cross),
      (otherRoot, otherRoot)].contains (issuer, c)
  validAt c second := c != cross || second ≤ 0
  notAfter c := if c = cross then 0 else 100
  selfSigned c := c == root || c == otherRoot
  judge store chain second :=
    match chain.getLast? with
    | none => (false, [])
    | some top =>
      if !store.contains top then (false, [⟨20, chain.length - 1, some top⟩])
      else if chain.all fun c => c != cross || second ≤ 0 then (true, [])
      else (false, [⟨10, 0, some cross⟩])

/-- OpenSSL over these certificates. The root and the cross certificate share a name and a key. -/
def crossed : OpenSsl :=
  { openSsl with
    publicKey := fun c => some (if c = cross then ⟨root.der⟩ else ⟨c.der⟩)
    checkIssued := crossLookup.pairs
    subjectIsIssuerOf := fun issuer c =>
      crossLookup.pairs issuer c || (issuer == cross && c == root)
    verify := fun c key =>
      if c = leaf then key == ⟨wwdr.der⟩
      else if c = wwdr || c = root then key == ⟨root.der⟩
      else key == ⟨otherRoot.der⟩
    notAfterAtLeast := fun c second => second ≤ crossLookup.notAfter c
    verifyCert := fun target untrusted store second =>
      some (crossLookup.verifyCert second target untrusted store) }

def firstRoot : TrustAnchor := ⟨[1], root⟩

def secondRoot : TrustAnchor := ⟨[5], otherRoot⟩

def crossedBag : List Certificate := [leaf, wwdr, cross]

theorem crossed_sound (target : Certificate) (untrusted : List Certificate) (second : Int) :
    RunsSound crossed target untrusted second :=
  @runsSound_of_looksUp crossed target untrusted crossLookup second (fun _ _ _ _ => rfl)
    fun _ _ h => h

end Sample

/-- The order of two roots decides: half a second after the cross certificate's last second, the
path through it is the first to pass at the second, and is late. -/
theorem anchor_order_decides :
    RootsOnly Sample.crossed [Sample.firstRoot, Sample.secondRoot] Sample.crossedBag ∧
    RunsSound Sample.crossed Sample.leaf Sample.crossedBag (seconds 500).1 ∧
    SomeRunGood Sample.crossed Sample.leaf Sample.crossedBag 500 (fun _ => true)
      [Sample.secondRoot, Sample.firstRoot] ∧
    (receiptPath Sample.crossed Sample.leaf Sample.crossedBag
      [Sample.secondRoot, Sample.firstRoot] 500).value = .error outsideValidity ∧
    (receiptPath Sample.crossed Sample.leaf Sample.crossedBag
      [Sample.firstRoot, Sample.secondRoot] 500).value = .ok [Sample.leaf, Sample.wwdr] := by
  refine ⟨by unfold RootsOnly; decide +kernel, Sample.crossed_sound _ _ _, ?_, by decide +kernel,
    by decide +kernel⟩
  exact ⟨⟨[Sample.leaf, Sample.wwdr, Sample.root], true, []⟩, by decide +kernel, by decide +kernel,
    by decide +kernel⟩

/-- With the first root alone, the same receipt's path is found. -/
theorem anchor_order_free_first :
    ∃ path, (receiptPath Sample.crossed Sample.leaf Sample.crossedBag [Sample.firstRoot]
      500).value = .ok path := by
  have free := (anchor_order_free_iff Sample.crossed Sample.leaf Sample.leaf Sample.wwdr
    Sample.crossedBag [Sample.firstRoot] 500 (Sample.crossed_sound _ _ _)
    (Sample.crossed_sound _ _ _)).1.mpr (.inl (by decide +kernel))
  refine (free [Sample.firstRoot] fun _ => Iff.rfl).mpr ?_
  exact ⟨⟨[Sample.leaf, Sample.wwdr, Sample.root], true, []⟩, by decide +kernel, by decide +kernel,
    by decide +kernel⟩

end ReceiptVerifier
