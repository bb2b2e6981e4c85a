import ReceiptVerifier.Verify.Clock
import ReceiptVerifier.Verify.Wire

/-!
# What the signed content decides

The content is read before it is trusted, for its date alone, and handed on once a signature covers
it. The date the chain is judged at is the date the payload reports, and of the reasons the content
decides only the one that is reached when every check has passed.
-/

namespace ReceiptVerifier

open Openssl

variable {ssl : OpenSsl} {jiff : Jiff} {base64 : Base64} {json : SerdeJson}

/-! ## Paths valid at an instant -/

/-- A path below the anchor that was valid at an instant: OpenSSL found no problem on it at the
second the instant falls in, and none of its certificates ends before the instant. -/
structure ValidAt (ssl : OpenSsl) (signer : Certificate) (authenticated : List Certificate)
    (anchors : List TrustAnchor) (atMillis : Int) (path : List Certificate) : Prop where
  passed : (verifyPath ssl signer authenticated (anchorCertificates anchors)
    (seconds atMillis).1).value.passed = true
  path_eq : path = (verifyPath ssl signer authenticated (anchorCertificates anchors)
    (seconds atMillis).1).value.chain.dropLast
  onTime : ∀ c ∈ path, ssl.notAfterAtLeast c (seconds atMillis).2 = true

theorem late_eq_nil_iff {certificates : List Certificate} {roundedUp : Int} :
    ((certificates.zipIdx.filter fun (certificate, _) =>
      !ssl.notAfterAtLeast certificate roundedUp).map
        fun (_, depth) => (⟨depth, .expired⟩ : PathProblem)) = [] ↔
      ∀ c ∈ certificates, ssl.notAfterAtLeast c roundedUp = true := by
  rw [List.map_eq_nil_iff, List.filter_eq_nil_iff]
  constructor
  · intro none c mem
    obtain ⟨i, within, rfl⟩ := List.mem_iff_getElem.mp mem
    have onTime := none (certificates[i], i) (by
      rw [List.mem_zipIdx_iff_getElem?]
      exact List.getElem?_eq_getElem within)
    simpa using onTime
  · rintro onTime ⟨c, i⟩ mem
    have := onTime c (List.fst_mem_of_mem_zipIdx mem)
    simp [this]

section

variable {target : Certificate} {untrusted : List Certificate} {anchors : List TrustAnchor}
  {atMillis : Int}

theorem chain_checkedPath :
    (checkedPath ssl target untrusted anchors atMillis).value.chain =
      (verifyPath ssl target untrusted (anchorCertificates anchors)
        (seconds atMillis).1).value.chain := by
  simp [checkedPath]

/-- The millisecond check asks the certificates below the anchor. -/
theorem passed_checkedPath_iff :
    (checkedPath ssl target untrusted anchors atMillis).value.passed = true ↔
      (verifyPath ssl target untrusted (anchorCertificates anchors)
        (seconds atMillis).1).value.passed = true ∧
      ∀ c ∈ (verifyPath ssl target untrusted (anchorCertificates anchors)
        (seconds atMillis).1).value.chain.dropLast,
        ssl.notAfterAtLeast c (seconds atMillis).2 = true := by
  unfold checkedPath
  simp only [Traced.value_bind, Traced.value_pure]
  generalize (verifyPath ssl target untrusted (anchorCertificates anchors)
    (seconds atMillis).1).value = outcome
  unfold PathOutcome.passed
  cases anchored : outcome.anchored with
  | false => simp
  | true =>
    simp only [↓reduceIte, Bool.true_and, List.isEmpty_iff, List.append_eq_nil_iff,
      late_eq_nil_iff, List.dropLast_eq_take]

/-- A receipt's path is answered when no problem is left. -/
theorem receiptPath_ok_iff {path : List Certificate} :
    (receiptPath ssl target untrusted anchors atMillis).value = .ok path ↔
      (checkedPath ssl target untrusted anchors atMillis).value.passed = true ∧
        path = (checkedPath ssl target untrusted anchors atMillis).value.chain.dropLast := by
  unfold receiptPath
  simp only [Traced.value_bind]
  generalize (checkedPath ssl target untrusted anchors atMillis).value = outcome
  unfold PathOutcome.passed
  cases problems : outcome.problems with
  | nil => cases anchored : outcome.anchored <;> simp [eq_comm]
  | cons problem rest =>
    simp only [List.isEmpty_cons, Bool.and_false, Bool.false_eq_true, false_and, iff_false,
      Bool.not_false, ↓reduceIte]
    intro answered
    split at answered
    · cases answered
    · repeat' split at answered
      all_goals cases answered

theorem receiptPath_ok_iff_validAt {path : List Certificate} :
    (receiptPath ssl target untrusted anchors atMillis).value = .ok path ↔
      ValidAt ssl target untrusted anchors atMillis path := by
  rw [receiptPath_ok_iff, passed_checkedPath_iff, chain_checkedPath]
  constructor
  · rintro ⟨⟨passed, onTime⟩, rfl⟩
    exact ⟨passed, rfl, onTime⟩
  · rintro ⟨passed, rfl, onTime⟩
    exact ⟨⟨passed, onTime⟩, rfl⟩

end

/-! ## The date the chain is judged at -/

/-- The search before trust and the pass after it find the same date. -/
theorem creationDate_eq_receiptCreationDateMs (attributes : List Attribute) :
    creationDate ssl jiff attributes =
      (parseReceiptPayload ssl jiff attributes).receiptCreationDateMs := by
  have first : (attributes.find? fun attr => attr.attributeType == attrCreationDate).map
      Attribute.value = firstOf attributes attrCreationDate := by
    rw [firstOf, valuesOf, List.head?_map, List.head?_filter]
    rfl
  rw [parseReceiptPayload_eq_ofFirsts]
  change _ = firstDate ssl jiff (firstOf attributes) attrCreationDate
  rw [firstDate, ← first, Option.bind_map]
  rfl

/-- A receipt a signer passed for, at an instant its path was valid at. -/
structure JudgedAt (ssl : OpenSsl) (base64 : Base64) (anchors : List TrustAnchor) (text : Bytes)
    (atMillis : Int) : Prop where
  judged : ∃ der cms info signer path, decodeReceiptData base64 text = .ok der ∧
    SignedData.parse ssl der envelopeLimits = .ok cms ∧ info ∈ cms.signerInfos ∧
    signer ∈ cms.certificates ∧ SignedData.namesSigner ssl info signer = true ∧
    SignerPasses ssl cms info signer (authenticatedTopDown ssl cms.certificates anchors).value
      anchors atMillis ∧
    ValidAt ssl signer (authenticatedTopDown ssl cms.certificates anchors).value anchors atMillis
      path

theorem verifyReceipt_judged {text : Bytes} {anchors : List TrustAnchor} {clock : Clock}
    {payload : ReceiptPayload}
    (h : (verifyReceipt ssl jiff base64 text anchors clock).value.1 = .ok payload) :
    ∃ atMillis, payload.receiptCreationDateMs.or clock.instant = some atMillis ∧
      JudgedAt ssl base64 anchors text atMillis ∧
      receiptDate ssl jiff base64 text = payload.receiptCreationDateMs := by
  obtain ⟨der, attributes, decoded, accepted, rfl, -⟩ := verifyReceipt_ok h
  cases parsed : SignedData.parse ssl der envelopeLimits with
  | error err =>
    rw [verifyEnvelope, parsed] at accepted
    cases accepted
  | ok cms =>
    obtain ⟨content, -, info, mem, signer, offered, named, atMillis, instant, passes⟩ :=
      (value_verifyEnvelope_ok_iff parsed).mp accepted
    have dated : signedCreationDate ssl jiff (parsePayloadAttributes ssl cms.content) =
        (parseReceiptPayload ssl jiff attributes).receiptCreationDateMs := by
      rw [← content]
      exact creationDate_eq_receiptCreationDateMs attributes
    obtain ⟨path, -, built, -, -⟩ := passes.path
    refine ⟨atMillis, ?_, ⟨der, cms, info, signer, path, decoded, parsed, mem, offered, named,
      passes, receiptPath_ok_iff_validAt.mp built⟩, ?_⟩
    · rw [← dated]
      exact instant
    · rw [receiptDate, decoded]
      dsimp only
      rw [parsed]
      exact dated

theorem millis_now {clock clock' : Clock} {millis : Int} (h : clock.now = (.ok millis, clock')) :
    clock'.millis = some millis := by
  unfold Clock.now at h
  split at h
  next known =>
    cases h
    exact known
  · split at h
    · cases h
    · cases h
      rfl

/-- An accepted envelope whose content has no date asked the clock. -/
theorem millis_verifySignerInfos {cms : SignedData} {embedded : Embedded}
    {anchors : List TrustAnchor}
    (undated : signedCreationDate ssl jiff (parsePayloadAttributes ssl cms.content) = none) :
    ∀ (infos : List SignerInfo) (loop : SignerLoop) (attributes : SignedAttributes),
      loop.parsed.getD (parsePayloadAttributes ssl cms.content) =
        parsePayloadAttributes ssl cms.content →
      (verifySignerInfos ssl jiff cms embedded anchors infos loop).value.1 = .ok attributes →
      (verifySignerInfos ssl jiff cms embedded anchors infos loop).value.2.millis ≠ none := by
  intro infos
  induction infos with
  | nil =>
    intro loop attributes _ accepted
    cases accepted
  | cons info infos ih =>
    intro loop attributes parsed
    rw [verifySignerInfos]
    cases signerCertificates ssl info embedded with
    | error failure => exact ih _ attributes parsed
    | ok matched =>
      obtain ⟨first, others⟩ := matched
      simp only [Traced.value_bind, parsed, chainInstant, undated]
      rcases taken : loop.clock.now with ⟨instant, clock⟩
      cases instant with
      | error failure =>
        dsimp only [SignerLoop.verdict, Traced.value_pure]
        split
        · intro accepted
          cases accepted
        · exact ih _ attributes rfl
      | ok millis =>
        dsimp only
        generalize (loop.verdict ssl cms embedded anchors info first others (.ok millis)).value =
          verdict
        obtain ⟨verdict, authenticated⟩ := verdict
        cases verdict with
        | ok =>
          intro _
          dsimp only [Traced.value_pure]
          rw [millis_now taken]
          exact Option.some_ne_none millis
        | error failure =>
          dsimp only
          split
          · intro accepted
            cases accepted
          · exact ih _ attributes rfl

theorem millis_verifyReceipt {text : Bytes} {anchors : List TrustAnchor} {clock : Clock}
    {payload : ReceiptPayload}
    (h : (verifyReceipt ssl jiff base64 text anchors clock).value.1 = .ok payload)
    (undated : receiptDate ssl jiff base64 text = none) :
    (verifyReceipt ssl jiff base64 text anchors clock).value.2.millis ≠ none := by
  unfold receiptDate at undated
  unfold verifyReceipt at h ⊢
  split at h
  · cases h
  next within =>
    rw [if_neg within]
    split at h
    · cases h
    next der decoded =>
      simp only [decoded] at undated
      unfold verifyEnvelope at h ⊢
      split at h
      · cases h
      next cms parsed =>
        simp only [parsed] at undated
        have asked := @millis_verifySignerInfos ssl jiff cms
          (Embedded.partition ssl cms.certificates) anchors undated cms.signerInfos
          { clock := clock }
        simp only [Traced.value_bind] at h ⊢
        rcases run : (verifySignerInfos ssl jiff cms (Embedded.partition ssl cms.certificates)
          anchors cms.signerInfos { clock := clock }).value with ⟨verdict, clock'⟩
        rw [run] at h asked
        cases verdict with
        | error failure => cases h
        | ok attributes => exact asked attributes rfl rfl

/-- **The instant a receipt's chain is judged at is the creation date it reports.** An accepted
receipt with a creation date had its path valid at that date, and the clock was not read; without
one it was judged at the clock, read once. -/
theorem judged_at_creation_date (ssl : OpenSsl) (jiff : Jiff) (base64 : Base64)
    (roots : List TrustAnchor) :
    (∀ attributes, creationDate ssl jiff attributes =
      (parseReceiptPayload ssl jiff attributes).receiptCreationDateMs) ∧
    ∀ text now payload clock,
      (Verifier.receipt ssl jiff base64 roots text now).value = (.ok payload, clock) →
      (∀ millis, payload.receiptCreationDateMs = some millis →
        JudgedAt ssl base64 roots text millis ∧ clock.reads = 0) ∧
      (payload.receiptCreationDateMs = none →
        ∃ millis, now 0 = some millis ∧ JudgedAt ssl base64 roots text millis ∧
          clock.reads = 1) := by
  refine ⟨creationDate_eq_receiptCreationDateMs, fun text now payload clock accepted => ?_⟩
  have run : (verifyReceipt ssl jiff base64 text roots (Clock.new now)).value =
      (.ok payload, clock) := by
    unfold Verifier.receipt Verifier.contained at accepted
    split at accepted
    · cases accepted
    · exact accepted
  have verified : (verifyReceipt ssl jiff base64 text roots (Clock.new now)).value.1 =
      .ok payload := by rw [run]
  obtain ⟨atMillis, instant, judged, dated⟩ := verifyReceipt_judged verified
  constructor
  · intro millis own
    rw [own, Option.some_or] at instant
    obtain rfl : millis = atMillis := Option.some.inj instant
    refine ⟨judged, ?_⟩
    have unread := (@dated_verifyReceipt ssl jiff base64 text roots _ (dated.trans own)
      (Clock.new now) (Clock.new now)).1
    rw [run] at unread
    obtain rfl : clock = Clock.new now := unread
    rfl
  · intro own
    rw [own, Option.none_or] at instant
    refine ⟨atMillis, instant, judged, ?_⟩
    have asked := millis_verifyReceipt verified (dated.trans own)
    have left := leavesClock_verifyReceipt ssl jiff base64 text roots (@Asked.never now)
    rw [run] at asked left
    cases left.of_ok with
    | never => exact absurd rfl asked
    | once _ => rfl

/-- A clock that panics does not keep the sample receipt from being judged at its own date. -/
theorem judged_at_creation_date_dated :
    JudgedAt Sample.datedSsl Sample.receiptBase64 Sample.anchors (utf8 "MAA=") 1577836800000 := by
  have accepted : ((Verifier.receipt Sample.datedSsl .gregorian Sample.receiptBase64 Sample.anchors
      (utf8 "MAA=") fun _ => none).value.1.map ReceiptPayload.receiptCreationDateMs).toOption =
        some (some 1577836800000) := by decide +kernel
  rcases run : (Verifier.receipt Sample.datedSsl .gregorian Sample.receiptBase64 Sample.anchors
      (utf8 "MAA=") fun _ => none).value with ⟨verdict, clock⟩
  rw [run] at accepted
  cases verdict with
  | error failure => cases accepted
  | ok payload =>
    have dates := (judged_at_creation_date Sample.datedSsl .gregorian Sample.receiptBase64
      Sample.anchors).2 _ _ payload clock run
    exact (dates.1 _ (Option.some.inj accepted)).1

/-! ## Checks that do not read the content -/

/-- A check none of whose failures is an unreadable payload's. -/
def NeverUnreadable {α : Type} (check : Except Failure α) : Prop :=
  ∀ failure, check = .error failure → failure.reason ≠ .unreadablePayload

theorem neverUnreadable_ok {α : Type} (a : α) : NeverUnreadable (.ok a) := by
  intro failure failed
  cases failed

theorem neverUnreadable_error {α : Type} {failure : Failure}
    (h : failure.reason ≠ .unreadablePayload) :
    NeverUnreadable (.error failure : Except Failure α) := by
  intro own failed
  cases failed
  exact h

theorem NeverUnreadable.bind {α β : Type} {check : Except Failure α} {next : α → Except Failure β}
    (h : NeverUnreadable check) (rest : ∀ a, NeverUnreadable (next a)) :
    NeverUnreadable (check.bind next) := by
  cases check with
  | error failure => exact neverUnreadable_error (h failure rfl)
  | ok a => exact rest a

theorem neverUnreadable_instantOrPanic (instant : Option Int) :
    NeverUnreadable (instantOrPanic instant) := by
  cases instant with
  | none => exact neverUnreadable_error (by decide)
  | some millis => exact neverUnreadable_ok millis

theorem neverUnreadable_signerCertificates (info : SignerInfo) (embedded : Embedded) :
    NeverUnreadable (signerCertificates ssl info embedded) := by
  unfold signerCertificates
  split
  · exact neverUnreadable_error (by decide)
  · split
    · exact neverUnreadable_error (by decide)
    · split
      · exact neverUnreadable_error (by decide)
      · exact neverUnreadable_ok _

theorem neverUnreadable_receiptPath (signer : Certificate) (authenticated : List Certificate)
    (anchors : List TrustAnchor) (atMillis : Int) :
    NeverUnreadable (receiptPath ssl signer authenticated anchors atMillis).value := by
  unfold receiptPath
  rw [Traced.value_bind]
  split
  · exact neverUnreadable_error (by rw [structuralFailure_reason]; decide)
  · repeat' split
    all_goals first
      | exact neverUnreadable_error (by decide)
      | exact neverUnreadable_ok _

theorem neverUnreadable_verifySigner (cms : SignedData) (info : SignerInfo) (signer : Certificate)
    (authenticated : List Certificate) (anchors : List TrustAnchor) (atMillis : Int) :
    NeverUnreadable
      (verifySigner ssl cms info signer authenticated anchors atMillis).value := by
  unfold verifySigner
  split
  · exact neverUnreadable_error (by decide)
  · split
    · exact neverUnreadable_error (by decide)
    · rw [Traced.value_bind]
      have path := @neverUnreadable_receiptPath ssl signer authenticated anchors atMillis
      cases built : (receiptPath ssl signer authenticated anchors atMillis).value with
      | error failure => exact neverUnreadable_error (path failure built)
      | ok below =>
        dsimp only
        split
        · exact neverUnreadable_error (by decide)
        · split
          · exact neverUnreadable_error (by decide)
          · unfold verifyCmsSignature
            split
            · exact neverUnreadable_error (by decide)
            · rw [Traced.value_bind]
              split
              · exact neverUnreadable_ok _
              · exact neverUnreadable_error (by decide)

theorem neverUnreadable_infoVerdict (cms : SignedData) (anchors : List TrustAnchor)
    (instant : Option Int) (info : SignerInfo) :
    NeverUnreadable (infoVerdict ssl cms anchors instant info) := by
  unfold infoVerdict
  have signers := @neverUnreadable_signerCertificates ssl info
    (Embedded.partition ssl cms.certificates)
  split
  next failure refused => exact neverUnreadable_error (signers failure refused)
  · split
    · exact neverUnreadable_error (by decide)
    · intro failure refused
      exact neverUnreadable_verifySigner _ _ _ _ _ _ failure (value_verifySigners_error refused)

/-- The loop answers with a failure of one of its `SignerInfo`s. -/
theorem neverUnreadable_loopVerdict (cms : SignedData) (anchors : List TrustAnchor)
    (instant : Option Int) : ∀ (infos : List SignerInfo) (firstFailure : Option Failure),
    (∀ failure ∈ firstFailure, failure.reason ≠ .unreadablePayload) →
    NeverUnreadable (loopVerdict ssl cms anchors instant infos firstFailure) := by
  intro infos
  induction infos with
  | nil =>
    intro firstFailure first
    cases firstFailure with
    | none => exact neverUnreadable_error (by decide)
    | some failure => exact neverUnreadable_error (first failure rfl)
  | cons info infos ih =>
    intro firstFailure first
    have own := @neverUnreadable_infoVerdict ssl cms anchors instant info
    rw [loopVerdict]
    cases verdict : infoVerdict ssl cms anchors instant info with
    | ok => exact neverUnreadable_ok _
    | error failure =>
      dsimp only
      split
      · exact neverUnreadable_error (own failure verdict)
      · refine ih _ fun kept mem => ?_
        cases firstFailure with
        | none =>
          cases mem
          exact own _ verdict
        | some earlier =>
          cases mem
          exact first _ rfl

theorem neverUnreadable_readHeader (bytes : Bytes) : NeverUnreadable (readHeader json bytes) := by
  unfold readHeader
  split
  · exact neverUnreadable_error (by decide)
  · split
    · exact neverUnreadable_error (by decide)
    · exact neverUnreadable_ok _

theorem neverUnreadable_segment (text : Bytes) (what : String) :
    NeverUnreadable (segment base64 text what) := by
  unfold segment
  split
  · exact neverUnreadable_error (by simp [malformed])
  · exact neverUnreadable_ok _

theorem neverUnreadable_parseX5cCertificate (entry : String) :
    NeverUnreadable (parseX5cCertificate ssl base64 entry) := by
  unfold parseX5cCertificate decodeX5cEntry
  cases decodeReceiptBase64 base64 (utf8 entry) with
  | none => exact neverUnreadable_error (by decide)
  | some der =>
    dsimp only
    split
    · exact neverUnreadable_error (by decide)
    · exact neverUnreadable_ok _

theorem neverUnreadable_readOuter (jws : Bytes) :
    NeverUnreadable (readOuter ssl base64 json jws) := by
  unfold readOuter
  split
  · exact neverUnreadable_error (by decide)
  · split
    · refine .bind (neverUnreadable_segment _ _) fun _ =>
        .bind (neverUnreadable_segment _ _) fun _ => .bind (neverUnreadable_segment _ _) fun _ =>
        .bind (neverUnreadable_readHeader _) fun header => ?_
      dsimp only
      split
      · exact neverUnreadable_error (by decide)
      · split
        · exact .bind (neverUnreadable_parseX5cCertificate _) fun _ =>
            .bind (neverUnreadable_parseX5cCertificate _) fun _ =>
            .bind (neverUnreadable_parseX5cCertificate _) fun _ => neverUnreadable_ok _
        · exact neverUnreadable_error (by decide)
    · exact neverUnreadable_error (by simp [malformed])

theorem neverUnreadable_pairVerdict (leaf intermediate : Certificate) (outcome : PathOutcome) :
    NeverUnreadable (pairVerdict leaf intermediate outcome) := by
  unfold pairVerdict
  dsimp only
  split
  · exact neverUnreadable_error (by rw [structuralFailure_reason]; decide)
  · repeat' split
    all_goals first
      | exact neverUnreadable_error (by decide)
      | exact neverUnreadable_ok _

theorem neverUnreadable_validatePair (leaf intermediate : Certificate)
    (anchors : List TrustAnchor) (atMillis : Int) :
    NeverUnreadable (validatePair ssl leaf intermediate anchors atMillis).value := by
  unfold validatePair
  rw [Traced.value_bind]
  split
  · exact neverUnreadable_error (by decide)
  · split
    · exact neverUnreadable_error (by decide)
    · rw [Traced.value_bind]
      split
      · exact neverUnreadable_error (by decide)
      · split
        · exact neverUnreadable_error (by decide)
        · rw [Traced.value_bind]
          exact neverUnreadable_pairVerdict _ _ _

theorem neverUnreadable_verifyLeaf (outer : OuterJws) (anchors : List TrustAnchor)
    (atMillis : Int) : NeverUnreadable (verifyLeaf ssl outer anchors atMillis).value := by
  unfold verifyLeaf
  rw [Traced.value_bind]
  have pair := @neverUnreadable_validatePair ssl outer.leaf outer.intermediate anchors atMillis
  split
  next failure refused => exact neverUnreadable_error (pair failure refused)
  · split
    · exact neverUnreadable_error (by decide)
    · split
      · exact neverUnreadable_error (by decide)
      · unfold verifySignature
        rw [Traced.value_bind]
        split
        · exact neverUnreadable_ok _
        · exact neverUnreadable_error (by decide)

/-! ## Answers as checks, then the content -/

/-- The reason of an answer; `none` when it is no failure. -/
def reasonOf {α : Type} : Except Failure α → Option Reason
  | .ok _ => none
  | .error failure => some failure.reason

/-- The reason of a content on its own, once it is trusted. -/
def contentReason {ε α : Type} : Except ε α → Option Reason
  | .ok _ => none
  | .error _ => some .unreadablePayload

theorem reasonOf_decodeSignedPayload (attributes : SignedAttributes) :
    reasonOf (decodeSignedPayload ssl jiff attributes) = contentReason attributes := by
  cases attributes <;> rfl

theorem reasonOf_signedPayload (payload : Except Unreadable ReadPayload) :
    reasonOf (signedPayload payload) = contentReason payload := by
  cases payload <;> rfl

theorem contentReason_eq_some {ε α : Type} {content : Except ε α} :
    contentReason content = some .unreadablePayload ↔ ∃ err, content = .error err := by
  cases content <;> simp [contentReason]

/-- Only what follows the checks can call a payload unreadable. -/
theorem reasonOf_bind_eq_unreadable {α β : Type} {check : Except Failure α}
    {next : α → Except Failure β} (h : NeverUnreadable check) :
    reasonOf (check.bind next) = some .unreadablePayload ↔
      ∃ a, check = .ok a ∧ reasonOf (next a) = some .unreadablePayload := by
  cases check with
  | error failure =>
    have other := h failure rfl
    simp [Except.bind, reasonOf, other]
  | ok a => simp [Except.bind]

section

variable (ssl base64)

/-- A receipt's envelope, whatever the receipt's size. -/
def readEnvelope (text : Bytes) : Except Failure SignedData :=
  (decodeReceiptData base64 text).bind fun der =>
    match SignedData.parse ssl der envelopeLimits with
    | .error err => .error (envelopeFailure err)
    | .ok cms => .ok cms

/-- The checks on a receipt before its certificates are looked at. -/
def openReceipt (text : Bytes) : Except Failure SignedData :=
  if text.length > maxReceiptBytes then
    .error ⟨.tooLarge, "receipt exceeds the maximum accepted size of " ++
      toString maxReceiptBytes ++ " bytes"⟩
  else readEnvelope ssl base64 text

variable {ssl base64}

theorem neverUnreadable_openReceipt (text : Bytes) :
    NeverUnreadable (openReceipt ssl base64 text) := by
  unfold openReceipt readEnvelope decodeReceiptData
  split
  · exact neverUnreadable_error (by decide)
  · split
    · exact neverUnreadable_error (by decide)
    next der _ =>
      dsimp only [Except.bind]
      split
      next err _ =>
        refine neverUnreadable_error ?_
        cases err <;> simp [envelopeFailure, tooManySignerInfos, tooManyCertificates, malformed]
      · exact neverUnreadable_ok _

end

/-- What a receipt's chain is judged at: its own date, else the clock's. -/
def receiptInstant (ssl : OpenSsl) (jiff : Jiff) (base64 : Base64) (text : Bytes)
    (now : Nat → Option Int) : Option Int :=
  (receiptDate ssl jiff base64 text).or (now 0)

/-- What a JWS's chain is judged at. -/
def signedInstant (ssl : OpenSsl) (base64 : Base64) (json : SerdeJson) (jws : Bytes)
    (now : Nat → Option Int) : Option Int :=
  (jwsDate ssl base64 json jws).or (now 0)

theorem value_receipt (ssl : OpenSsl) (jiff : Jiff) (base64 : Base64) (roots : List TrustAnchor)
    (text : Bytes) (now : Nat → Option Int) :
    (Verifier.receipt ssl jiff base64 roots text now).value.1 =
      ((Verifier.checkAnchors roots).bind fun _ => openReceipt ssl base64 text).bind fun cms =>
        (loopVerdict ssl cms roots (receiptInstant ssl jiff base64 text now) cms.signerInfos
          none).bind fun _ =>
            decodeSignedPayload ssl jiff (parsePayloadAttributes ssl cms.content) := by
  unfold Verifier.receipt Verifier.contained
  cases Verifier.checkAnchors roots with
  | error failure => rfl
  | ok =>
    dsimp only [Except.bind]
    rw [value_verifyReceipt]
    unfold openReceipt
    split
    · rfl
    · unfold readEnvelope
      cases decoded : decodeReceiptData base64 text with
      | error failure => rfl
      | ok der =>
        dsimp only [Except.bind]
        cases parsed : SignedData.parse ssl der envelopeLimits with
        | error err => simp only [verifyEnvelope, parsed, Traced.value_pure]
        | ok cms =>
          have instant : instantOf ssl jiff (parsePayloadAttributes ssl cms.content)
              (Clock.new now) = receiptInstant ssl jiff base64 text now := by
            simp only [receiptInstant, receiptDate, decoded, parsed]
            rfl
          rw [value_verifyEnvelope parsed, instant]
          dsimp only
          cases loopVerdict ssl cms roots (receiptInstant ssl jiff base64 text now)
            cms.signerInfos none <;> rfl

theorem value_signedData (ssl : OpenSsl) (base64 : Base64) (json : SerdeJson)
    (roots : List TrustAnchor) (jws : Bytes) (now : Nat → Option Int) :
    (Verifier.signedData ssl base64 json roots jws now).value.1 =
      ((Verifier.checkAnchors roots).bind fun _ => readOuter ssl base64 json jws).bind fun outer =>
        ((instantOrPanic (signedInstant ssl base64 json jws now)).bind fun atMillis =>
          (verifyLeaf ssl outer roots atMillis).value).bind fun _ =>
            signedPayload outer.payload := by
  unfold Verifier.signedData Verifier.contained
  cases Verifier.checkAnchors roots with
  | error failure => rfl
  | ok =>
    dsimp only [Except.bind]
    rw [value_verifyJws]
    cases outer : readOuter ssl base64 json jws with
    | error failure => rfl
    | ok outer' =>
      have instant : signedInstant ssl base64 json jws now =
          jwsInstantOf outer'.payload (Clock.new now) := by
        simp only [signedInstant, jwsDate, outer]
        rfl
      rw [instant]
      dsimp only [Except.bind]
      cases instantOrPanic (jwsInstantOf outer'.payload (Clock.new now)) <;> rfl

theorem neverUnreadable_checkAnchors (roots : List TrustAnchor) :
    NeverUnreadable (Verifier.checkAnchors roots) := by
  unfold Verifier.checkAnchors
  split
  · exact neverUnreadable_error (by decide)
  · exact neverUnreadable_ok _

/-! ## Inputs every check of which passed -/

/-- A receipt that passed every check on its envelope, its chain, its markers and its signature. -/
structure ReceiptPasses (ssl : OpenSsl) (jiff : Jiff) (base64 : Base64) (roots : List TrustAnchor)
    (text : Bytes) (now : Nat → Option Int) (cms : SignedData) : Prop where
  anchored : Verifier.checkAnchors roots = .ok ()
  opened : openReceipt ssl base64 text = .ok cms
  readable : ∀ c ∈ cms.certificates, c.isReadable ssl = true
  signer : ∃ info ∈ cms.signerInfos, ∃ c ∈ cms.certificates,
    SignedData.namesSigner ssl info c = true ∧ ∃ atMillis,
      receiptInstant ssl jiff base64 text now = some atMillis ∧
      SignerPasses ssl cms info c (authenticatedTopDown ssl cms.certificates roots).value roots
        atMillis

/-- A leaf that passed the chain, the markers and the signature. -/
structure LeafPasses (ssl : OpenSsl) (outer : OuterJws) (roots : List TrustAnchor)
    (atMillis : Int) : Prop where
  pair : (validatePair ssl outer.leaf outer.intermediate roots atMillis).value = .ok ()
  leafMarker : ssl.hasExtension outer.leaf signingLeafOid = true
  wwdrMarker : ssl.hasExtension outer.intermediate wwdrIntermediateOid = true
  signature : (verifyEs256 ssl outer.leaf outer.signature
    (outer.headerB64 ++ [0x2e] ++ outer.payloadB64)).value = true

/-- A JWS that passed every check on its structure, its chain, its markers and its signature. -/
structure JwsPasses (ssl : OpenSsl) (base64 : Base64) (json : SerdeJson) (roots : List TrustAnchor)
    (jws : Bytes) (now : Nat → Option Int) (outer : OuterJws) : Prop where
  anchored : Verifier.checkAnchors roots = .ok ()
  opened : readOuter ssl base64 json jws = .ok outer
  leaf : ∃ atMillis, signedInstant ssl base64 json jws now = some atMillis ∧
    LeafPasses ssl outer roots atMillis

theorem bind_eq_ok {α β : Type} {check : Except Failure α} {next : α → Except Failure β} {b : β} :
    check.bind next = .ok b ↔ ∃ a, check = .ok a ∧ next a = .ok b := by
  cases check <;> simp [Except.bind]

theorem receiptPasses_iff {roots : List TrustAnchor} {text : Bytes} {now : Nat → Option Int}
    {cms : SignedData} :
    ReceiptPasses ssl jiff base64 roots text now cms ↔
      ((Verifier.checkAnchors roots).bind fun _ => openReceipt ssl base64 text) = .ok cms ∧
      loopVerdict ssl cms roots (receiptInstant ssl jiff base64 text now) cms.signerInfos none =
        .ok () := by
  rw [bind_eq_ok, loopVerdict_ok_iff]
  simp only [infoVerdict_ok_iff]
  constructor
  · rintro ⟨anchored, opened, readable, info, mem, passes⟩
    exact ⟨⟨(), anchored, opened⟩, info, mem, readable, passes⟩
  · rintro ⟨⟨_, anchored, opened⟩, info, mem, readable, passes⟩
    exact ⟨anchored, opened, readable, info, mem, passes⟩

theorem leafPasses_iff {outer : OuterJws} {roots : List TrustAnchor} {atMillis : Int} :
    LeafPasses ssl outer roots atMillis ↔
      (verifyLeaf ssl outer roots atMillis).value = .ok () := by
  unfold verifyLeaf verifySignature
  rw [Traced.value_bind]
  constructor
  · rintro ⟨pair, leafMarker, wwdrMarker, signature⟩
    simp only [pair, leafMarker, wwdrMarker, signature, Bool.not_true, Bool.false_eq_true,
      ↓reduceIte, Traced.value_bind, Traced.value_pure]
  · intro passed
    cases pair : (validatePair ssl outer.leaf outer.intermediate roots atMillis).value with
    | error failure =>
      rw [pair] at passed
      cases passed
    | ok =>
      rw [pair] at passed
      dsimp only at passed
      split at passed
      · cases passed
      next leafMarker =>
        split at passed
        · cases passed
        next wwdrMarker =>
          rw [Traced.value_bind] at passed
          split at passed
          next signature =>
            exact ⟨pair, by simpa using leafMarker, by simpa using wwdrMarker, signature⟩
          · cases passed

theorem jwsPasses_iff {roots : List TrustAnchor} {jws : Bytes} {now : Nat → Option Int}
    {outer : OuterJws} :
    JwsPasses ssl base64 json roots jws now outer ↔
      ((Verifier.checkAnchors roots).bind fun _ => readOuter ssl base64 json jws) = .ok outer ∧
      ((instantOrPanic (signedInstant ssl base64 json jws now)).bind fun atMillis =>
        (verifyLeaf ssl outer roots atMillis).value) = .ok () := by
  rw [bind_eq_ok, bind_eq_ok]
  have given : ∀ atMillis, instantOrPanic (signedInstant ssl base64 json jws now) = .ok atMillis ↔
      signedInstant ssl base64 json jws now = some atMillis := by
    intro atMillis
    cases signedInstant ssl base64 json jws now <;> simp [instantOrPanic]
  simp only [given, ← leafPasses_iff]
  constructor
  · rintro ⟨anchored, opened, leaf⟩
    exact ⟨⟨(), anchored, opened⟩, leaf⟩
  · rintro ⟨⟨_, anchored, opened⟩, leaf⟩
    exact ⟨anchored, opened, leaf⟩

/-- The two stages of an answer: what the checks hand on, and what its content reads as. -/
theorem unreadable_iff {α β : Type} {opened : Except Failure α} {passed : α → Except Failure Unit}
    {content : α → Except Failure β} (first : NeverUnreadable opened)
    (second : ∀ a, NeverUnreadable (passed a)) :
    reasonOf (opened.bind fun a => (passed a).bind fun _ => content a) =
        some .unreadablePayload ↔
      ∃ a, (opened = .ok a ∧ passed a = .ok ()) ∧
        reasonOf (content a) = some .unreadablePayload := by
  rw [reasonOf_bind_eq_unreadable first]
  refine exists_congr fun a => ?_
  rw [reasonOf_bind_eq_unreadable (second a), and_assoc]
  exact and_congr_right fun _ => ⟨fun ⟨_, passed, read⟩ => ⟨passed, read⟩,
    fun ⟨passed, read⟩ => ⟨(), passed, read⟩⟩

theorem receipt_unreadable_iff {roots : List TrustAnchor} {text : Bytes}
    {now : Nat → Option Int} :
    reasonOf (Verifier.receipt ssl jiff base64 roots text now).value.1 = some .unreadablePayload ↔
      ∃ cms, ReceiptPasses ssl jiff base64 roots text now cms ∧
        ∃ err, parsePayloadAttributes ssl cms.content = .error err := by
  rw [value_receipt, unreadable_iff
    ((neverUnreadable_checkAnchors roots).bind fun _ => neverUnreadable_openReceipt text)
    fun cms => neverUnreadable_loopVerdict cms roots _ cms.signerInfos none (by simp)]
  simp only [receiptPasses_iff, reasonOf_decodeSignedPayload, contentReason_eq_some]

/-- The checks on a JWS that follow the decoding of its payload segment: the signature segment, the
header and the certificates. -/
def readShell (ssl : OpenSsl) (base64 : Base64) (json : SerdeJson)
    (headerBytes signatureB64 : Bytes) : Except Failure (Bytes × Certificate × Certificate) := do
  let signature ← segment base64 signatureB64 "signature"
  let (alg, x5c) ← readHeader json headerBytes
  if alg ≠ some "ES256" then .error (malformed "alg must be ES256")
  else
    match x5c with
    | some [leafEntry, intermediateEntry, rootEntry] => do
      let leaf ← parseX5cCertificate ssl base64 leafEntry
      let intermediate ← parseX5cCertificate ssl base64 intermediateEntry
      let _ ← parseX5cCertificate ssl base64 rootEntry
      .ok (signature, leaf, intermediate)
    | _ => .error (malformed "x5c must contain exactly 3 certificates")

/-- The payload takes part in the outer structure by its decoding alone. -/
theorem readOuter_of_segments {jws header payload signature : Bytes}
    (within : jws.length ≤ maxJwsBytes) (split : jws.splitOn 0x2e = [header, payload, signature]) :
    readOuter ssl base64 json jws =
      (segment base64 header "header").bind fun headerBytes =>
        (segment base64 payload "payload").bind fun payloadBytes =>
          (readShell ssl base64 json headerBytes signature).map
            fun (signature, leaf, intermediate) =>
              { headerB64 := header, payloadB64 := payload, signature := signature, leaf := leaf,
                intermediate := intermediate, payload := readPayload json payloadBytes } := by
  unfold readOuter
  rw [if_neg (Nat.not_lt.mpr within), split]
  dsimp only [bind]
  cases segment base64 header "header" with
  | error failure => rfl
  | ok headerBytes =>
    cases segment base64 payload "payload" with
    | error failure => rfl
    | ok payloadBytes =>
      unfold readShell
      dsimp only [bind, Except.bind]
      cases segment base64 signature "signature" with
      | error failure => rfl
      | ok signature =>
        dsimp only
        cases readHeader json headerBytes with
        | error failure => rfl
        | ok header =>
          obtain ⟨alg, x5c⟩ := header
          dsimp only
          split
          · rfl
          · rcases x5c with _ | _ | ⟨leafEntry, _ | ⟨intermediateEntry, _ | ⟨rootEntry, _ | _⟩⟩⟩
            · rfl
            · rfl
            · rfl
            · rfl
            · dsimp only
              cases parseX5cCertificate ssl base64 leafEntry with
              | error failure => rfl
              | ok leaf =>
                cases parseX5cCertificate ssl base64 intermediateEntry with
                | error failure => rfl
                | ok intermediate => cases parseX5cCertificate ssl base64 rootEntry <;> rfl
            · rfl

/-- The payload of an outer structure is the one read of its decoded segment. -/
theorem readOuter_payload {jws : Bytes} {outer : OuterJws}
    (h : readOuter ssl base64 json jws = .ok outer) :
    ∃ bytes, base64.decodeUrl outer.payloadB64 = some bytes ∧
      outer.payload = readPayload json bytes := by
  have shape : jws.length ≤ maxJwsBytes ∧
      ∃ header payload signature, jws.splitOn 0x2e = [header, payload, signature] := by
    unfold readOuter at h
    split at h
    · cases h
    next within =>
      split at h
      next split => exact ⟨Nat.not_lt.mp within, _, _, _, split⟩
      · cases h
  obtain ⟨within, header, payload, signature, split⟩ := shape
  rw [readOuter_of_segments within split, bind_eq_ok] at h
  obtain ⟨headerBytes, -, h⟩ := h
  rw [bind_eq_ok] at h
  obtain ⟨payloadBytes, decoded, h⟩ := h
  refine ⟨payloadBytes, ?_⟩
  cases shell : readShell ssl base64 json headerBytes signature with
  | error failure =>
    rw [shell] at h
    cases h
  | ok parts =>
    rw [shell] at h
    cases h
    refine ⟨?_, rfl⟩
    unfold segment decodeBase64urlStrict at decoded
    split at decoded
    · cases decoded
    next own =>
      cases decoded
      exact own

/-- A payload that does not read is no JSON object in UTF-8. -/
theorem readPayload_error_iff {bytes : Bytes} :
    (∃ err, readPayload json bytes = .error err) ↔
      ∀ text, fromUtf8 bytes = some text → wholeObjectMembers json text = none := by
  unfold readPayload
  cases fromUtf8 bytes with
  | none => simp
  | some text =>
    dsimp only
    cases whole : wholeObjectMembers json text <;> simp [whole]

theorem jws_unreadable_iff {roots : List TrustAnchor} {jws : Bytes} {now : Nat → Option Int} :
    reasonOf (Verifier.signedData ssl base64 json roots jws now).value.1 =
        some .unreadablePayload ↔
      ∃ outer, JwsPasses ssl base64 json roots jws now outer ∧
        ∃ bytes, base64.decodeUrl outer.payloadB64 = some bytes ∧
          ∀ text, fromUtf8 bytes = some text → wholeObjectMembers json text = none := by
  rw [value_signedData, unreadable_iff
    ((neverUnreadable_checkAnchors roots).bind fun _ => neverUnreadable_readOuter jws)
    fun outer => (neverUnreadable_instantOrPanic _).bind fun _ =>
      neverUnreadable_verifyLeaf outer roots _]
  simp only [← jwsPasses_iff, reasonOf_signedPayload, contentReason_eq_some]
  refine exists_congr fun outer => and_congr_right fun passes => ?_
  obtain ⟨bytes, decoded, read⟩ := readOuter_payload passes.opened
  simp only [read, readPayload_error_iff, decoded, Option.some.injEq, exists_eq_left']

/-! ## Two runs -/

/-- Two outcomes of a check: the same failure, or results that agree. -/
inductive Agree {α : Type} (same : α → α → Prop) : Except Failure α → Except Failure α → Prop
  | error (failure : Failure) : Agree same (.error failure) (.error failure)
  | ok {a a' : α} (h : same a a') : Agree same (.ok a) (.ok a')

theorem Agree.imp {α : Type} {same same' : α → α → Prop} {check check' : Except Failure α}
    (h : Agree same check check')
    (more : ∀ a a', check = .ok a → check' = .ok a' → same a a' → same' a a') :
    Agree same' check check' := by
  cases h with
  | error failure => exact .error failure
  | ok h => exact .ok (more _ _ rfl rfl h)

/-- Two envelopes that differ in the content at the most, and whose signatures verify alike. -/
structure SameButContent (ssl : OpenSsl) (cms cms' : SignedData) : Prop where
  certificates : cms'.certificates = cms.certificates
  signerInfos : cms'.signerInfos = cms.signerInfos
  eContentType : cms'.eContentType = cms.eContentType
  oracle : ∀ info ∈ cms.signerInfos, ∀ c ∈ cms.certificates,
    (cms'.verifySigner ssl info c).value = (cms.verifySigner ssl info c).value

theorem any_eq_of_mem {α : Type} {l : List α} {p q : α → Bool} (h : ∀ a ∈ l, p a = q a) :
    l.any p = l.any q := by
  rw [Bool.eq_iff_iff, List.any_eq_true, List.any_eq_true]
  exact exists_congr fun a => and_congr_right fun mem => by rw [h a mem]

section

variable {cms cms' : SignedData}

theorem SameButContent.verifySigner (h : SameButContent ssl cms cms') {info : SignerInfo}
    (mem : info ∈ cms.signerInfos) {c : Certificate} (offered : c ∈ cms.certificates)
    (authenticated : List Certificate) (anchors : List TrustAnchor) (atMillis : Int) :
    (verifySigner ssl cms' info c authenticated anchors atMillis).value =
      (verifySigner ssl cms info c authenticated anchors atMillis).value := by
  have sameType : cms'.contentTypeAttributeMatches ssl info =
      cms.contentTypeAttributeMatches ssl info := by
    unfold SignedData.contentTypeAttributeMatches
    rw [h.eContentType]
  have signature : (verifyCmsSignature ssl cms' info c).value =
      (verifyCmsSignature ssl cms info c).value := by
    unfold verifyCmsSignature
    rw [sameType]
    split
    · rfl
    · simp only [Traced.value_bind, h.oracle info mem c offered]
  unfold ReceiptVerifier.verifySigner
  split
  · rfl
  · split
    · rfl
    · simp only [Traced.value_bind]
      split
      · rfl
      · split
        · rfl
        · split
          · rfl
          · exact signature

theorem SameButContent.infoVerdict (h : SameButContent ssl cms cms') (anchors : List TrustAnchor)
    (instant : Option Int) {info : SignerInfo} (mem : info ∈ cms.signerInfos) :
    infoVerdict ssl cms' anchors instant info = infoVerdict ssl cms anchors instant info := by
  unfold ReceiptVerifier.infoVerdict authenticatedOf
  rw [h.certificates]
  rcases signerCertificates_cases info cms.certificates with
    ⟨failure, refused, _⟩ | ⟨first, others, matched, _, _, named⟩
  · rw [refused]
  · rw [matched]
    cases instant with
    | none => rfl
    | some atMillis =>
      have alike : ∀ c ∈ first :: others,
          (ReceiptVerifier.verifySigner ssl cms' info c (authenticatedTopDown ssl
            (Embedded.partition ssl cms.certificates).readable anchors).value anchors
            atMillis).value =
          (ReceiptVerifier.verifySigner ssl cms info c (authenticatedTopDown ssl
            (Embedded.partition ssl cms.certificates).readable anchors).value anchors
            atMillis).value :=
        fun c kept => h.verifySigner mem (mem_namedBy.mp ((named c).mp kept)).1 _ _ _
      dsimp only
      unfold verifySigners
      simp only [Traced.value_bind, alike first List.mem_cons_self]
      split
      · rfl
      · simp only [Traced.value_bind, Traced.value_any, Traced.value_pure]
        rw [any_eq_of_mem fun c kept => by rw [alike c (List.mem_cons_of_mem first kept)]]

theorem SameButContent.loopVerdict (h : SameButContent ssl cms cms') (anchors : List TrustAnchor)
    (instant : Option Int) : ∀ (infos : List SignerInfo) (firstFailure : Option Failure),
    (∀ info ∈ infos, info ∈ cms.signerInfos) →
    loopVerdict ssl cms' anchors instant infos firstFailure =
      loopVerdict ssl cms anchors instant infos firstFailure := by
  intro infos
  induction infos with
  | nil =>
    intro firstFailure _
    rfl
  | cons info infos ih =>
    intro firstFailure sub
    rw [ReceiptVerifier.loopVerdict, ReceiptVerifier.loopVerdict,
      h.infoVerdict anchors instant (sub info List.mem_cons_self)]
    split
    · rfl
    · split
      · rfl
      · exact ih _ fun info later => sub info (List.mem_cons_of_mem _ later)

end

/-- Two answers that are the same failure, or both what their trusted contents read as. -/
def ContentApart {α κ : Type} (answer answer' : Except Failure α) (passes passes' : κ → Prop)
    (content : κ → Option Reason) : Prop :=
  (∃ failure, answer = .error failure ∧ answer' = .error failure) ∨
    ∃ k k', passes k ∧ passes' k' ∧ reasonOf answer = content k ∧ reasonOf answer' = content k'

/-- Checks that agree give answers that only the contents tell apart. -/
theorem contentApart_of_agree {α β : Type} {same : α → α → Prop} {opened opened' : Except Failure α}
    {passed passed' : α → Except Failure Unit} {content : α → Except Failure β}
    {answer answer' : Except Failure β} {passes passes' : α → Prop} {reason : α → Option Reason}
    (run : answer = opened.bind fun a => (passed a).bind fun _ => content a)
    (run' : answer' = opened'.bind fun a => (passed' a).bind fun _ => content a)
    (agree : Agree same opened opened') (alike : ∀ a a', same a a' → passed' a' = passed a)
    (pass : ∀ a, passes a ↔ opened = .ok a ∧ passed a = .ok ())
    (pass' : ∀ a, passes' a ↔ opened' = .ok a ∧ passed' a = .ok ())
    (read : ∀ a, reasonOf (content a) = reason a) :
    ContentApart answer answer' passes passes' reason := by
  subst run run'
  cases agree with
  | error failure => exact .inl ⟨failure, rfl, rfl⟩
  | @ok a a' h =>
    dsimp only [Except.bind]
    have verdicts := alike a a' h
    cases verdict : passed a with
    | error failure =>
      rw [verdict] at verdicts
      rw [verdicts]
      exact .inl ⟨failure, rfl, rfl⟩
    | ok =>
      rw [verdict] at verdicts
      rw [verdicts]
      exact .inr ⟨a, a', (pass a).mpr ⟨rfl, verdict⟩, (pass' a').mpr ⟨rfl, verdicts⟩, read a,
        read a'⟩

theorem receipt_contentApart {roots : List TrustAnchor} {text text' : Bytes}
    {now : Nat → Option Int} (size : text.length > maxReceiptBytes ↔ text'.length > maxReceiptBytes)
    (agree : Agree (SameButContent ssl) (readEnvelope ssl base64 text)
      (readEnvelope ssl base64 text'))
    (instant : receiptInstant ssl jiff base64 text now = receiptInstant ssl jiff base64 text' now) :
    ContentApart (Verifier.receipt ssl jiff base64 roots text now).value.1
      (Verifier.receipt ssl jiff base64 roots text' now).value.1
      (ReceiptPasses ssl jiff base64 roots text now) (ReceiptPasses ssl jiff base64 roots text' now)
      (fun cms => contentReason (parsePayloadAttributes ssl cms.content)) := by
  have opened : Agree (SameButContent ssl)
      ((Verifier.checkAnchors roots).bind fun _ => openReceipt ssl base64 text)
      ((Verifier.checkAnchors roots).bind fun _ => openReceipt ssl base64 text') := by
    cases Verifier.checkAnchors roots with
    | error failure => exact .error failure
    | ok =>
      dsimp only [Except.bind]
      unfold openReceipt
      by_cases large : text.length > maxReceiptBytes
      · rw [if_pos large, if_pos (size.mp large)]
        exact .error _
      · rw [if_neg large, if_neg (mt size.mpr large)]
        exact agree
  refine contentApart_of_agree (value_receipt ssl jiff base64 roots text now)
    (value_receipt ssl jiff base64 roots text' now) opened (fun cms cms' same => ?_)
    (fun _ => receiptPasses_iff) (fun _ => receiptPasses_iff)
    (fun _ => reasonOf_decodeSignedPayload _)
  rw [same.signerInfos, instant]
  exact same.loopVerdict roots _ cms.signerInfos none fun _ mem => mem

/-- Two compact JWS with the same header and signature segments, whose payload segments both decode
or both do not. -/
def SameButPayload (base64 : Base64) (jws jws' : Bytes) : Prop :=
  ∃ header payload payload' signature, jws.splitOn 0x2e = [header, payload, signature] ∧
    jws'.splitOn 0x2e = [header, payload', signature] ∧
    (base64.decodeUrl payload).isSome = (base64.decodeUrl payload').isSome

/-- Two outer structures that differ in the payload at the most, and whose signatures verify
alike. -/
structure SameButPayloadRead (ssl : OpenSsl) (outer outer' : OuterJws) : Prop where
  leaf : outer'.leaf = outer.leaf
  intermediate : outer'.intermediate = outer.intermediate
  oracle : (verifySignature ssl outer').value = (verifySignature ssl outer).value

theorem SameButPayloadRead.verifyLeaf {outer outer' : OuterJws}
    (h : SameButPayloadRead ssl outer outer') (roots : List TrustAnchor) (atMillis : Int) :
    (verifyLeaf ssl outer' roots atMillis).value = (verifyLeaf ssl outer roots atMillis).value := by
  unfold ReceiptVerifier.verifyLeaf
  simp only [Traced.value_bind, h.leaf, h.intermediate]
  split
  · rfl
  · split
    · rfl
    · split
      · rfl
      · exact h.oracle

/-- Of the payload the outer structure looks at the decoding alone. -/
theorem agree_readOuter {jws jws' : Bytes}
    (size : jws.length > maxJwsBytes ↔ jws'.length > maxJwsBytes)
    (same : SameButPayload base64 jws jws') :
    Agree (fun outer outer' => outer'.leaf = outer.leaf ∧ outer'.intermediate = outer.intermediate)
      (readOuter ssl base64 json jws) (readOuter ssl base64 json jws') := by
  by_cases large : jws.length > maxJwsBytes
  · unfold readOuter
    rw [if_pos large, if_pos (size.mp large)]
    exact .error _
  · obtain ⟨header, payload, payload', signature, split, split', decodes⟩ := same
    rw [readOuter_of_segments (Nat.not_lt.mp large) split,
      readOuter_of_segments (Nat.not_lt.mp (mt size.mpr large)) split']
    cases segment base64 header "header" with
    | error failure => exact .error failure
    | ok headerBytes =>
      dsimp only [Except.bind]
      unfold segment decodeBase64urlStrict
      cases decoded : base64.decodeUrl payload with
      | none =>
        rw [decoded] at decodes
        rw [Option.not_isSome_iff_eq_none.mp (Bool.eq_false_iff.mp decodes.symm)]
        exact .error _
      | some bytes =>
        rw [decoded] at decodes
        obtain ⟨bytes', decoded'⟩ := Option.isSome_iff_exists.mp decodes.symm
        rw [decoded']
        dsimp only
        cases readShell ssl base64 json headerBytes signature with
        | error failure => exact .error failure
        | ok parts => exact .ok ⟨rfl, rfl⟩

theorem jws_contentApart {roots : List TrustAnchor} {jws jws' : Bytes} {now : Nat → Option Int}
    (agree : Agree (SameButPayloadRead ssl) (readOuter ssl base64 json jws)
      (readOuter ssl base64 json jws'))
    (instant : signedInstant ssl base64 json jws now = signedInstant ssl base64 json jws' now) :
    ContentApart (Verifier.signedData ssl base64 json roots jws now).value.1
      (Verifier.signedData ssl base64 json roots jws' now).value.1
      (JwsPasses ssl base64 json roots jws now) (JwsPasses ssl base64 json roots jws' now)
      (fun outer => contentReason outer.payload) := by
  have opened : Agree (SameButPayloadRead ssl)
      ((Verifier.checkAnchors roots).bind fun _ => readOuter ssl base64 json jws)
      ((Verifier.checkAnchors roots).bind fun _ => readOuter ssl base64 json jws') := by
    cases Verifier.checkAnchors roots with
    | error failure => exact .error failure
    | ok => exact agree
  refine contentApart_of_agree (value_signedData ssl base64 json roots jws now)
    (value_signedData ssl base64 json roots jws' now) opened (fun outer outer' same => ?_)
    (fun _ => jwsPasses_iff) (fun _ => jwsPasses_iff) (fun _ => reasonOf_signedPayload _)
  rw [instant]
  simp only [same.verifyLeaf roots]

/-- **Unverified content never decides a reason.** An input's payload is called unreadable iff every
check passed and the signed content does not read. Two inputs within the size limit, or both over
it, that agree on everything but the signed content, whose chain instants are the same and whose
signatures verify alike, fail alike, unless both passed the signature: then each answer is what its
own content reads as. -/
theorem content_decides_last (ssl : OpenSsl) (jiff : Jiff) (base64 : Base64) (json : SerdeJson)
    (roots : List TrustAnchor) :
    (∀ text now, reasonOf (Verifier.receipt ssl jiff base64 roots text now).value.1 =
        some .unreadablePayload ↔
      ∃ cms, ReceiptPasses ssl jiff base64 roots text now cms ∧
        ∃ err, parsePayloadAttributes ssl cms.content = .error err) ∧
    (∀ jws now, reasonOf (Verifier.signedData ssl base64 json roots jws now).value.1 =
        some .unreadablePayload ↔
      ∃ outer, JwsPasses ssl base64 json roots jws now outer ∧
        ∃ bytes, base64.decodeUrl outer.payloadB64 = some bytes ∧
          ∀ text, fromUtf8 bytes = some text → wholeObjectMembers json text = none) ∧
    (∀ text text' now, (text.length > maxReceiptBytes ↔ text'.length > maxReceiptBytes) →
      Agree (SameButContent ssl) (readEnvelope ssl base64 text) (readEnvelope ssl base64 text') →
      receiptInstant ssl jiff base64 text now = receiptInstant ssl jiff base64 text' now →
      ContentApart (Verifier.receipt ssl jiff base64 roots text now).value.1
        (Verifier.receipt ssl jiff base64 roots text' now).value.1
        (ReceiptPasses ssl jiff base64 roots text now)
        (ReceiptPasses ssl jiff base64 roots text' now)
        (fun cms => contentReason (parsePayloadAttributes ssl cms.content))) ∧
    ∀ jws jws' now, (jws.length > maxJwsBytes ↔ jws'.length > maxJwsBytes) →
      SameButPayload base64 jws jws' →
      (∀ outer outer', readOuter ssl base64 json jws = .ok outer →
        readOuter ssl base64 json jws' = .ok outer' →
        (verifySignature ssl outer').value = (verifySignature ssl outer).value) →
      signedInstant ssl base64 json jws now = signedInstant ssl base64 json jws' now →
      ContentApart (Verifier.signedData ssl base64 json roots jws now).value.1
        (Verifier.signedData ssl base64 json roots jws' now).value.1
        (JwsPasses ssl base64 json roots jws now) (JwsPasses ssl base64 json roots jws' now)
        (fun outer => contentReason outer.payload) := by
  refine ⟨fun _ _ => receipt_unreadable_iff, fun _ _ => jws_unreadable_iff,
    fun _ _ _ size agree instant => receipt_contentApart size agree instant, ?_⟩
  intro jws jws' now size same oracle instant
  refine jws_contentApart (Agree.imp (agree_readOuter size same) ?_) instant
  exact fun outer outer' read read' kept => ⟨kept.1, kept.2, oracle outer outer' read read'⟩

/-! ## Contents that are read last -/

namespace Sample

/-- A reader that finds no JSON. -/
def noJson : SerdeJson where
  wholeObject _ := none
  leadingObject _ := none
  value _ := .error "expected value"
  string _ := none
  strings _ := none
  double _ := none

def chars (text : Bytes) : List Char := text.map fun b => .ofNat b.toNat

def encodeUrl (bytes : Bytes) : Bytes := (Rfc4648.encodeUrl bytes).map ascii

/-- Both encodings of RFC 4648. -/
def urlBase64 : Base64 :=
  { standardBase64 with decodeUrl := fun text => Rfc4648.decodeUrl (chars text) }

/-- The leaf's key takes a signature and its other form, on anything. -/
def es256 : OpenSsl :=
  { openSsl with
    ecdsa := fun r s =>
      some fun key _ => key == ⟨leaf.der⟩ && r == List.replicate 32 1 &&
        (s == List.replicate 32 2 || s == List.replicate 32 3) }

def header : String := "\x7b\"alg\":\"ES256\",\"x5c\":[\"Aw==\",\"Ag==\",\"AQ==\"]\x7d"

def content : String := "\x7b\"signedDate\":0\x7d"

/-- Reads the header and the content. -/
def jwsJson : SerdeJson :=
  { noJson with
    wholeObject := fun text =>
      if text = header then
        some [("alg", "\"ES256\""), ("x5c", "[\"Aw==\",\"Ag==\",\"AQ==\"]")]
      else if text = content then some [("signedDate", "0")]
      else none
    string := fun raw => if raw = "\"ES256\"" then some "ES256" else none
    strings := fun raw =>
      if raw = "[\"Aw==\",\"Ag==\",\"AQ==\"]" then some ["Aw==", "Ag==", "AQ=="] else none }

/-- The compact JWS of the header and a content, under a signature the leaf's key takes. -/
def signedJws (content : String) : Bytes :=
  [0x2e].intercalate [encodeUrl (utf8 header), encodeUrl (utf8 content),
    encodeUrl (List.replicate 32 1 ++ List.replicate 32 2)]

/-- The envelope `31 00` differs from `30 00` in its content, which is no SET. -/
def twoContents : OpenSsl :=
  { es256 with
    contentInfo := fun der =>
      if der = [0x31, 0x00] then
        (contentInfo [0x30, 0x00]).map fun info =>
          ({ info with content := some [0x04, 0x00] }, true)
      else (contentInfo der).map fun info => (info, true)
    receiptPayload := fun der => if der = [0x31, 0x00] then some [] else none }

end Sample

/-- Every check passes on both receipts, and on both JWS. The first of each reads and the second
does not. -/
theorem content_decides_last_signed :
    (∃ cms, ReceiptPasses Sample.twoContents .gregorian Sample.urlBase64 Sample.anchors
        (utf8 "MQA=") (Verifier.clockAt 0) cms ∧
      ∃ err, parsePayloadAttributes Sample.twoContents cms.content = .error err) ∧
    ContentApart
      (Verifier.receipt Sample.twoContents .gregorian Sample.urlBase64 Sample.anchors
        (utf8 "MAA=") (Verifier.clockAt 0)).value.1
      (Verifier.receipt Sample.twoContents .gregorian Sample.urlBase64 Sample.anchors
        (utf8 "MQA=") (Verifier.clockAt 0)).value.1
      (ReceiptPasses Sample.twoContents .gregorian Sample.urlBase64 Sample.anchors
        (utf8 "MAA=") (Verifier.clockAt 0))
      (ReceiptPasses Sample.twoContents .gregorian Sample.urlBase64 Sample.anchors
        (utf8 "MQA=") (Verifier.clockAt 0))
      (fun cms => contentReason (parsePayloadAttributes Sample.twoContents cms.content)) ∧
    reasonOf (Verifier.receipt Sample.twoContents .gregorian Sample.urlBase64 Sample.anchors
      (utf8 "MAA=") (Verifier.clockAt 0)).value.1 = none ∧
    ContentApart
      (Verifier.signedData Sample.es256 Sample.urlBase64 Sample.jwsJson Sample.anchors
        (Sample.signedJws Sample.content) (Verifier.clockAt 0)).value.1
      (Verifier.signedData Sample.es256 Sample.urlBase64 Sample.jwsJson Sample.anchors
        (Sample.signedJws "7") (Verifier.clockAt 0)).value.1
      (JwsPasses Sample.es256 Sample.urlBase64 Sample.jwsJson Sample.anchors
        (Sample.signedJws Sample.content) (Verifier.clockAt 0))
      (JwsPasses Sample.es256 Sample.urlBase64 Sample.jwsJson Sample.anchors
        (Sample.signedJws "7") (Verifier.clockAt 0))
      (fun outer => contentReason outer.payload) ∧
    reasonOf (Verifier.signedData Sample.es256 Sample.urlBase64 Sample.jwsJson Sample.anchors
      (Sample.signedJws Sample.content) (Verifier.clockAt 0)).value.1 = none ∧
    reasonOf (Verifier.signedData Sample.es256 Sample.urlBase64 Sample.jwsJson Sample.anchors
      (Sample.signedJws "7") (Verifier.clockAt 0)).value.1 = some .unreadablePayload := by
  have receipts := content_decides_last Sample.twoContents .gregorian Sample.urlBase64
    Sample.jwsJson Sample.anchors
  have jws := content_decides_last Sample.es256 .gregorian Sample.urlBase64 Sample.jwsJson
    Sample.anchors
  have envelopes : Agree (SameButContent Sample.twoContents)
      (readEnvelope Sample.twoContents Sample.urlBase64 (utf8 "MAA="))
      (readEnvelope Sample.twoContents Sample.urlBase64 (utf8 "MQA=")) := by
    have first : readEnvelope Sample.twoContents Sample.urlBase64 (utf8 "MAA=") =
        .ok Sample.signed := by decide +kernel
    have second : readEnvelope Sample.twoContents Sample.urlBase64 (utf8 "MQA=") =
        .ok { Sample.signed with content := [0x04, 0x00] } := by decide +kernel
    rw [first, second]
    exact .ok ⟨rfl, rfl, rfl, by decide +kernel⟩
  have segments : SameButPayload Sample.urlBase64 (Sample.signedJws Sample.content)
      (Sample.signedJws "7") :=
    ⟨Sample.encodeUrl (utf8 Sample.header), Sample.encodeUrl (utf8 Sample.content),
      Sample.encodeUrl (utf8 "7"),
      Sample.encodeUrl (List.replicate 32 1 ++ List.replicate 32 2), by decide +kernel⟩
  -- the key takes the signature on both payloads
  have signs : ∀ content ∈ [Sample.content, "7"],
      (readOuter Sample.es256 Sample.urlBase64 Sample.jwsJson (Sample.signedJws content)).map
        (fun outer => (verifySignature Sample.es256 outer).value) = .ok (.ok ()) := by
    decide +kernel
  refine ⟨(receipts.1 _ _).mp (by decide +kernel),
    receipts.2.2.1 _ _ _ (by decide) envelopes (by decide +kernel), by decide +kernel,
    jws.2.2.2 _ _ _ (by decide +kernel) segments (fun outer outer' read read' => ?_)
      (by decide +kernel), by decide +kernel, by decide +kernel⟩
  have first := signs Sample.content (by decide)
  have second := signs "7" (by decide)
  rw [read] at first
  rw [read'] at second
  exact (Except.ok.inj second).trans (Except.ok.inj first).symm

/-! ## Payloads over the size limit -/

namespace Sample

/-- Base64url of zero octets: `AAAA` is three of them. -/
def zeroBase64 : Base64 where
  decodeReceipt _ := none
  decodeUrl text :=
    if text.all (· == 0x41) && text.length % 4 == 0 then
      some (List.replicate (text.length / 4 * 3) 0)
    else none
  decodeStandard _ := .error "Invalid symbol"
  encode _ := ""

/-- A compact JWS of zero octets: `AAAA`, a payload of so many quadruples, `AAAA`. -/
def zeroJws (quadruples : Nat) : Bytes :=
  [0x2e].intercalate
    [List.replicate 4 0x41, List.replicate (4 * quadruples) 0x41, List.replicate 4 0x41]

theorem splitOn_zeroJws (quadruples : Nat) : (zeroJws quadruples).splitOn 0x2e =
    [List.replicate 4 0x41, List.replicate (4 * quadruples) 0x41, List.replicate 4 0x41] := by
  refine List.splitOn_intercalate _ ?_ (by simp)
  intro segment mem dot
  obtain ⟨n, rfl⟩ : ∃ n, segment = List.replicate n 0x41 := by
    simp only [List.mem_cons, List.not_mem_nil, or_false] at mem
    rcases mem with rfl | rfl | rfl
    · exact ⟨4, rfl⟩
    · exact ⟨4 * quadruples, rfl⟩
    · exact ⟨4, rfl⟩
  exact absurd (List.eq_of_mem_replicate dot) (by decide)

theorem decodeUrl_zero (quadruples : Nat) :
    (zeroBase64.decodeUrl (List.replicate (4 * quadruples) 0x41)).isSome = true := by
  simp [zeroBase64]

theorem length_zeroJws (quadruples : Nat) : (zeroJws quadruples).length = 4 * quadruples + 10 := by
  simp only [zeroJws, List.intercalate, List.intersperse, List.flatten_cons, List.flatten_nil,
    List.length_append, List.length_replicate, List.length_cons, List.length_nil]
  omega

theorem readOuter_zeroJws_large :
    readOuter openSsl zeroBase64 noJson (zeroJws 65536) = .error ⟨.tooLarge,
      "jws exceeds the maximum accepted size of " ++ toString maxJwsBytes ++ " bytes"⟩ := by
  unfold readOuter
  rw [if_pos (by rw [length_zeroJws]; decide)]

end Sample

/-- The size of a payload that nothing has verified decides between two reasons. -/
theorem oversized_payload_decides :
    SameButPayload Sample.zeroBase64 (Sample.zeroJws 1) (Sample.zeroJws 65536) ∧
    (∀ outer outer',
      readOuter Sample.openSsl Sample.zeroBase64 Sample.noJson (Sample.zeroJws 1) = .ok outer →
      readOuter Sample.openSsl Sample.zeroBase64 Sample.noJson (Sample.zeroJws 65536) = .ok outer' →
      (verifySignature Sample.openSsl outer').value =
        (verifySignature Sample.openSsl outer).value) ∧
    signedInstant Sample.openSsl Sample.zeroBase64 Sample.noJson (Sample.zeroJws 1)
        (Verifier.clockAt 0) =
      signedInstant Sample.openSsl Sample.zeroBase64 Sample.noJson (Sample.zeroJws 65536)
        (Verifier.clockAt 0) ∧
    reasonOf (Verifier.signedData Sample.openSsl Sample.zeroBase64 Sample.noJson Sample.anchors
      (Sample.zeroJws 1) (Verifier.clockAt 0)).value.1 = some .malformed ∧
    reasonOf (Verifier.signedData Sample.openSsl Sample.zeroBase64 Sample.noJson Sample.anchors
      (Sample.zeroJws 65536) (Verifier.clockAt 0)).value.1 = some .tooLarge := by
  have large := Sample.readOuter_zeroJws_large
  refine ⟨⟨_, _, _, _, Sample.splitOn_zeroJws 1, Sample.splitOn_zeroJws 65536, ?_⟩, ?_, ?_, ?_, ?_⟩
  · rw [Sample.decodeUrl_zero, Sample.decodeUrl_zero]
  · intro outer outer' _ read
    rw [large] at read
    cases read
  · have small : jwsDate Sample.openSsl Sample.zeroBase64 Sample.noJson (Sample.zeroJws 1) =
        none := by decide +kernel
    rw [signedInstant, signedInstant, small, jwsDate, large]
  · decide +kernel
  · rw [value_signedData, large]
    rfl

end ReceiptVerifier
