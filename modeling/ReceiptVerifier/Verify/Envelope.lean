import ReceiptVerifier.Receipt
import ReceiptVerifier.Verify.Walk

/-!
# Which envelopes are accepted

The two loops of `verifyEnvelope` share lazily built state. `loopVerdict` is what they compute
without it: each `SignerInfo` judged on its own, the first to pass accepting, a broken clock
pre-empting, else the first failure. `value_verifySignerInfos` is that equality, from an invariant
of the loop's state, and the exact acceptance condition follows.
-/

namespace ReceiptVerifier

open Openssl

variable {ssl : OpenSsl} {jiff : Jiff}

/-! ## One signer -/

theorem any_sameAs {l : List Certificate} {c : Certificate} :
    (l.any fun certificate => certificate.sameAs c) = true ↔ c ∈ l := by
  simp [Certificate.sameAs]

/-- What `verifySigner` asks of a certificate. -/
structure SignerPasses (ssl : OpenSsl) (cms : SignedData) (info : SignerInfo) (signer : Certificate)
    (authenticated : List Certificate) (anchors : List TrustAnchor) (atMillis : Int) : Prop where
  listed : signer ∈ authenticated
  usableKey : signer.hasUsableKey ssl = true
  path : ∃ path intermediate,
    (receiptPath ssl signer authenticated anchors atMillis).value = .ok path ∧
    path[1]? = some intermediate ∧ ssl.hasExtension intermediate wwdrIntermediateOid = true
  leafMarker : ssl.hasExtension signer signingLeafOid = true
  contentType : cms.contentTypeAttributeMatches ssl info = true
  signature : (cms.verifySigner ssl info signer).value = true

/-- Of the envelope, only the content and its type are looked at. -/
theorem signerPasses_congr {cms cms' : SignedData} {info : SignerInfo} {signer : Certificate}
    {authenticated : List Certificate} {anchors : List TrustAnchor} {atMillis : Int}
    (content : cms'.content = cms.content) (type : cms'.eContentType = cms.eContentType) :
    SignerPasses ssl cms' info signer authenticated anchors atMillis ↔
      SignerPasses ssl cms info signer authenticated anchors atMillis := by
  have sameType : cms'.contentTypeAttributeMatches ssl info =
      cms.contentTypeAttributeMatches ssl info := by
    unfold SignedData.contentTypeAttributeMatches
    rw [type]
  have sameSignature : cms'.verifySigner ssl info signer = cms.verifySigner ssl info signer := by
    unfold SignedData.verifySigner
    rw [content]
  constructor
  · intro passes
    exact { passes with
      contentType := sameType ▸ passes.contentType, signature := sameSignature ▸ passes.signature }
  · intro passes
    exact { passes with
      contentType := sameType ▸ passes.contentType, signature := sameSignature ▸ passes.signature }

theorem value_verifyCmsSignature_ok_iff {cms : SignedData} {info : SignerInfo}
    {signer : Certificate} :
    (verifyCmsSignature ssl cms info signer).value = .ok () ↔
      cms.contentTypeAttributeMatches ssl info = true ∧
        (cms.verifySigner ssl info signer).value = true := by
  unfold verifyCmsSignature
  cases cms.contentTypeAttributeMatches ssl info with
  | false => simp
  | true =>
    cases verified : (cms.verifySigner ssl info signer).value <;> simp [verified]

theorem hasWwdrMarker_iff {path : List Certificate} :
    hasWwdrMarker ssl path = true ↔ ∃ intermediate, path[1]? = some intermediate ∧
      ssl.hasExtension intermediate wwdrIntermediateOid = true := by
  rw [hasWwdrMarker, Option.any_eq_true]

theorem value_verifySigner_ok_iff {cms : SignedData} {info : SignerInfo} {signer : Certificate}
    {authenticated : List Certificate} {anchors : List TrustAnchor} {atMillis : Int} :
    (verifySigner ssl cms info signer authenticated anchors atMillis).value = .ok () ↔
      SignerPasses ssl cms info signer authenticated anchors atMillis := by
  unfold verifySigner
  constructor
  · intro accepted
    split at accepted
    · cases accepted
    · rename_i found
      split at accepted
      · cases accepted
      · rename_i key
        rw [Traced.value_bind] at accepted
        cases built : (receiptPath ssl signer authenticated anchors atMillis).value with
        | error failure =>
          rw [built] at accepted
          cases accepted
        | ok path =>
          rw [built] at accepted
          simp only at accepted
          split at accepted
          · cases accepted
          · rename_i leaf
            split at accepted
            · cases accepted
            · rename_i wwdr
              obtain ⟨intermediate, second, marked⟩ := hasWwdrMarker_iff.mp (by simpa using wwdr)
              obtain ⟨contentType, signature⟩ := value_verifyCmsSignature_ok_iff.mp accepted
              exact ⟨any_sameAs.mp (by simpa using found), by simpa using key,
                ⟨path, intermediate, built, second, marked⟩, by simpa using leaf, contentType,
                signature⟩
  · rintro ⟨listed, key, ⟨path, intermediate, built, second, marked⟩, leaf, contentType, signature⟩
    rw [any_sameAs.mpr listed, key, if_neg (by decide), if_neg (by decide),
      Traced.value_bind, built]
    simp only
    rw [leaf, hasWwdrMarker_iff.mpr ⟨intermediate, second, marked⟩, if_neg (by decide),
      if_neg (by decide)]
    exact value_verifyCmsSignature_ok_iff.mpr ⟨contentType, signature⟩

/-! ## No verdict on the input is an internal error -/

theorem structuralFailure_reason (kind : PathProblemKind) :
    (structuralFailure kind).reason = .untrustedChain := by
  cases kind <;> rfl

theorem value_receiptPath_reason {signer : Certificate} {authenticated : List Certificate}
    {anchors : List TrustAnchor} {atMillis : Int} {failure : Failure}
    (h : (receiptPath ssl signer authenticated anchors atMillis).value = .error failure) :
    failure.reason ≠ .internalError := by
  unfold receiptPath at h
  rw [Traced.value_bind] at h
  split at h
  · cases h
    rw [structuralFailure_reason]
    decide
  · repeat' split at h
    all_goals
      cases h
      try decide

theorem value_verifyCmsSignature_reason {cms : SignedData} {info : SignerInfo}
    {signer : Certificate} {failure : Failure}
    (h : (verifyCmsSignature ssl cms info signer).value = .error failure) :
    failure.reason ≠ .internalError := by
  unfold verifyCmsSignature at h
  split at h
  · cases h
    decide
  · rw [Traced.value_bind] at h
    split at h <;> cases h
    decide

theorem value_verifySigner_reason {cms : SignedData} {info : SignerInfo} {signer : Certificate}
    {authenticated : List Certificate} {anchors : List TrustAnchor} {atMillis : Int}
    {failure : Failure}
    (h : (verifySigner ssl cms info signer authenticated anchors atMillis).value =
      .error failure) : failure.reason ≠ .internalError := by
  unfold verifySigner at h
  split at h
  · cases h
    decide
  · split at h
    · cases h
      decide
    · rw [Traced.value_bind] at h
      split at h
      · rename_i built
        cases h
        exact value_receiptPath_reason built
      · split at h
        · cases h
          decide
        · split at h
          · cases h
            decide
          · exact value_verifyCmsSignature_reason h

/-! ## The certificates a `SignerInfo` names -/

section

variable (ssl) (info : SignerInfo)

/-- The certificates of a bag that a `SignerInfo` names, in order. -/
def namedBy (bag : List Certificate) : List Certificate :=
  bag.filter fun c => SignedData.namesSigner ssl info c

variable {ssl info} in
theorem namedBy_cons_pos {c : Certificate} {rest : List Certificate}
    (named : SignedData.namesSigner ssl info c = true) :
    namedBy ssl info (c :: rest) = c :: namedBy ssl info rest :=
  List.filter_cons_of_pos named

variable {ssl info} in
theorem namedBy_cons_neg {c : Certificate} {rest : List Certificate}
    (named : SignedData.namesSigner ssl info c = false) :
    namedBy ssl info (c :: rest) = namedBy ssl info rest :=
  List.filter_cons_of_neg (by simp [named])

variable {ssl info} in
theorem mem_namedBy {c : Certificate} {bag : List Certificate} :
    c ∈ namedBy ssl info bag ↔ c ∈ bag ∧ SignedData.namesSigner ssl info c = true :=
  List.mem_filter

/-- Once a first match is kept, every later match joins it once. -/
theorem collectSigners_kept (kept : Certificate) : ∀ (rest others : List Certificate),
    ∃ others', collectSigners ssl info rest (some kept) others = some (kept, others') ∧
      ∀ c, c ∈ kept :: others' ↔ c ∈ kept :: others ∨ c ∈ namedBy ssl info rest := by
  intro rest
  induction rest with
  | nil =>
    intro others
    exact ⟨others, rfl, by simp [namedBy]⟩
  | cons certificate rest ih =>
    intro others
    cases named : SignedData.namesSigner ssl info certificate with
    | false =>
      obtain ⟨others', collected, mem⟩ := ih others
      refine ⟨others', by simp [collectSigners, named, collected], fun c => ?_⟩
      rw [mem, namedBy_cons_neg named]
    | true =>
      by_cases seen : certificate ∈ kept :: others
      · obtain ⟨others', collected, mem⟩ := ih others
        refine ⟨others', by simp [collectSigners, named, any_sameAs.mpr seen, collected],
          fun c => ?_⟩
        rw [mem, namedBy_cons_pos named]
        grind
      · obtain ⟨others', collected, mem⟩ := ih (others ++ [certificate])
        have unseen : ((kept :: others).any fun kept => kept.sameAs certificate) = false := by
          rw [← Bool.not_eq_true, any_sameAs]
          exact seen
        refine ⟨others', by simp [collectSigners, named, unseen, collected], fun c => ?_⟩
        rw [mem, namedBy_cons_pos named]
        grind

/-- `signerCertificates`' loop finds the first match, and every match once. -/
theorem collectSigners_none (bag : List Certificate) :
    (namedBy ssl info bag = [] ∧ collectSigners ssl info bag none [] = none) ∨
    ∃ first others, collectSigners ssl info bag none [] = some (first, others) ∧
      (namedBy ssl info bag).head? = some first ∧
      ∀ c, c ∈ first :: others ↔ c ∈ namedBy ssl info bag := by
  induction bag with
  | nil => exact .inl ⟨rfl, rfl⟩
  | cons certificate rest ih =>
    cases named : SignedData.namesSigner ssl info certificate with
    | false =>
      have skip : collectSigners ssl info (certificate :: rest) none [] =
          collectSigners ssl info rest none [] := by
        simp [collectSigners, named]
      rw [namedBy_cons_neg named, skip]
      exact ih
    | true =>
      obtain ⟨others, collected, mem⟩ := collectSigners_kept ssl info certificate rest []
      refine .inr ⟨certificate, others, by simp [collectSigners, named, collected], ?_, ?_⟩
      · rw [namedBy_cons_pos named, List.head?_cons]
      · intro c
        rw [mem, namedBy_cons_pos named]
        simp

end

/-- Everything `signerCertificates` can answer for a bag. -/
theorem signerCertificates_cases (info : SignerInfo) (bag : List Certificate) :
    (∃ failure, signerCertificates ssl info (Embedded.partition ssl bag) = .error failure ∧
      failure.reason ≠ .internalError ∧
      ((∃ c ∈ bag, c.isReadable ssl = false) ∨ namedBy ssl info bag = [])) ∨
    ∃ first others,
      signerCertificates ssl info (Embedded.partition ssl bag) = .ok (first, others) ∧
      (∀ c ∈ bag, c.isReadable ssl = true) ∧ (namedBy ssl info bag).head? = some first ∧
      ∀ c, c ∈ first :: others ↔ c ∈ namedBy ssl info bag := by
  by_cases readable : ∀ c ∈ bag, c.isReadable ssl = true
  · have all : (Embedded.partition ssl bag).readable = bag := List.filter_eq_self.mpr readable
    have none : (Embedded.partition ssl bag).unreadable = [] :=
      List.filter_eq_nil_iff.mpr fun c hc => by simp [readable c hc]
    unfold signerCertificates
    rw [all, none, List.any_nil, if_neg Bool.false_ne_true, List.isEmpty_nil, Bool.not_true,
      if_neg Bool.false_ne_true]
    rcases collectSigners_none ssl info bag with
      ⟨unnamed, collected⟩ | ⟨first, others, collected, matched⟩
    · exact .inl ⟨_, by rw [collected], by decide, .inr unnamed⟩
    · exact .inr ⟨first, others, by rw [collected], readable, matched⟩
  · obtain ⟨c, mem, unreadable⟩ : ∃ c ∈ bag, c.isReadable ssl = false := by simpa using readable
    have some : ¬ (Embedded.partition ssl bag).unreadable = [] := by
      intro empty
      have := List.filter_eq_nil_iff.mp empty c mem
      simp [unreadable] at this
    left
    unfold signerCertificates
    split
    · exact ⟨_, rfl, by decide, .inl ⟨c, mem, unreadable⟩⟩
    · rw [if_pos (by simp [some])]
      exact ⟨_, rfl, by decide, .inl ⟨c, mem, unreadable⟩⟩

theorem signerCertificates_reason {info : SignerInfo} {bag : List Certificate} {failure : Failure}
    (h : signerCertificates ssl info (Embedded.partition ssl bag) = .error failure) :
    failure.reason ≠ .internalError := by
  rcases signerCertificates_cases info bag with ⟨own, refused, input, _⟩ | ⟨_, _, matched, _⟩
  · rw [h] at refused
    cases refused
    exact input
  · rw [h] at matched
    cases matched

/-! ## All the certificates of one `SignerInfo` -/

section

variable {cms : SignedData} {info : SignerInfo} {first : Certificate} {others : List Certificate}
  {authenticated : List Certificate} {anchors : List TrustAnchor} {atMillis : Int}

theorem value_verifySigners_ok_iff :
    (verifySigners ssl cms info first others authenticated anchors atMillis).value = .ok () ↔
      ∃ c ∈ first :: others, SignerPasses ssl cms info c authenticated anchors atMillis := by
  simp only [← value_verifySigner_ok_iff]
  unfold verifySigners
  rw [Traced.value_bind]
  cases verdict : (verifySigner ssl cms info first authenticated anchors atMillis).value with
  | ok => exact iff_of_true rfl ⟨first, List.mem_cons_self, verdict⟩
  | error failure =>
    have isOk : ∀ c, (verifySigner ssl cms info c authenticated anchors atMillis).value.isOk =
        true ↔ (verifySigner ssl cms info c authenticated anchors atMillis).value = .ok () := by
      intro c
      cases (verifySigner ssl cms info c authenticated anchors atMillis).value <;>
        simp [Except.isOk, Except.toBool]
    simp only [Traced.value_bind, Traced.value_any, Traced.value_pure, List.exists_mem_cons_iff,
      verdict, reduceCtorEq, false_or]
    split
    · rename_i passed
      simpa [isOk] using passed
    · rename_i failed
      simpa [isOk] using failed

theorem value_verifySigners_error {failure : Failure}
    (h : (verifySigners ssl cms info first others authenticated anchors atMillis).value =
      .error failure) :
    (verifySigner ssl cms info first authenticated anchors atMillis).value = .error failure := by
  unfold verifySigners at h
  rw [Traced.value_bind] at h
  cases verdict : (verifySigner ssl cms info first authenticated anchors atMillis).value with
  | ok =>
    rw [verdict] at h
    cases h
  | error own =>
    rw [verdict] at h
    simp only [Traced.value_bind] at h
    split at h
    · cases h
    · exact h

end

/-! ## The loop over the `SignerInfo`s -/

/-- What a clock that panics is reported as. -/
def clockPanicked : Failure := ⟨.internalError, "the configured clock panicked"⟩

/-- The chain instant: the first attribute 12, else what the clock gives. -/
def instantOf (ssl : OpenSsl) (jiff : Jiff) (attributes : SignedAttributes) (clock : Clock) :
    Option Int :=
  (signedCreationDate ssl jiff attributes).or clock.instant

theorem chainInstant_some {attributes : SignedAttributes} {clock : Clock} {millis : Int}
    (h : instantOf ssl jiff attributes clock = some millis) :
    ∃ clock', chainInstant ssl jiff attributes clock = (.ok millis, clock') ∧
      instantOf ssl jiff attributes clock' = some millis := by
  unfold instantOf at h ⊢
  unfold chainInstant
  cases signed : signedCreationDate ssl jiff attributes with
  | some m =>
    rw [signed] at h
    exact ⟨clock, by rw [Option.some.inj h], h⟩
  | none =>
    rw [signed, Option.none_or] at h
    exact Clock.now_of_instant h

theorem chainInstant_none {attributes : SignedAttributes} {clock : Clock}
    (h : instantOf ssl jiff attributes clock = none) :
    (chainInstant ssl jiff attributes clock).1 = .error clockPanicked := by
  obtain ⟨unsigned, broken⟩ := Option.or_eq_none_iff.mp h
  rw [chainInstant, unsigned]
  exact Clock.now_of_no_instant broken

section

variable (ssl) (cms : SignedData) (anchors : List TrustAnchor)

/-- The authenticated list of an envelope. -/
def authenticatedOf : List Certificate :=
  (authenticatedTopDown ssl (Embedded.partition ssl cms.certificates).readable anchors).value

/-- One `SignerInfo` on its own. -/
def infoVerdict (instant : Option Int) (info : SignerInfo) : Except Failure Unit :=
  match signerCertificates ssl info (Embedded.partition ssl cms.certificates) with
  | .error failure => .error failure
  | .ok (first, others) =>
    match instant with
    | none => .error clockPanicked
    | some atMillis =>
      (verifySigners ssl cms info first others (authenticatedOf ssl cms anchors) anchors
        atMillis).value

/-- The `SignerInfo`s one after another, with no state but the first failure. -/
def loopVerdict (instant : Option Int) : List SignerInfo → Option Failure → Except Failure Unit
  | [], firstFailure => .error (firstFailure.getD (malformed "no signer info"))
  | info :: infos, firstFailure =>
    match infoVerdict ssl cms anchors instant info with
    | .ok () => .ok ()
    | .error failure =>
      if failure.reason = .internalError then .error failure
      else loopVerdict instant infos (firstFailure.or (some failure))

variable (jiff)

/-- What the loop's state may hold: nothing yet, or what it would be built to. -/
structure LoopInvariant (instant : Option Int) (loop : SignerLoop) : Prop where
  parsed : loop.parsed.getD (parsePayloadAttributes ssl cms.content) =
    parsePayloadAttributes ssl cms.content
  authenticated : ∀ list ∈ loop.authenticated, list = authenticatedOf ssl cms anchors
  instant : instantOf ssl jiff (parsePayloadAttributes ssl cms.content) loop.clock = instant

variable {ssl jiff cms anchors}

theorem value_authenticate {instant : Option Int} {loop : SignerLoop}
    (inv : LoopInvariant ssl jiff cms anchors instant loop) :
    (loop.authenticate ssl (Embedded.partition ssl cms.certificates) anchors).value =
      authenticatedOf ssl cms anchors := by
  unfold SignerLoop.authenticate
  cases known : loop.authenticated with
  | none => rfl
  | some list => exact inv.authenticated list known

/-- The shared state changes nothing: the loop answers as its `SignerInfo`s do on their own. -/
theorem value_verifySignerInfos {instant : Option Int} : ∀ (infos : List SignerInfo)
    (loop : SignerLoop), LoopInvariant ssl jiff cms anchors instant loop →
    (verifySignerInfos ssl jiff cms (Embedded.partition ssl cms.certificates) anchors infos
      loop).value.1 =
      (loopVerdict ssl cms anchors instant infos loop.firstFailure).map
        fun _ => parsePayloadAttributes ssl cms.content := by
  intro infos
  induction infos with
  | nil =>
    intro loop _
    rfl
  | cons info infos ih =>
    intro loop inv
    rw [verifySignerInfos, loopVerdict, infoVerdict]
    cases signers : signerCertificates ssl info (Embedded.partition ssl cms.certificates) with
    | error failure =>
      simp only [if_neg (signerCertificates_reason signers)]
      exact ih _ ⟨inv.parsed, inv.authenticated, inv.instant⟩
    | ok matched =>
      obtain ⟨first, others⟩ := matched
      simp only [inv.parsed, Traced.value_bind]
      cases instant with
      | none =>
        rw [chainInstant_none inv.instant]
        rfl
      | some atMillis =>
        obtain ⟨clock, taken, kept⟩ := chainInstant_some inv.instant
        simp only [taken, SignerLoop.verdict, Traced.value_bind, Traced.value_pure,
          value_authenticate inv]
        cases verdict : (verifySigners ssl cms info first others (authenticatedOf ssl cms anchors)
            anchors atMillis).value with
        | ok => rfl
        | error failure =>
          have input : failure.reason ≠ .internalError :=
            value_verifySigner_reason (value_verifySigners_error verdict)
          simp only [if_neg input]
          exact ih _ ⟨rfl, by simp, kept⟩

/-! ## What the loop answers -/

theorem partition_readable {bag : List Certificate} (h : ∀ c ∈ bag, c.isReadable ssl = true) :
    (Embedded.partition ssl bag).readable = bag :=
  List.filter_eq_self.mpr h

theorem authenticatedOf_eq (h : ∀ c ∈ cms.certificates, c.isReadable ssl = true) :
    authenticatedOf ssl cms anchors =
      (authenticatedTopDown ssl cms.certificates anchors).value := by
  rw [authenticatedOf, partition_readable h]

/-- A `SignerInfo` passes when the bag is readable and one of the certificates it names passes. -/
theorem infoVerdict_ok_iff {instant : Option Int} {info : SignerInfo} :
    infoVerdict ssl cms anchors instant info = .ok () ↔
      (∀ c ∈ cms.certificates, c.isReadable ssl = true) ∧ ∃ c ∈ cms.certificates,
        SignedData.namesSigner ssl info c = true ∧ ∃ atMillis, instant = some atMillis ∧
          SignerPasses ssl cms info c
            (authenticatedTopDown ssl cms.certificates anchors).value anchors atMillis := by
  unfold infoVerdict
  rcases signerCertificates_cases info cms.certificates with
    ⟨failure, refused, _, why⟩ | ⟨first, others, matched, readable, _, mem⟩
  · rw [refused]
    simp only [reduceCtorEq, false_iff]
    rintro ⟨readable, c, hc, named, _⟩
    rcases why with ⟨d, hd, unreadable⟩ | none
    · exact absurd ((readable d hd).symm.trans unreadable) (by decide)
    · have := mem_namedBy.mpr ⟨hc, named⟩
      rw [none] at this
      cases this
  · rw [matched]
    cases instant with
    | none => simp
    | some atMillis =>
      simp only [value_verifySigners_ok_iff, authenticatedOf_eq readable, mem, mem_namedBy,
        Option.some.injEq, exists_eq_left', and_assoc]
      exact ⟨fun h => ⟨readable, h⟩, fun h => h.2⟩

/-- The only verdict on a `SignerInfo` that pre-empts the others is the broken clock's. -/
theorem infoVerdict_internal {instant : Option Int} {info : SignerInfo} {failure : Failure}
    (h : infoVerdict ssl cms anchors instant info = .error failure)
    (internal : failure.reason = .internalError) :
    instant = none ∧ failure = clockPanicked ∧ ∃ matched,
      signerCertificates ssl info (Embedded.partition ssl cms.certificates) = .ok matched := by
  unfold infoVerdict at h
  cases signers : signerCertificates ssl info (Embedded.partition ssl cms.certificates) with
  | error own =>
    rw [signers] at h
    cases h
    exact absurd internal (signerCertificates_reason signers)
  | ok matched =>
    rw [signers] at h
    cases instant with
    | none =>
      cases h
      exact ⟨rfl, rfl, matched, rfl⟩
    | some atMillis =>
      exact absurd internal (value_verifySigner_reason (value_verifySigners_error h))

theorem infoVerdict_no_instant {info : SignerInfo} :
    infoVerdict ssl cms anchors none info ≠ .ok () := by
  intro h
  obtain ⟨_, _, _, _, _, missing, _⟩ := infoVerdict_ok_iff.mp h
  cases missing

theorem loopVerdict_ok_iff {instant : Option Int} {infos : List SignerInfo}
    {firstFailure : Option Failure} :
    loopVerdict ssl cms anchors instant infos firstFailure = .ok () ↔
      ∃ info ∈ infos, infoVerdict ssl cms anchors instant info = .ok () := by
  induction infos generalizing firstFailure with
  | nil => simp [loopVerdict]
  | cons info infos ih =>
    rw [loopVerdict]
    cases verdict : infoVerdict ssl cms anchors instant info with
    | ok => simp [verdict]
    | error failure =>
      by_cases internal : failure.reason = .internalError
      · obtain ⟨rfl, _⟩ := infoVerdict_internal verdict internal
        simp [internal, infoVerdict_no_instant]
      · simp [internal, ih, verdict]

/-- What the loop reports: the broken clock, once a `SignerInfo` needs it; else the first failure
there was before it, or the first `SignerInfo`'s. -/
theorem loopVerdict_error {instant : Option Int} {infos : List SignerInfo}
    {firstFailure : Option Failure} {failure : Failure}
    (h : loopVerdict ssl cms anchors instant infos firstFailure = .error failure) :
    (failure = clockPanicked ∧ instant = none ∧ ∃ info ∈ infos, ∃ matched,
      signerCertificates ssl info (Embedded.partition ssl cms.certificates) = .ok matched) ∨
    ((instant = none → ∀ info ∈ infos, ∀ matched,
        signerCertificates ssl info (Embedded.partition ssl cms.certificates) ≠ .ok matched) ∧
      (firstFailure = some failure ∨ firstFailure = none ∧
        ((infos = [] ∧ failure = malformed "no signer info") ∨ ∃ info, infos.head? = some info ∧
          infoVerdict ssl cms anchors instant info = .error failure))) := by
  induction infos generalizing firstFailure with
  | nil =>
    right
    refine ⟨by simp, ?_⟩
    rw [loopVerdict] at h
    cases firstFailure with
    | none =>
      cases h
      exact .inr ⟨rfl, .inl ⟨rfl, rfl⟩⟩
    | some first =>
      cases h
      exact .inl rfl
  | cons info infos ih =>
    rw [loopVerdict] at h
    cases verdict : infoVerdict ssl cms anchors instant info with
    | ok =>
      rw [verdict] at h
      cases h
    | error own =>
      rw [verdict] at h
      by_cases internal : own.reason = .internalError
      · simp only [internal, ↓reduceIte] at h
        cases h
        obtain ⟨missing, panicked, matched⟩ := infoVerdict_internal verdict internal
        exact .inl ⟨panicked, missing, info, List.mem_cons_self, matched⟩
      · simp only [internal, ↓reduceIte] at h
        rcases ih h with ⟨panicked, missing, later, mem, matched⟩ | ⟨unneeded, which⟩
        · exact .inl ⟨panicked, missing, later, List.mem_cons_of_mem _ mem, matched⟩
        · right
          refine ⟨fun missing => List.forall_mem_cons.mpr ⟨?_, unneeded missing⟩, ?_⟩
          · intro matched signers
            rw [infoVerdict, signers, missing] at verdict
            cases verdict
            exact internal rfl
          · cases firstFailure with
            | some first => simpa using which
            | none =>
              have : own = failure := by simpa using which
              exact .inr ⟨rfl, .inr ⟨info, rfl, this ▸ verdict⟩⟩

end

/-! ## The envelope -/

theorem parse_signerInfos_ne_nil {der : Bytes} {limits : EnvelopeLimits} {cms : SignedData}
    (h : SignedData.parse ssl der limits = .ok cms) : cms.signerInfos ≠ [] := by
  obtain ⟨_, _, info, _, _, _, some, _, _, same, _⟩ := SignedData.parse_eq_ok h
  rw [same]
  exact some

theorem value_verifyEnvelope {der : Bytes} {cms : SignedData} {anchors : List TrustAnchor}
    {clock : Clock} (h : SignedData.parse ssl der envelopeLimits = .ok cms) :
    (verifyEnvelope ssl jiff der anchors clock).value.1 =
      (loopVerdict ssl cms anchors
        (instantOf ssl jiff (parsePayloadAttributes ssl cms.content) clock) cms.signerInfos
        none).map fun _ => parsePayloadAttributes ssl cms.content := by
  rw [verifyEnvelope, h]
  exact value_verifySignerInfos cms.signerInfos _ ⟨rfl, by simp, rfl⟩

theorem value_verifyEnvelope_ok_iff {der : Bytes} {cms : SignedData} {anchors : List TrustAnchor}
    {clock : Clock} (h : SignedData.parse ssl der envelopeLimits = .ok cms)
    {attributes : SignedAttributes} :
    (verifyEnvelope ssl jiff der anchors clock).value.1 = .ok attributes ↔
      attributes = parsePayloadAttributes ssl cms.content ∧
      (∀ c ∈ cms.certificates, c.isReadable ssl = true) ∧
      ∃ info ∈ cms.signerInfos, ∃ c ∈ cms.certificates,
        SignedData.namesSigner ssl info c = true ∧ ∃ atMillis,
          instantOf ssl jiff (parsePayloadAttributes ssl cms.content) clock = some atMillis ∧
          SignerPasses ssl cms info c
            (authenticatedTopDown ssl cms.certificates anchors).value anchors atMillis := by
  have accepted := @loopVerdict_ok_iff ssl cms anchors
    (instantOf ssl jiff (parsePayloadAttributes ssl cms.content) clock) cms.signerInfos none
  rw [value_verifyEnvelope h]
  simp only [infoVerdict_ok_iff] at accepted
  constructor
  · intro run
    cases verdict : loopVerdict ssl cms anchors
        (instantOf ssl jiff (parsePayloadAttributes ssl cms.content) clock) cms.signerInfos
          none with
    | error failure =>
      rw [verdict] at run
      cases run
    | ok =>
      rw [verdict] at run
      cases run
      obtain ⟨info, mem, readable, passes⟩ := accepted.mp verdict
      exact ⟨rfl, readable, info, mem, passes⟩
  · rintro ⟨rfl, readable, info, mem, passes⟩
    rw [accepted.mpr ⟨info, mem, readable, passes⟩]
    rfl

theorem value_verifyEnvelope_error {der : Bytes} {cms : SignedData} {anchors : List TrustAnchor}
    {clock : Clock} (h : SignedData.parse ssl der envelopeLimits = .ok cms) {failure : Failure}
    (refused : (verifyEnvelope ssl jiff der anchors clock).value.1 = .error failure) :
    (failure = clockPanicked ∧
      instantOf ssl jiff (parsePayloadAttributes ssl cms.content) clock = none ∧
      ∃ info ∈ cms.signerInfos, ∃ matched,
        signerCertificates ssl info (Embedded.partition ssl cms.certificates) = .ok matched) ∨
    ((instantOf ssl jiff (parsePayloadAttributes ssl cms.content) clock = none →
        ∀ info ∈ cms.signerInfos, ∀ matched,
          signerCertificates ssl info (Embedded.partition ssl cms.certificates) ≠ .ok matched) ∧
      ∃ info, cms.signerInfos.head? = some info ∧
        (signerCertificates ssl info (Embedded.partition ssl cms.certificates) = .error failure ∨
          ∃ first others atMillis,
            signerCertificates ssl info (Embedded.partition ssl cms.certificates) =
              .ok (first, others) ∧
            instantOf ssl jiff (parsePayloadAttributes ssl cms.content) clock = some atMillis ∧
            (verifySigner ssl cms info first
              (authenticatedTopDown ssl cms.certificates anchors).value anchors atMillis).value =
              .error failure)) := by
  rw [value_verifyEnvelope h] at refused
  have some := parse_signerInfos_ne_nil h
  revert refused
  generalize instantOf ssl jiff (parsePayloadAttributes ssl cms.content) clock = instant
  intro refused
  cases verdict : loopVerdict ssl cms anchors instant cms.signerInfos none with
  | ok =>
    rw [verdict] at refused
    cases refused
  | error own =>
    rw [verdict] at refused
    cases refused
    rcases loopVerdict_error verdict with panicked | ⟨unneeded, which⟩
    · exact .inl panicked
    · right
      refine ⟨unneeded, ?_⟩
      obtain ⟨info, first, own⟩ : ∃ info, cms.signerInfos.head? = Option.some info ∧
          infoVerdict ssl cms anchors instant info = .error failure := by
        simpa [some] using which
      have mem : info ∈ cms.signerInfos := List.mem_of_head? first
      refine ⟨info, first, ?_⟩
      unfold infoVerdict at own
      rcases signerCertificates_cases info cms.certificates with
        ⟨unmatched, signers, _⟩ | ⟨matched, others, signers, readable, _⟩
      · rw [signers] at own
        cases own
        exact .inl signers
      · rw [signers] at own
        cases instant with
        | none => exact absurd signers (unneeded rfl info mem _)
        | some atMillis =>
          have refused := value_verifySigners_error own
          rw [authenticatedOf_eq readable] at refused
          exact .inr ⟨matched, others, atMillis, signers, rfl, refused⟩

/-- **Exact acceptance of an envelope.** It is accepted iff the bag is readable and some
`SignerInfo` names a certificate of it that passes at the chain instant; the attributes are the one
parse of the content; the order of the `SignerInfo`s does not matter. A refusal is the broken
clock's once a `SignerInfo` needs it, else the first `SignerInfo`'s: the bag's verdict, or that of
the first certificate it names. -/
theorem verifyEnvelope_exact (jiff : Jiff) {der : Bytes} {cms : SignedData}
    (anchors : List TrustAnchor) (clock : Clock)
    (h : SignedData.parse ssl der envelopeLimits = .ok cms) :
    (∀ attributes, (verifyEnvelope ssl jiff der anchors clock).value.1 = .ok attributes ↔
      attributes = parsePayloadAttributes ssl cms.content ∧
      (∀ c ∈ cms.certificates, c.isReadable ssl = true) ∧
      ∃ info ∈ cms.signerInfos, ∃ c ∈ cms.certificates,
        SignedData.namesSigner ssl info c = true ∧ ∃ atMillis,
          instantOf ssl jiff (parsePayloadAttributes ssl cms.content) clock = some atMillis ∧
          SignerPasses ssl cms info c
            (authenticatedTopDown ssl cms.certificates anchors).value anchors atMillis) ∧
    (∀ der' cms', SignedData.parse ssl der' envelopeLimits = .ok cms' →
      cms'.certificates = cms.certificates → cms'.content = cms.content →
      cms'.eContentType = cms.eContentType → cms'.signerInfos.Perm cms.signerInfos →
      ∀ attributes, (verifyEnvelope ssl jiff der' anchors clock).value.1 = .ok attributes ↔
        (verifyEnvelope ssl jiff der anchors clock).value.1 = .ok attributes) ∧
    (∀ failure, (verifyEnvelope ssl jiff der anchors clock).value.1 = .error failure →
      (failure = clockPanicked ∧
        instantOf ssl jiff (parsePayloadAttributes ssl cms.content) clock = none ∧
        ∃ info ∈ cms.signerInfos, ∃ matched,
          signerCertificates ssl info (Embedded.partition ssl cms.certificates) = .ok matched) ∨
      ((instantOf ssl jiff (parsePayloadAttributes ssl cms.content) clock = none →
          ∀ info ∈ cms.signerInfos, ∀ matched,
            signerCertificates ssl info (Embedded.partition ssl cms.certificates) ≠ .ok matched) ∧
        ∃ info, cms.signerInfos.head? = some info ∧
          (signerCertificates ssl info (Embedded.partition ssl cms.certificates) =
              .error failure ∨
            ∃ first others atMillis,
              signerCertificates ssl info (Embedded.partition ssl cms.certificates) =
                .ok (first, others) ∧
              instantOf ssl jiff (parsePayloadAttributes ssl cms.content) clock = some atMillis ∧
              (verifySigner ssl cms info first
                (authenticatedTopDown ssl cms.certificates anchors).value anchors atMillis).value =
                .error failure))) := by
  refine ⟨fun attributes => value_verifyEnvelope_ok_iff h, ?_,
    fun failure refused => value_verifyEnvelope_error h refused⟩
  intro der' cms' h' sameBag sameContent sameType reordered attributes
  rw [value_verifyEnvelope_ok_iff h, value_verifyEnvelope_ok_iff h', sameBag, sameContent]
  have passes : ∀ info c authenticated atMillis,
      SignerPasses ssl cms' info c authenticated anchors atMillis ↔
        SignerPasses ssl cms info c authenticated anchors atMillis :=
    fun _ _ _ _ => signerPasses_congr sameContent sameType
  simp only [passes, reordered.mem_iff]

/-! ## An envelope that passes -/

namespace Sample

def root : Certificate := ⟨[1]⟩
def wwdr : Certificate := ⟨[2]⟩
def leaf : Certificate := ⟨[3]⟩

/-- A certificate with the leaf's issuer and serial on another key, issued by nobody. -/
def impostor : Certificate := ⟨[4]⟩

def issued (issuer subject : Certificate) : Bool :=
  [(root, root), (root, wwdr), (wwdr, leaf)].contains (issuer, subject)

/-- The envelope `30 00` embeds the leaf and its issuer, `31 00` the impostor before them. -/
def contentInfo (der : Bytes) : Option ContentInfo :=
  let signed (bag : List Certificate) : ContentInfo :=
    { certificates := bag, signerInfos := [⟨[0]⟩], content := some [0x31, 0x00],
      eContentType := none }
  if der = [0x30, 0x00] then some (signed [leaf, wwdr])
  else if der = [0x31, 0x00] then some (signed [impostor, leaf, wwdr])
  else none

/-- Answers for a world of these four certificates: the leaf, issued by `wwdr` under the root,
signed an empty payload. -/
def openSsl : OpenSsl where
  asn1 := lowTag
  decodesAsAny _ := true
  d2iX509 der := if [1] ≤ der ∧ der ≤ [4] then some (⟨der⟩, true) else none
  pemX509 _ := none
  version _ := 2
  signatureUnusedBits _ := some 0
  extensionOids _ := some []
  decodesIfPresent _ _ := true
  hasExtension c oid :=
    c == leaf && oid == signingLeafOid || c == wwdr && oid == wwdrIntermediateOid
  publicKey c := some ⟨c.der⟩
  checkIssued := issued
  subjectIsIssuerOf := issued
  verify c key := issued ⟨key.der⟩ c
  notAfterAtLeast _ _ := true
  verifyCert target untrusted store _ :=
    if target = leaf ∧ wwdr ∈ untrusted ∧ root ∈ store then some ⟨true, [leaf, wwdr, root], []⟩
    else some ⟨false, [target], [⟨20, 0, some target⟩]⟩
  shallow der :=
    match contentInfo der with
    | none => .error .malformed
    | some info => .ok ⟨info.certificates.length, info.signerInfos.length⟩
  contentInfo der := (contentInfo der).map fun info => (info, true)
  certCmp _ c := c == leaf || c == impostor
  signedAttributes _ := none
  digest _ := some 672
  verifySignedAttributes _ _ := true
  verifyContent _ key _ _ := key == ⟨leaf.der⟩
  isP256 _ := true
  ecdsa _ _ := none
  receiptPayload _ := some []
  octetStringItem _ := none
  integerItem _ := none
  displayText _ := none
  sha256 := id

/-- The envelope `30 00`, parsed. -/
def signed : SignedData :=
  { certificates := [leaf, wwdr], signerInfos := [⟨[0]⟩], eContentType := none,
    content := [0x31, 0x00] }

def anchors : List TrustAnchor := [⟨[1], root⟩]

def clock : Clock := Clock.new fun _ => some 0

end Sample

theorem verifyEnvelope_exact_sample :
    SignedData.parse Sample.openSsl [0x30, 0x00] envelopeLimits = .ok Sample.signed ∧
    (verifyEnvelope Sample.openSsl .gregorian [0x30, 0x00] Sample.anchors Sample.clock).value.1 =
      .ok (parsePayloadAttributes Sample.openSsl [0x31, 0x00]) := by
  have parsed : SignedData.parse Sample.openSsl [0x30, 0x00] envelopeLimits =
      .ok Sample.signed := by decide +kernel
  have passes : SignerPasses Sample.openSsl Sample.signed ⟨[0]⟩ Sample.leaf
      (authenticatedTopDown Sample.openSsl Sample.signed.certificates Sample.anchors).value
      Sample.anchors 0 := value_verifySigner_ok_iff.mp (by decide +kernel)
  have instant : instantOf Sample.openSsl .gregorian
      (parsePayloadAttributes Sample.openSsl [0x31, 0x00]) Sample.clock = some 0 := by
    decide +kernel
  have accepted := (verifyEnvelope_exact .gregorian Sample.anchors Sample.clock parsed).1
  exact ⟨parsed, (accepted _).mpr ⟨rfl, by decide +kernel, ⟨[0]⟩, by decide, Sample.leaf, by decide,
    by decide, 0, instant, passes⟩⟩

end ReceiptVerifier
