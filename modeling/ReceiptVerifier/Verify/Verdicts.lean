import Mathlib.Data.List.Nodup
import ReceiptVerifier.Java.ReceiptCore
import ReceiptVerifier.Lib.Attempts
import ReceiptVerifier.Verify.Envelope

/-!
# The two ports choose the same verdict

Java nests two loops that throw and catch. Rust tries the first match apart from the others, inside
a loop over lazily built state. Both are attempts in order (`Attempts.first`), over the
`SignerInfo`s and inside one over the certificates it names, so from the same facts they try the
same pairs in the same order and end alike.
-/

namespace ReceiptVerifier

open Openssl

variable {σ ε : Type}

/-! ## Rust's loop -/

/-- `verifySigners`, over any way to try a certificate. -/
def tryNamed (pair : Certificate → Traced ε (Except Failure Unit)) (first : Certificate)
    (others : List Certificate) : Traced ε (Except Failure Unit) := do
  match ← pair first with
  | .ok () => pure (.ok ())
  | .error failure =>
    if ← Traced.any (fun signer => do
        let verdict ← pair signer
        pure verdict.isOk) others then pure (.ok ())
    else pure (.error failure)

/-- `SignerLoop.authenticate`, over any walk. -/
def SignerLoop.walked (loop : SignerLoop) (walk : Traced ε (List Certificate)) :
    Traced ε (List Certificate) :=
  match loop.authenticated with
  | some authenticated => pure authenticated
  | none => walk

/-- `SignerLoop.verdict`, over any walk and any way to try a certificate. -/
def SignerLoop.tryPairs (loop : SignerLoop) (walk : Traced ε (List Certificate))
    (pair : Certificate → List Certificate → Int → Traced ε (Except Failure Unit))
    (first : Certificate) (others : List Certificate) (instant : Except Failure Int) :
    Traced ε (Except Failure Unit × Option (List Certificate)) :=
  match instant with
  | .error failure => pure (.error failure, loop.authenticated)
  | .ok atMillis => do
    let authenticated ← loop.walked walk
    let verdict ← tryNamed (fun c => pair c authenticated atMillis) first others
    pure (verdict, some authenticated)

/-- `verifySignerInfos`, over any kind of signer and any way to try a pair: `named` is
`signerCertificates`, `walk` is `authenticatedTopDown`, and `attributes` and `instant` are the parse
of the content and the chain instant. -/
def signerLoop (named : σ → Except Failure (Certificate × List Certificate))
    (walk : Traced ε (List Certificate))
    (pair : σ → Certificate → List Certificate → Int → Traced ε (Except Failure Unit))
    (attributes : SignedAttributes)
    (instant : SignedAttributes → Clock → Except Failure Int × Clock) :
    List σ → SignerLoop → Traced ε (Except Failure SignedAttributes × Clock)
  | [], loop => pure (.error (loop.firstFailure.getD (malformed "no signer info")), loop.clock)
  | signer :: signers, loop =>
    match named signer with
    | .error failure =>
      signerLoop named walk pair attributes instant signers
        { loop with firstFailure := loop.firstFailure.or (some failure) }
    | .ok (first, others) => do
      let attributes' := loop.parsed.getD attributes
      let (millis, clock) := instant attributes' loop.clock
      let (verdict, authenticated) ← loop.tryPairs walk (pair signer) first others millis
      match verdict with
      | .ok () => pure (.ok attributes', clock)
      | .error failure =>
        if failure.reason = .internalError then pure (.error failure, clock)
        else
          signerLoop named walk pair attributes instant signers
            { parsed := some attributes', authenticated := authenticated,
              firstFailure := loop.firstFailure.or (some failure), clock := clock }

/-- The loop of the code is this loop over its own `SignerInfo`s and pairs. -/
theorem verifySignerInfos_eq (ssl : OpenSsl) (jiff : Jiff) (cms : SignedData) (embedded : Embedded)
    (anchors : List TrustAnchor) (infos : List SignerInfo) (loop : SignerLoop) :
    verifySignerInfos ssl jiff cms embedded anchors infos loop =
      signerLoop (fun info => signerCertificates ssl info embedded)
        (authenticatedTopDown ssl embedded.readable anchors)
        (fun info c authenticated atMillis =>
          verifySigner ssl cms info c authenticated anchors atMillis)
        (parsePayloadAttributes ssl cms.content) (chainInstant ssl jiff) infos loop := by
  induction infos generalizing loop with
  | nil => rfl
  | cons info infos ih =>
    rw [verifySignerInfos, signerLoop]
    cases signerCertificates ssl info embedded with
    | error failure => exact ih _
    | ok named =>
      obtain ⟨first, others⟩ := named
      have same : ∀ instant, loop.verdict ssl cms embedded anchors info first others instant =
          loop.tryPairs (authenticatedTopDown ssl embedded.readable anchors)
            (fun c authenticated atMillis =>
              verifySigner ssl cms info c authenticated anchors atMillis) first others instant := by
        intro instant
        cases instant <;> rfl
      dsimp only
      rw [same]
      refine congrArg (_ >>= ·) (funext fun tried => ?_)
      rcases tried with ⟨failure | ⟨⟩, authenticated⟩
      · dsimp only
        split
        · rfl
        · exact ih _
      · rfl

/-- What is left of `tryNamed` once the first match failed is a loop that remembers that failure. -/
theorem tryOthers_eq (nothing : Failure) (pair : Certificate → Traced ε (Except Failure Unit))
    (failure : Failure) (others : List Certificate) :
    (do
      if ← Traced.any (fun signer => do
          let verdict ← pair signer
          pure verdict.isOk) others then pure (.ok ())
      else pure (.error failure)) =
      Attempts.first nothing pair others (some failure) := by
  induction others with
  | nil => rfl
  | cons c others ih =>
    cases verdict : (pair c).value with
    | ok =>
      rw [Attempts.first_cons_ok verdict]
      simp [Traced.any, bind, pure, verdict, Except.isOk, Except.toBool]
    | error own =>
      rw [Attempts.first_cons_error verdict, Option.some_or, ← ih]
      simp [Traced.any, bind, pure, verdict, Except.isOk, Except.toBool]

theorem tryNamed_eq (nothing : Failure) (pair : Certificate → Traced ε (Except Failure Unit))
    (first : Certificate) (others : List Certificate) :
    tryNamed pair first others = Attempts.first nothing pair (first :: others) none := by
  cases verdict : (pair first).value with
  | ok =>
    rw [Attempts.first_cons_ok verdict]
    simp [tryNamed, bind, pure, verdict]
  | error failure =>
    rw [Attempts.first_cons_error verdict, Option.none_or, ← tryOthers_eq]
    simp [tryNamed, bind, verdict]

/-- One signer on its own. -/
def trySigner (named : σ → Except Failure (Certificate × List Certificate))
    (pair : σ → Certificate → Traced ε (Except Failure Unit)) (signer : σ) :
    Traced ε (Except Failure Unit) :=
  match named signer with
  | .error failure => pure (.error failure)
  | .ok (first, others) => tryNamed (pair signer) first others

section

variable {named : σ → Except Failure (Certificate × List Certificate)}
  {walk : Traced ε (List Certificate)}
  {pair : σ → Certificate → List Certificate → Int → Traced ε (Except Failure Unit)}
  {attributes : SignedAttributes} {instant : SignedAttributes → Clock → Except Failure Int × Clock}
  {answers : Clock → Prop} {atMillis : Int}

/-- What the loop's state may hold when the clock answers. -/
structure LoopHolds (walk : Traced ε (List Certificate)) (attributes : SignedAttributes)
    (answers : Clock → Prop) (loop : SignerLoop) : Prop where
  parsed : loop.parsed.getD attributes = attributes
  authenticated : ∀ list ∈ loop.authenticated, list = walk.value
  clock : answers loop.clock

theorem tryPairs_eq {loop : SignerLoop} (holds : LoopHolds walk attributes answers loop)
    (silent : walk.events = []) (tried : Certificate → List Certificate → Int →
      Traced ε (Except Failure Unit)) (first : Certificate) (others : List Certificate) :
    loop.tryPairs walk tried first others (.ok atMillis) =
      ⟨((tryNamed (fun c => tried c walk.value atMillis) first others).value, some walk.value),
        (tryNamed (fun c => tried c walk.value atMillis) first others).events⟩ := by
  have walked : loop.walked walk = ⟨walk.value, []⟩ := by
    unfold SignerLoop.walked
    cases known : loop.authenticated with
    | none => rw [← silent]
    | some list =>
      rw [holds.authenticated list known]
      rfl
  simp [SignerLoop.tryPairs, bind, pure, walked]

/-- The lazily built state changes nothing: the loop is its signers' attempts in order. -/
theorem signerLoop_eq (silent : walk.events = [])
    (answer : ∀ clock, answers clock →
      ∃ clock', instant attributes clock = (.ok atMillis, clock') ∧ answers clock')
    {signers : List σ}
    (input : ∀ signer ∈ signers, ∀ failure, (trySigner named
      (fun signer c => pair signer c walk.value atMillis) signer).value = .error failure →
      failure.reason ≠ .internalError)
    {loop : SignerLoop} (holds : LoopHolds walk attributes answers loop) :
    (signerLoop named walk pair attributes instant signers loop).events =
      (Attempts.first (malformed "no signer info") (trySigner named
        fun signer c => pair signer c walk.value atMillis) signers loop.firstFailure).events ∧
    (signerLoop named walk pair attributes instant signers loop).value.1 =
      (Attempts.first (malformed "no signer info") (trySigner named
        fun signer c => pair signer c walk.value atMillis) signers
        loop.firstFailure).value.map fun _ => attributes := by
  induction signers generalizing loop with
  | nil => exact ⟨rfl, rfl⟩
  | cons signer signers ih =>
    rw [List.forall_mem_cons] at input
    cases names : named signer with
    | error failure =>
      have tried : (trySigner named (fun signer c => pair signer c walk.value atMillis) signer) =
          ⟨.error failure, []⟩ := by
        rw [trySigner, names]
        rfl
      rw [signerLoop, names, Attempts.first_cons_error (by rw [tried]), tried, List.nil_append]
      exact ih input.2 ⟨holds.parsed, holds.authenticated, holds.clock⟩
    | ok matched =>
      obtain ⟨first, others⟩ := matched
      obtain ⟨clock, asked, kept⟩ := answer loop.clock holds.clock
      have tried : (trySigner named (fun signer c => pair signer c walk.value atMillis) signer) =
          tryNamed (fun c => pair signer c walk.value atMillis) first others := by
        rw [trySigner, names]
      rw [tried] at input
      simp only [signerLoop, names, holds.parsed, asked, tryPairs_eq holds silent]
      cases verdict :
        (tryNamed (fun c => pair signer c walk.value atMillis) first others).value with
      | ok =>
        rw [Attempts.first_cons_ok (by rw [tried, verdict]), tried]
        simp only [Traced.events_bind, Traced.value_bind]
        exact ⟨List.append_nil _, rfl⟩
      | error failure =>
        have own := input.1 failure verdict
        rw [Attempts.first_cons_error (by rw [tried, verdict]), tried]
        simp only [Traced.events_bind, Traced.value_bind, if_neg own]
        have next : LoopHolds walk attributes answers
            ⟨some attributes, some walk.value, loop.firstFailure.or (some failure), clock⟩ :=
          ⟨rfl, by simp, kept⟩
        obtain ⟨events, value⟩ := ih input.2 next
        exact ⟨by rw [events], value⟩

end

section

variable {σ' ε' : Type} {walk : Traced ε (List Certificate)} {walk' : Traced ε' (List Certificate)}
  {pair : σ → Certificate → List Certificate → Int → Traced ε (Except Failure Unit)}
  {pair' : σ' → Certificate → List Certificate → Int → Traced ε' (Except Failure Unit)}
  {attributes : SignedAttributes} {instant : SignedAttributes → Clock → Except Failure Int × Clock}

theorem value_tryNamed_congr {tried : Certificate → Traced ε (Except Failure Unit)}
    {tried' : Certificate → Traced ε' (Except Failure Unit)}
    (same : ∀ c, (tried c).value = (tried' c).value) (first : Certificate)
    (others : List Certificate) :
    (tryNamed tried first others).value = (tryNamed tried' first others).value := by
  simp only [tryNamed, Traced.value_bind, same]
  cases (tried' first).value with
  | ok => rfl
  | error failure =>
    simp only [Traced.value_bind, Traced.value_any, Traced.value_pure, same]
    split <;> rfl

/-- What a loop answers does not depend on what is noted on the way. -/
theorem value_signerLoop_congr (f : σ → σ')
    (named : σ' → Except Failure (Certificate × List Certificate))
    (sameWalk : walk.value = walk'.value)
    (same : ∀ signer c authenticated atMillis,
      (pair signer c authenticated atMillis).value =
        (pair' (f signer) c authenticated atMillis).value)
    (signers : List σ) (loop : SignerLoop) :
    (signerLoop (fun signer => named (f signer)) walk pair attributes instant signers loop).value =
      (signerLoop named walk' pair' attributes instant (signers.map f) loop).value := by
  induction signers generalizing loop with
  | nil => rfl
  | cons signer signers ih =>
    simp only [signerLoop, List.map_cons]
    cases named (f signer) with
    | error failure => exact ih _
    | ok matched =>
      obtain ⟨first, others⟩ := matched
      have walked : (loop.walked walk).value = (loop.walked walk').value := by
        unfold SignerLoop.walked
        cases loop.authenticated with
        | none => exact sameWalk
        | some list => rfl
      have tried : ∀ millis, (loop.tryPairs walk (pair signer) first others millis).value =
          (loop.tryPairs walk' (pair' (f signer)) first others millis).value := by
        intro millis
        cases millis with
        | error failure => rfl
        | ok atMillis =>
          simp only [SignerLoop.tryPairs, Traced.value_bind, Traced.value_pure, walked]
          rw [value_tryNamed_congr fun c => same signer c _ _]
      simp only [Traced.value_bind, tried]
      split
      · rfl
      · split
        · rfl
        · exact ih _

end

/-! ## Java's loops -/

open Java

/-- `throw first` where it is still null. -/
def nullPointer : Thrown := .ofNullable none

/-- An attempt throws nothing but the library's own exception. -/
def Checked (x : Traced ε (Except Thrown Unit)) : Prop :=
  ∀ e, x.value = .error e → ∃ failure, e = .verification failure

theorem getD_ofNullable (first : Option Failure) :
    (first.map Thrown.verification).getD nullPointer = .ofNullable first := by
  cases first <;> rfl

theorem or_verification (first : Option Failure) (failure : Failure) :
    (first.map Thrown.verification).or (some (.verification failure)) =
      (first.or (some failure)).map .verification := by
  cases first <;> rfl

theorem javaVerifySigner_eq {pair : Certificate → Traced ε (Except Thrown Unit)}
    {certificates : List Certificate} (checked : ∀ c ∈ certificates, Checked (pair c))
    (first : Option Failure) :
    ReceiptCore.verifySigner pair certificates first =
      Attempts.first nullPointer pair certificates (first.map .verification) := by
  induction certificates generalizing first with
  | nil => rw [ReceiptCore.verifySigner, Attempts.first, getD_ofNullable]
  | cons c certificates ih =>
    rw [List.forall_mem_cons] at checked
    cases verdict : (pair c).value with
    | ok =>
      rw [Attempts.first_cons_ok verdict]
      simp [ReceiptCore.verifySigner, bind, pure, verdict]
    | error e =>
      obtain ⟨failure, rfl⟩ := checked.1 e verdict
      rw [Attempts.first_cons_error verdict, or_verification, ← ih checked.2]
      simp [ReceiptCore.verifySigner, bind, verdict]

/-- One signer of Java's outer loop on its own. -/
def javaTrySigner (named : σ → Except Thrown (List Certificate))
    (pair : σ → Certificate → Traced ε (Except Thrown Unit)) (signer : σ) :
    Traced ε (Except Thrown Unit) :=
  match named signer with
  | .error e => pure (.error e)
  | .ok certificates => ReceiptCore.verifySigner (pair signer) certificates none

/-- What `verifySignature` does with the verdict on one signer. -/
def afterSigner (rest : Failure → Traced ε (Except Thrown Unit)) :
    Except Thrown Unit → Traced ε (Except Thrown Unit)
  | .ok () => pure (.ok ())
  | .error (.verification e) => rest e
  | .error e => pure (.error e)

theorem javaVerifySignature_eq {named : σ → Except Thrown (List Certificate)}
    {pair : σ → Certificate → Traced ε (Except Thrown Unit)} {signers : List σ}
    (checked : ∀ signer ∈ signers, Checked (javaTrySigner named pair signer))
    (first : Option Failure) :
    ReceiptCore.verifySignature named pair signers first =
      Attempts.first nullPointer (javaTrySigner named pair) signers
        (first.map .verification) := by
  induction signers generalizing first with
  | nil => rw [ReceiptCore.verifySignature, Attempts.first, getD_ofNullable]
  | cons signer signers ih =>
    rw [List.forall_mem_cons] at checked
    have step : ReceiptCore.verifySignature named pair (signer :: signers) first =
        javaTrySigner named pair signer >>= afterSigner fun e =>
          ReceiptCore.verifySignature named pair signers (first.or (some e)) := by
      rw [ReceiptCore.verifySignature, javaTrySigner]
      cases named signer <;> rfl
    rw [step]
    cases verdict : (javaTrySigner named pair signer).value with
    | ok =>
      rw [Attempts.first_cons_ok verdict]
      simp [bind, pure, afterSigner, verdict]
    | error e =>
      obtain ⟨failure, rfl⟩ := checked.1 e verdict
      rw [Attempts.first_cons_error verdict, or_verification, ← ih checked.2]
      simp [bind, afterSigner, verdict]

/-! ## The certificates a signer names -/

/-- Every match once, in order: what both ports try for one signer. -/
def distinctMatches (matched : Certificate → Bool) (bag : List Certificate) : List Certificate :=
  ReceiptCore.collectMatches matched bag []

theorem nodup_collectMatches {matched : Certificate → Bool} (bag : List Certificate)
    {found : List Certificate} (distinct : found.Nodup) :
    (ReceiptCore.collectMatches matched bag found).Nodup := by
  fun_induction ReceiptCore.collectMatches matched bag found with
  | case1 => exact distinct
  | case2 c bag found new ih =>
    apply ih
    have unseen : c ∉ found := by simpa using (Bool.and_eq_true_iff.mp new).2
    rw [List.nodup_append]
    refine ⟨distinct, List.pairwise_singleton _ c, ?_⟩
    rintro kept mem _ last rfl
    exact unseen (List.mem_singleton.mp last ▸ mem)
  | case3 c bag found old ih => exact ih distinct

theorem collectSigners_some (ssl : OpenSsl) (info : SignerInfo) (bag : List Certificate)
    (kept : Certificate) (others : List Certificate) :
    ∃ others', collectSigners ssl info bag (some kept) others = some (kept, others') ∧
      kept :: others' = ReceiptCore.collectMatches (SignedData.namesSigner ssl info) bag
        (kept :: others) := by
  induction bag generalizing others with
  | nil => exact ⟨others, rfl, rfl⟩
  | cons c bag ih =>
    have seen : ((kept :: others).any fun kept => kept.sameAs c) = (kept :: others).contains c := by
      rw [Bool.eq_iff_iff, any_sameAs, List.contains_iff_mem]
    rw [collectSigners, ReceiptCore.collectMatches]
    cases named : SignedData.namesSigner ssl info c with
    | false => exact ih others
    | true =>
      simp only [seen]
      cases (kept :: others).contains c with
      | true => exact ih others
      | false => exact ih (others ++ [c])

theorem collectSigners_eq (ssl : OpenSsl) (info : SignerInfo) (bag : List Certificate) :
    collectSigners ssl info bag none [] =
      match distinctMatches (SignedData.namesSigner ssl info) bag with
      | [] => none
      | first :: others => some (first, others) := by
  unfold distinctMatches
  induction bag with
  | nil => rfl
  | cons c bag ih =>
    rw [collectSigners, ReceiptCore.collectMatches]
    cases named : SignedData.namesSigner ssl info c with
    | false => exact ih
    | true =>
      obtain ⟨others, collected, same⟩ := collectSigners_some ssl info bag c []
      rw [if_neg (by decide), if_pos (by simp), List.nil_append, ← same]
      exact collected

theorem distinctMatches_congr {matched matched' : Certificate → Bool} {bag : List Certificate}
    (same : ∀ c ∈ bag, matched c = matched' c) :
    distinctMatches matched bag = distinctMatches matched' bag := by
  have all : ∀ (bag found : List Certificate), (∀ c ∈ bag, matched c = matched' c) →
      ReceiptCore.collectMatches matched bag found =
        ReceiptCore.collectMatches matched' bag found := by
    intro bag
    induction bag with
    | nil => exact fun _ _ => rfl
    | cons c bag ih =>
      intro found same
      rw [List.forall_mem_cons] at same
      rw [ReceiptCore.collectMatches, ReceiptCore.collectMatches, same.1, ih _ same.2,
        ih _ same.2]
  exact all bag [] same

/-- The first of the distinct matches is the first match. -/
theorem distinctMatches_head (ssl : OpenSsl) (info : SignerInfo) (bag : List Certificate) :
    (distinctMatches (SignedData.namesSigner ssl info) bag).head? =
      (namedBy ssl info bag).head? := by
  have collected := collectSigners_eq ssl info bag
  rcases collectSigners_none ssl info bag with ⟨none, collected'⟩ |
    ⟨first, others, collected', head, -⟩
  · rw [collected'] at collected
    cases found : distinctMatches (SignedData.namesSigner ssl info) bag with
    | nil => rw [none]
    | cons first others =>
      rw [found] at collected
      cases collected
  · rw [collected'] at collected
    cases found : distinctMatches (SignedData.namesSigner ssl info) bag with
    | nil =>
      rw [found] at collected
      cases collected
    | cons first others =>
      rw [found] at collected
      cases collected
      exact head.symm

theorem mem_collectMatches {matched : Certificate → Bool} (bag : List Certificate)
    {found : List Certificate} {c : Certificate}
    (mem : c ∈ ReceiptCore.collectMatches matched bag found) :
    c ∈ found ∨ c ∈ bag ∧ matched c = true := by
  fun_induction ReceiptCore.collectMatches matched bag found with
  | case1 => exact .inl mem
  | case2 d bag found new ih =>
    have own : matched d = true := (Bool.and_eq_true_iff.mp new).1
    rcases ih mem with kept | ⟨inside, named⟩
    · rcases List.mem_append.mp kept with kept | last
      · exact .inl kept
      · rw [List.mem_singleton.mp last]
        exact .inr ⟨List.mem_cons_self, own⟩
    · exact .inr ⟨List.mem_cons_of_mem _ inside, named⟩
  | case3 d bag found old ih =>
    rcases ih mem with kept | ⟨inside, named⟩
    · exact .inl kept
    · exact .inr ⟨List.mem_cons_of_mem _ inside, named⟩

/-! ## What is tried, in both ports -/

/-- Trying a pair, noted with the index of the signer. -/
def note {φ : Type} (verdict : SignerInfo → Certificate → Except φ Unit)
    (signer : SignerInfo × Nat) (c : Certificate) : Traced (Nat × Certificate) (Except φ Unit) := do
  Traced.emit (signer.2, c)
  pure (verdict signer.1 c)

/-- Rust's loop over an envelope, noting what it tries. -/
def rustTried (ssl : OpenSsl) (jiff : Jiff) (cms : SignedData) (anchors : List TrustAnchor)
    (clock : Clock) : Traced (Nat × Certificate) (Except Failure SignedAttributes × Clock) :=
  signerLoop
    (fun signer => signerCertificates ssl signer.1 (Embedded.partition ssl cms.certificates))
    (pure (authenticatedOf ssl cms anchors))
    (fun signer c authenticated atMillis => note (fun info c =>
      (verifySigner ssl cms info c authenticated anchors atMillis).value) signer c)
    (parsePayloadAttributes ssl cms.content) (chainInstant ssl jiff) cms.signerInfos.zipIdx
    { clock := clock }

/-- Java's loops over signers and certificates, noting what they try. -/
def javaTried (bouncy : Bouncy) (authenticated : List Certificate) (instant : Int)
    (signers : List SignerInfo) (certificates : List Certificate) :
    Traced (Nat × Certificate) (Except Thrown Unit) :=
  ReceiptCore.verifySignature
    (fun signer : SignerInfo × Nat => ReceiptCore.signers (bouncy.sidMatches signer.1) certificates)
    (note (ReceiptCore.verifyPair bouncy authenticated instant)) signers.zipIdx none

/-- Noting what is tried changes no answer. -/
theorem value_rustTried {ssl : OpenSsl} {jiff : Jiff} {der : Bytes} {cms : SignedData}
    (parsed : SignedData.parse ssl der envelopeLimits = .ok cms) (anchors : List TrustAnchor)
    (clock : Clock) :
    (rustTried ssl jiff cms anchors clock).value =
      (verifyEnvelope ssl jiff der anchors clock).value := by
  rw [verifyEnvelope, parsed]
  dsimp only
  rw [verifySignerInfos_eq, rustTried]
  have zipped : cms.signerInfos = cms.signerInfos.zipIdx.map Prod.fst := by simp
  conv => rhs; rw [zipped]
  apply value_signerLoop_congr Prod.fst
    (fun info => signerCertificates ssl info (Embedded.partition ssl cms.certificates))
  · rfl
  · exact fun _ _ _ _ => rfl

section

variable {ssl : OpenSsl} {cms : SignedData} {anchors : List TrustAnchor} {atMillis : Int}

/-- Rust's verdict on a pair. -/
def rustVerdict (ssl : OpenSsl) (cms : SignedData) (anchors : List TrustAnchor) (atMillis : Int)
    (info : SignerInfo) (c : Certificate) : Except Failure Unit :=
  (verifySigner ssl cms info c (authenticatedOf ssl cms anchors) anchors atMillis).value

/-- The certificates of the bag a `SignerInfo` names, each once. -/
def triedFor (ssl : OpenSsl) (cms : SignedData) (info : SignerInfo) : List Certificate :=
  distinctMatches (SignedData.namesSigner ssl info) cms.certificates

/-- What is tried for one signer. -/
def attemptFor {φ : Type} (unnamed nothing : φ) (verdict : SignerInfo → Certificate → Except φ Unit)
    (ssl : OpenSsl) (cms : SignedData) (signer : SignerInfo × Nat) :
    Traced (Nat × Certificate) (Except φ Unit) :=
  match triedFor ssl cms signer.1 with
  | [] => pure (.error unnamed)
  | first :: others => Attempts.first nothing (note verdict signer) (first :: others) none

def notEmbedded : Failure := malformed "signer certificate not embedded"

theorem trySigner_eq (readable : ∀ c ∈ cms.certificates, c.isReadable ssl = true)
    (nothing : Failure)
    (signer : SignerInfo × Nat) :
    trySigner (fun signer : SignerInfo × Nat =>
        signerCertificates ssl signer.1 (Embedded.partition ssl cms.certificates))
      (note (rustVerdict ssl cms anchors atMillis)) signer =
      attemptFor notEmbedded nothing (rustVerdict ssl cms anchors atMillis) ssl cms signer := by
  have none : (Embedded.partition ssl cms.certificates).unreadable = [] :=
    List.filter_eq_nil_iff.mpr fun c hc => by simp [readable c hc]
  rw [trySigner, attemptFor, signerCertificates, none, partition_readable readable,
    collectSigners_eq, triedFor]
  cases distinctMatches (SignedData.namesSigner ssl signer.1) cms.certificates with
  | nil => rfl
  | cons first others => exact tryNamed_eq nothing _ first others

theorem javaTrySigner_eq {bouncy : Bouncy} {verdict : SignerInfo → Certificate → Except Thrown Unit}
    {signer : SignerInfo × Nat}
    (sameNames : ∀ c ∈ cms.certificates,
      bouncy.sidMatches signer.1 c = SignedData.namesSigner ssl signer.1 c)
    (checked : ∀ c ∈ triedFor ssl cms signer.1, Checked (note verdict signer c)) :
    javaTrySigner (fun signer : SignerInfo × Nat =>
        ReceiptCore.signers (bouncy.sidMatches signer.1) cms.certificates)
      (note verdict) signer =
      attemptFor (.verification notEmbedded) nullPointer verdict ssl cms signer := by
  have found : ReceiptCore.collectMatches (bouncy.sidMatches signer.1) cms.certificates [] =
      triedFor ssl cms signer.1 := distinctMatches_congr sameNames
  rw [javaTrySigner, attemptFor, ReceiptCore.signers, found]
  cases tried : triedFor ssl cms signer.1 with
  | nil => rfl
  | cons first others =>
    rw [tried] at checked
    exact javaVerifySigner_eq checked none

/-- For one signer every certificate it names is tried once, in order, until one passes. -/
theorem covers_attemptFor {φ : Type} {unnamed nothing : φ}
    {verdict : SignerInfo → Certificate → Except φ Unit} (signer : SignerInfo × Nat) :
    Attempts.Covers ((triedFor ssl cms signer.1).map fun c => (signer.2, c))
      (attemptFor unnamed nothing verdict ssl cms signer) := by
  unfold attemptFor
  cases tried : triedFor ssl cms signer.1 with
  | nil => exact ⟨List.nil_prefix, fun _ _ => rfl⟩
  | cons first others =>
    have each : ∀ c ∈ first :: others, Attempts.Covers [(signer.2, c)] (note verdict signer c) :=
      fun c _ => ⟨List.prefix_rfl, fun _ _ => rfl⟩
    rw [List.map_eq_flatMap]
    exact Attempts.Covers.first each none

theorem stopsAtPass_attemptFor {φ : Type} {unnamed nothing : φ}
    {verdict : SignerInfo → Certificate → Except φ Unit} {passes : Nat × Certificate → Prop}
    {signer : SignerInfo × Nat}
    (own : ∀ c, passes (signer.2, c) ↔ verdict signer.1 c = .ok ()) :
    Attempts.StopsAtPass passes (attemptFor unnamed nothing verdict ssl cms signer) := by
  unfold attemptFor
  cases triedFor ssl cms signer.1 with
  | nil =>
    constructor
    · rintro ⟨⟩
    · intro _ _ e mem
      cases mem
  | cons first others =>
    refine Attempts.StopsAtPass.first (fun c _ => ⟨?_, ?_⟩) none
    · intro passed
      exact ⟨[], (signer.2, c), rfl, (own c).mpr passed, by simp⟩
    · intro failure failed e mem
      rw [List.mem_singleton.mp mem, own]
      intro passed
      have passed : (note verdict signer c).value = .ok () := passed
      rw [passed] at failed
      cases failed

end

/-! ## The same facts -/

/-- The reason of what Java throws: an unchecked exception has none. -/
def thrownReason : Thrown → Option Reason
  | .verification failure => some failure.reason
  | .unchecked _ => none

def failureReason (failure : Failure) : Option Reason := some failure.reason

/-- Both ports are given the same names and the same verdict for each pair named, up to its text. -/
structure SameFacts (ssl : OpenSsl) (cms : SignedData) (anchors : List TrustAnchor) (atMillis : Int)
    (bouncy : Bouncy) (authenticated : List Certificate) (instant : Int) : Prop where
  names : ∀ info ∈ cms.signerInfos, ∀ c ∈ cms.certificates,
    bouncy.sidMatches info c = SignedData.namesSigner ssl info c
  verdicts : ∀ info ∈ cms.signerInfos, ∀ c ∈ cms.certificates,
    SignedData.namesSigner ssl info c = true →
      Attempts.outcome thrownReason (ReceiptCore.verifyPair bouncy authenticated instant info c) =
        Attempts.outcome failureReason (rustVerdict ssl cms anchors atMillis info c)

section

variable {ssl : OpenSsl} {jiff : Jiff} {cms : SignedData} {anchors : List TrustAnchor}
  {atMillis : Int} {bouncy : Bouncy} {authenticated : List Certificate} {instant : Int}

theorem mem_triedFor {info : SignerInfo} {c : Certificate} (tried : c ∈ triedFor ssl cms info) :
    c ∈ cms.certificates ∧ SignedData.namesSigner ssl info c = true := by
  rcases mem_collectMatches _ tried with none | found
  · cases none
  · exact found

theorem thrown_of_outcome {x : Except Thrown Unit} {failure : Failure}
    (same : Attempts.outcome thrownReason x = Attempts.outcome failureReason (.error failure)) :
    ∃ thrown, x = .error (.verification thrown) ∧ thrown.reason = failure.reason := by
  cases x with
  | ok => cases same
  | error e =>
    cases e with
    | verification thrown => exact ⟨thrown, rfl, Option.some.inj (Option.some.inj same)⟩
    | unchecked name => cases same

theorem checked_of_outcome {x : Except Thrown Unit} {y : Except Failure Unit}
    (same : Attempts.outcome thrownReason x = Attempts.outcome failureReason y) {e : Thrown}
    (thrown : x = .error e) : ∃ failure, e = .verification failure := by
  rw [thrown] at same
  cases y with
  | ok => cases same
  | error failure =>
    obtain ⟨own, threw, -⟩ := thrown_of_outcome same
    exact ⟨own, Except.error.inj threw⟩

theorem mem_signerInfos {signer : SignerInfo × Nat} (mem : signer ∈ cms.signerInfos.zipIdx) :
    signer.1 ∈ cms.signerInfos :=
  List.fst_mem_of_mem_zipIdx mem

namespace SameFacts

variable (facts : SameFacts ssl cms anchors atMillis bouncy authenticated instant)

include facts

theorem checked_note {signer : SignerInfo × Nat} (mem : signer.1 ∈ cms.signerInfos)
    {c : Certificate} (tried : c ∈ triedFor ssl cms signer.1) :
    Checked (note (ReceiptCore.verifyPair bouncy authenticated instant) signer c) := by
  intro e thrown
  obtain ⟨inside, named⟩ := mem_triedFor tried
  exact checked_of_outcome (facts.verdicts signer.1 mem c inside named) thrown

/-- One signer, in both ports. -/
theorem same_attemptFor {signer : SignerInfo × Nat} (mem : signer.1 ∈ cms.signerInfos) :
    Attempts.Same thrownReason failureReason
      (attemptFor (.verification notEmbedded) nullPointer
        (ReceiptCore.verifyPair bouncy authenticated instant) ssl cms signer)
      (attemptFor notEmbedded (malformed "no signer info") (rustVerdict ssl cms anchors atMillis)
        ssl cms signer) := by
  unfold attemptFor
  cases tried : triedFor ssl cms signer.1 with
  | nil => exact ⟨rfl, rfl⟩
  | cons first others =>
    refine Attempts.Same.first (fun c hc => ⟨rfl, ?_⟩) rfl nofun
    rw [← tried] at hc
    obtain ⟨inside, named⟩ := mem_triedFor hc
    exact facts.verdicts signer.1 mem c inside named

theorem checked_javaTrySigner {signer : SignerInfo × Nat} (mem : signer.1 ∈ cms.signerInfos) :
    Checked (javaTrySigner (fun signer : SignerInfo × Nat =>
        ReceiptCore.signers (bouncy.sidMatches signer.1) cms.certificates)
      (note (ReceiptCore.verifyPair bouncy authenticated instant)) signer) := by
  intro e thrown
  rw [javaTrySigner_eq (facts.names signer.1 mem) fun c => facts.checked_note mem] at thrown
  exact checked_of_outcome (facts.same_attemptFor mem).2 thrown

/-- Java's loops are its signers' attempts in order. -/
theorem javaTried_eq :
    javaTried bouncy authenticated instant cms.signerInfos cms.certificates =
      Attempts.first nullPointer
        (attemptFor (.verification notEmbedded) nullPointer
          (ReceiptCore.verifyPair bouncy authenticated instant) ssl cms)
        cms.signerInfos.zipIdx none := by
  rw [javaTried, javaVerifySignature_eq fun signer mem =>
    facts.checked_javaTrySigner (mem_signerInfos mem)]
  refine Attempts.first_congr fun signer mem => ?_
  exact javaTrySigner_eq (facts.names signer.1 (mem_signerInfos mem)) fun c =>
    facts.checked_note (mem_signerInfos mem)

end SameFacts

/-- What Rust tries for each signer, in order. -/
def rustAttempts (ssl : OpenSsl) (cms : SignedData) (anchors : List TrustAnchor) (atMillis : Int) :
    Traced (Nat × Certificate) (Except Failure Unit) :=
  Attempts.first (malformed "no signer info")
    (attemptFor notEmbedded (malformed "no signer info") (rustVerdict ssl cms anchors atMillis)
      ssl cms) cms.signerInfos.zipIdx none

/-- A signer's own failure: it names no certificate, or its first match's verdict. -/
theorem value_attemptFor_error {signer : SignerInfo × Nat} {nothing failure : Failure}
    (failed : (attemptFor notEmbedded nothing (rustVerdict ssl cms anchors atMillis) ssl cms
      signer).value = .error failure) :
    (namedBy ssl signer.1 cms.certificates = [] ∧ failure = notEmbedded) ∨
    ∃ c, (namedBy ssl signer.1 cms.certificates).head? = some c ∧
      rustVerdict ssl cms anchors atMillis signer.1 c = .error failure := by
  have head := distinctMatches_head ssl signer.1 cms.certificates
  unfold attemptFor triedFor at failed
  cases tried : distinctMatches (SignedData.namesSigner ssl signer.1) cms.certificates with
  | nil =>
    rw [tried] at failed head
    cases failed
    exact .inl ⟨List.head?_eq_none_iff.mp head.symm, rfl⟩
  | cons first others =>
    rw [tried] at failed head
    have refused := Attempts.value_first_error (a := first) (l := others) failed
    exact .inr ⟨first, head.symm, refused⟩

theorem value_attemptFor_reason {signer : SignerInfo × Nat} {nothing failure : Failure}
    (failed : (attemptFor notEmbedded nothing (rustVerdict ssl cms anchors atMillis) ssl cms
      signer).value = .error failure) : failure.reason ≠ .internalError := by
  rcases value_attemptFor_error failed with ⟨-, rfl⟩ | ⟨c, -, refused⟩
  · decide
  · exact value_verifySigner_reason refused

/-- Rust's loop is its signers' attempts in order. -/
theorem rustTried_eq (anchors : List TrustAnchor)
    (readable : ∀ c ∈ cms.certificates, c.isReadable ssl = true) {clock : Clock}
    (answers : instantOf ssl jiff (parsePayloadAttributes ssl cms.content) clock = some atMillis) :
    (rustTried ssl jiff cms anchors clock).events = (rustAttempts ssl cms anchors atMillis).events ∧
    (rustTried ssl jiff cms anchors clock).value.1 =
      (rustAttempts ssl cms anchors atMillis).value.map fun _ =>
        parsePayloadAttributes ssl cms.content := by
  have tried : trySigner (fun signer : SignerInfo × Nat =>
        signerCertificates ssl signer.1 (Embedded.partition ssl cms.certificates))
      (note (rustVerdict ssl cms anchors atMillis)) =
      attemptFor notEmbedded (malformed "no signer info") (rustVerdict ssl cms anchors atMillis) ssl
        cms := funext (trySigner_eq readable _)
  have answer : ∀ clock,
      instantOf ssl jiff (parsePayloadAttributes ssl cms.content) clock = some atMillis →
      ∃ clock', chainInstant ssl jiff (parsePayloadAttributes ssl cms.content) clock =
          (.ok atMillis, clock') ∧
        instantOf ssl jiff (parsePayloadAttributes ssl cms.content) clock' = some atMillis :=
    fun _ => chainInstant_some
  unfold rustAttempts
  rw [← tried]
  refine signerLoop_eq rfl answer (fun signer _ failure failed => ?_) ⟨rfl, by simp, answers⟩
  exact value_attemptFor_reason (tried ▸ failed)

/-- A pair that passes. -/
def PairPasses (ssl : OpenSsl) (cms : SignedData) (anchors : List TrustAnchor) (atMillis : Int)
    (tried : Nat × Certificate) : Prop :=
  ∃ info, cms.signerInfos[tried.1]? = some info ∧
    rustVerdict ssl cms anchors atMillis info tried.2 = .ok ()

theorem stopsAtPass_rustAttempts :
    Attempts.StopsAtPass (PairPasses ssl cms anchors atMillis)
      (rustAttempts ssl cms anchors atMillis) := by
  refine Attempts.StopsAtPass.first (fun signer mem => stopsAtPass_attemptFor fun c => ?_) none
  have at_index : cms.signerInfos[signer.2]? = some signer.1 := List.mem_zipIdx_iff_getElem?.mp mem
  simp [PairPasses, at_index]

theorem nodup_rustAttempts : (rustAttempts ssl cms anchors atMillis).events.Nodup := by
  have covers : Attempts.Covers (cms.signerInfos.zipIdx.flatMap fun signer =>
        (triedFor ssl cms signer.1).map fun c => (signer.2, c))
      (rustAttempts ssl cms anchors atMillis) :=
    Attempts.Covers.first (fun signer _ => covers_attemptFor signer) none
  refine List.Nodup.sublist covers.1.sublist ?_
  rw [List.nodup_flatMap]
  constructor
  · intro signer _
    exact List.Nodup.map (fun c c' same => (Prod.mk.inj same).2)
      (nodup_collectMatches cms.certificates List.nodup_nil)
  · have indices : (cms.signerInfos.zipIdx.map Prod.snd).Nodup := by
      rw [List.zipIdx_map_snd]
      exact List.nodup_range'
    refine List.Pairwise.imp ?_ (List.pairwise_map.mp indices)
    intro signer signer' distinct tried inFirst inSecond
    obtain ⟨c, -, rfl⟩ := List.mem_map.mp inFirst
    obtain ⟨c', -, same⟩ := List.mem_map.mp inSecond
    exact distinct (Prod.mk.inj same).1.symm

/-- A refusal is the first signer's. -/
theorem value_rustAttempts_error (some : cms.signerInfos ≠ []) {failure : Failure}
    (failed : (rustAttempts ssl cms anchors atMillis).value = .error failure) :
    ∃ info, cms.signerInfos.head? = .some info ∧
      ((namedBy ssl info cms.certificates = [] ∧ failure = notEmbedded) ∨
        ∃ c, (namedBy ssl info cms.certificates).head? = .some c ∧
          rustVerdict ssl cms anchors atMillis info c = .error failure) := by
  unfold rustAttempts at failed
  cases infos : cms.signerInfos with
  | nil => exact absurd infos some
  | cons info rest =>
    rw [infos, List.zipIdx_cons] at failed
    exact ⟨info, rfl, value_attemptFor_error (Attempts.value_first_error failed)⟩

theorem SameFacts.same_rustAttempts
    (facts : SameFacts ssl cms anchors atMillis bouncy authenticated instant)
    (some : cms.signerInfos ≠ []) :
    Attempts.Same thrownReason failureReason
      (javaTried bouncy authenticated instant cms.signerInfos cms.certificates)
      (rustAttempts ssl cms anchors atMillis) := by
  rw [facts.javaTried_eq]
  refine Attempts.Same.first (fun signer mem => facts.same_attemptFor (mem_signerInfos mem)) rfl ?_
  intro none
  exact absurd (List.zipIdx_eq_nil_iff.mp none) some

/-- **The ports choose the same verdict.** From the same names and the same verdict for each pair,
with a bag that is readable and a clock that answers, Java's loops accept iff Rust's envelope is
accepted, and a refusal has the same reason: `MALFORMED` when the first `SignerInfo` names no
embedded certificate, else its first match's. Both try the same pairs in the same order, none twice
and none after one has passed. -/
theorem verdicts_agree {der : Bytes} (parsed : SignedData.parse ssl der envelopeLimits = .ok cms)
    (readable : ∀ c ∈ cms.certificates, c.isReadable ssl = true) {clock : Clock}
    (answers : instantOf ssl jiff (parsePayloadAttributes ssl cms.content) clock = some atMillis)
    (facts : SameFacts ssl cms anchors atMillis bouncy authenticated instant) :
    let java := javaTried bouncy authenticated instant cms.signerInfos cms.certificates
    let rust := rustTried ssl jiff cms anchors clock
    rust.value = (verifyEnvelope ssl jiff der anchors clock).value ∧
    (java.value = .ok () ↔
      ∃ attributes, (verifyEnvelope ssl jiff der anchors clock).value.1 = .ok attributes) ∧
    (∀ failure, (verifyEnvelope ssl jiff der anchors clock).value.1 = .error failure →
      (∃ thrown, java.value = .error (.verification thrown) ∧ thrown.reason = failure.reason) ∧
      ∃ info, cms.signerInfos.head? = some info ∧
        ((namedBy ssl info cms.certificates = [] ∧ failure.reason = .malformed) ∨
          ∃ c, (namedBy ssl info cms.certificates).head? = some c ∧
            rustVerdict ssl cms anchors atMillis info c = .error failure)) ∧
    java.events = rust.events ∧ rust.events.Nodup ∧
    ∀ before i c info after, rust.events = before ++ (i, c) :: after →
      cms.signerInfos[i]? = some info → rustVerdict ssl cms anchors atMillis info c = .ok () →
      after = [] := by
  intro java rust
  have infos := parse_signerInfos_ne_nil parsed
  have instrumented : rust.value = (verifyEnvelope ssl jiff der anchors clock).value :=
    value_rustTried parsed anchors clock
  obtain ⟨tried, verdict⟩ := rustTried_eq anchors readable answers
  obtain ⟨order, ends⟩ := facts.same_rustAttempts infos
  rw [← instrumented, verdict, tried]
  refine ⟨rfl, ?_, ?_, order, nodup_rustAttempts, ?_⟩
  · rw [← Attempts.outcome_eq_none (f := thrownReason), ends, Attempts.outcome_eq_none]
    cases (rustAttempts ssl cms anchors atMillis).value <;> simp [Except.map]
  · intro failure refused
    cases failed : (rustAttempts ssl cms anchors atMillis).value with
    | ok =>
      rw [failed] at refused
      cases refused
    | error own =>
      rw [failed] at refused ends
      cases refused
      constructor
      · exact thrown_of_outcome ends
      · obtain ⟨info, first, which⟩ := value_rustAttempts_error infos failed
        refine ⟨info, first, which.imp ?_ id⟩
        rintro ⟨none, rfl⟩
        exact ⟨none, rfl⟩
  · intro before i c info after split at_index passed
    exact stopsAtPass_rustAttempts.rest_eq_nil split ⟨info, at_index, passed⟩

end

/-- BouncyCastle's answers for the same world: the leaf passes and the impostor is no signer. -/
def Sample.bouncy : Bouncy where
  sidMatches _ c := c == leaf || c == impostor
  publicKey c := some ⟨c.der⟩
  hasExtension c oid :=
    c == leaf && oid == signingLeafOid || c == wwdr && oid == wwdrIntermediateOid
  validateChain _ _ _ := .ok [leaf, wwdr]
  verifyCmsSignature _ key :=
    if key = ⟨leaf.der⟩ then .ok () else .error (.verification ⟨.invalidSignature, "signature"⟩)

/-- The envelope `31 00`, parsed: the impostor stands before the leaf. -/
def Sample.shadowed : SignedData :=
  { signed with certificates := [impostor, leaf, wwdr] }

theorem verdicts_agree_shadowed :
    (javaTried Sample.bouncy [Sample.wwdr, Sample.leaf] 0 Sample.shadowed.signerInfos
      Sample.shadowed.certificates).events =
      (rustTried Sample.openSsl .gregorian Sample.shadowed Sample.anchors Sample.clock).events ∧
    (rustTried Sample.openSsl .gregorian Sample.shadowed Sample.anchors Sample.clock).events =
      [(0, Sample.impostor), (0, Sample.leaf)] := by
  have parsed : SignedData.parse Sample.openSsl [0x31, 0x00] envelopeLimits =
      .ok Sample.shadowed := by decide +kernel
  have answers : instantOf Sample.openSsl .gregorian
      (parsePayloadAttributes Sample.openSsl [0x31, 0x00]) Sample.clock = some 0 := by
    decide +kernel
  have facts : SameFacts Sample.openSsl Sample.shadowed Sample.anchors 0 Sample.bouncy
      [Sample.wwdr, Sample.leaf] 0 := ⟨by decide +kernel, by decide +kernel⟩
  have agree := verdicts_agree parsed (by decide +kernel) answers facts
  exact ⟨agree.2.2.2.1, by decide +kernel⟩

end ReceiptVerifier
