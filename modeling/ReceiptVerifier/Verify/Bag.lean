import ReceiptVerifier.Lib.Merge
import ReceiptVerifier.Verify.Envelope
import ReceiptVerifier.Verify.Keys

/-!
# What the unsigned bag can change

The bag of an envelope is not signed, so anybody can add to it. Certificates no anchor vouches for
change nothing: the top-down walk gives the same list, in the same order, and acceptance only asks
about certificates on that list.
-/

namespace ReceiptVerifier

open Openssl

variable {ssl : OpenSsl} {anchors : List TrustAnchor} {bag larger junk : List Certificate}

/-- Neither an anchor nor issued by a certificate an anchor vouches for. -/
structure Unvouched (ssl : OpenSsl) (bag : List Certificate) (anchors : List TrustAnchor)
    (c : Certificate) : Prop where
  notAnchor : ∀ a ∈ anchors, a.certificate ≠ c
  notIssued : ∀ issuer, Vouched ssl bag anchors issuer → issues ssl issuer c = false

theorem Unvouched.not_vouched {c : Certificate} (h : Unvouched ssl bag anchors c) :
    ¬ Vouched ssl bag anchors c := by
  intro vouched
  cases vouched with
  | anchor pinned => exact h.notAnchor _ pinned rfl
  | issued above _ link => exact Bool.false_ne_true ((h.notIssued _ above).symm.trans link)

theorem Unvouched.isAnchor_eq {c : Certificate} (h : Unvouched ssl bag anchors c) :
    isAnchor anchors c = false := by
  refine List.any_eq_false.mpr fun a pinned same => h.notAnchor a pinned ?_
  simpa [Certificate.sameAs] using same

section

variable (inserted : Merge junk bag larger) (unvouched : ∀ c ∈ junk, Unvouched ssl bag anchors c)

include inserted unvouched

/-- Junk vouches for nothing: what the larger bag vouches for, the bag does. -/
theorem vouched_of_larger {c : Certificate} (h : Vouched ssl larger anchors c) :
    Vouched ssl bag anchors c := by
  induction h with
  | anchor pinned => exact .anchor pinned
  | issued _ mem link above =>
    rcases (inserted.mem_iff _).mp mem with added | old
    · exact absurd link (by rw [(unvouched _ added).notIssued _ above]; exact Bool.false_ne_true)
    · exact .issued above old link

/-- The walk gives the same list, its order included. -/
theorem value_authenticatedTopDown_larger :
    (authenticatedTopDown ssl larger anchors).value =
      (authenticatedTopDown ssl bag anchors).value := by
  let keep := fun c : Certificate => decide (c ∉ junk)
  let pending := fun bag : List Certificate => bag.filter fun c => !isAnchor anchors c
  have sameAnchors : larger.filter (isAnchor anchors) = bag.filter (isAnchor anchors) :=
    inserted.filter_eq_right fun c added => (unvouched c added).isAnchor_eq
  have samePending : (pending larger).filter keep = (pending bag).filter keep := by
    simp only [pending, List.filter_filter]
    exact inserted.filter_eq_right fun c added => by simp [keep, added]
  have kept : ∀ c, Vouched ssl bag anchors c → keep c = true := by
    intro c vouched
    exact decide_eq_true fun added => (unvouched c added).not_vouched vouched
  have closure : ∀ pending' : List Certificate, (∀ c ∈ pending', c ∈ larger) →
      Rounds.closure (issues ssl) (anchorCertificates anchors ++ bag.filter (isAnchor anchors))
          (pending'.filter keep) =
        Rounds.closure (issues ssl) (anchorCertificates anchors ++ bag.filter (isAnchor anchors))
          pending' := by
    intro pending' inside
    refine Rounds.filter_pending vouched_first ?_ fun c _ vouched => kept c vouched
    intro issuer c above mem link
    have sub : ∀ c ∈ bag, c ∈ larger := fun c mem => (inserted.mem_iff c).mpr (.inr mem)
    exact vouched_of_larger inserted unvouched (.issued (above.mono sub) (inside c mem) link)
  rw [value_authenticatedTopDown, value_authenticatedTopDown, sameAnchors,
    ← closure (pending larger), ← closure (pending bag), samePending]
  · exact fun c mem => (inserted.mem_iff c).mpr (.inr (List.mem_filter.mp mem).1)
  · exact fun c mem => (List.mem_filter.mp mem).1

end

/-- **Junk in the bag cannot change acceptance.** Readable certificates no anchor vouches for,
inserted anywhere in the bag, leave the authenticated list as it is, so also the paths OpenSSL is
asked for, and the envelope is accepted iff it was, with the same attributes. -/
theorem verifyEnvelope_junk (jiff : Jiff) {der der' : Bytes} {cms cms' : SignedData}
    (clock : Clock) (parsed : SignedData.parse ssl der envelopeLimits = .ok cms)
    (parsed' : SignedData.parse ssl der' envelopeLimits = .ok cms')
    (sameInfos : cms'.signerInfos = cms.signerInfos) (sameContent : cms'.content = cms.content)
    (sameType : cms'.eContentType = cms.eContentType)
    (inserted : Merge junk cms.certificates cms'.certificates)
    (readable : ∀ c ∈ junk, c.isReadable ssl = true)
    (unvouched : ∀ c ∈ junk, Unvouched ssl cms.certificates anchors c) :
    (∀ attributes, (verifyEnvelope ssl jiff der' anchors clock).value.1 = .ok attributes ↔
      (verifyEnvelope ssl jiff der anchors clock).value.1 = .ok attributes) ∧
    (authenticatedTopDown ssl cms'.certificates anchors).value =
      (authenticatedTopDown ssl cms.certificates anchors).value ∧
    ∀ signer atMillis,
      receiptPath ssl signer (authenticatedTopDown ssl cms'.certificates anchors).value anchors
          atMillis =
        receiptPath ssl signer (authenticatedTopDown ssl cms.certificates anchors).value anchors
          atMillis := by
  have sameList := value_authenticatedTopDown_larger inserted unvouched
  have sameReadable : (∀ c ∈ cms'.certificates, c.isReadable ssl = true) ↔
      ∀ c ∈ cms.certificates, c.isReadable ssl = true := by
    constructor
    · exact fun all c mem => all c ((inserted.mem_iff c).mpr (.inr mem))
    · intro all c mem
      rcases (inserted.mem_iff c).mp mem with added | old
      · exact readable c added
      · exact all c old
  refine ⟨?_, sameList, fun signer atMillis => by rw [sameList]⟩
  intro attributes
  rw [value_verifyEnvelope_ok_iff parsed, value_verifyEnvelope_ok_iff parsed', sameInfos,
    sameContent, sameList, sameReadable]
  -- a passing signer is on the authenticated list, so it is none of the junk
  refine and_congr_right fun _ => and_congr_right fun _ => exists_congr fun info =>
    and_congr_right fun _ => exists_congr fun c => ?_
  constructor
  · rintro ⟨_, named, atMillis, instant, passes⟩
    have passes := (signerPasses_congr sameContent sameType).mp passes
    exact ⟨(mem_authenticatedTopDown passes.listed).2, named, atMillis, instant, passes⟩
  · rintro ⟨mem, named, atMillis, instant, passes⟩
    exact ⟨(inserted.mem_iff c).mpr (.inr mem), named, atMillis, instant,
      (signerPasses_congr sameContent sameType).mpr passes⟩

theorem Sample.unvouched_impostor :
    Unvouched Sample.openSsl Sample.signed.certificates Sample.anchors Sample.impostor where
  notAnchor := by decide
  notIssued issuer _ := by
    have unissued : Sample.openSsl.checkIssued issuer Sample.impostor = false := by
      simp [Sample.openSsl, Sample.issued, Sample.impostor, Sample.root, Sample.wwdr, Sample.leaf]
    rw [issues, Certificate.issuedBy, unissued]
    rfl

theorem verifyEnvelope_junk_impostor :
    (verifyEnvelope Sample.openSsl .gregorian [0x31, 0x00] Sample.anchors Sample.clock).value.1 =
      .ok (.ok []) := by
  have parsed : SignedData.parse Sample.openSsl [0x30, 0x00] envelopeLimits =
      .ok Sample.signed := by decide +kernel
  have parsed' : SignedData.parse Sample.openSsl [0x31, 0x00] envelopeLimits =
      .ok { Sample.signed with
        certificates := Sample.impostor :: Sample.signed.certificates } := by decide +kernel
  have inserted : Merge [Sample.impostor] Sample.signed.certificates
      (Sample.impostor :: Sample.signed.certificates) :=
    .left _ (.right _ (.right _ .nil))
  have same := verifyEnvelope_junk .gregorian Sample.clock parsed parsed' rfl rfl rfl inserted
    (by decide +kernel) (by simpa using Sample.unvouched_impostor)
  exact (same.1 _).mpr (by decide +kernel)

end ReceiptVerifier
