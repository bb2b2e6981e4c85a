import ReceiptVerifier.Jws

/-!
# Which keys are used

Every key that checks a signature belongs to a certificate an anchor vouches for, in every run of
receipt and of JWS verification. `Vouched` is the closure the walks stay inside, `keyGuard` what it
allows in a trace; each walk is then shown guarded, from the signature checks up.
-/

namespace ReceiptVerifier

open Openssl Traced

variable {ssl : OpenSsl} {anchors : List TrustAnchor} {bag : List Certificate}

/-! ## The closure -/

/-- The certificates an anchor vouches for: an anchor, or one of the bag that a certificate vouched
for issued. -/
inductive Vouched (ssl : OpenSsl) (bag : List Certificate) (anchors : List TrustAnchor) :
    Certificate → Prop
  | anchor {a : TrustAnchor} (pinned : a ∈ anchors) : Vouched ssl bag anchors a.certificate
  | issued {issuer c : Certificate} (above : Vouched ssl bag anchors issuer) (mem : c ∈ bag)
      (link : issues ssl issuer c = true) : Vouched ssl bag anchors c

/-- A larger bag only adds. -/
theorem Vouched.mono {larger : List Certificate} (sub : ∀ c ∈ bag, c ∈ larger) {c : Certificate}
    (h : Vouched ssl bag anchors c) : Vouched ssl larger anchors c := by
  induction h with
  | anchor pinned => exact .anchor pinned
  | issued _ mem link ih => exact .issued ih (sub _ mem) link

theorem Vouched.of_anchorCertificates {c : Certificate} (h : c ∈ anchorCertificates anchors) :
    Vouched ssl bag anchors c := by
  obtain ⟨a, pinned, rfl⟩ := List.mem_map.mp h
  exact .anchor pinned

/-- The top-down walk accepts what is an anchor, then what the rounds take. -/
theorem value_topDownRounds (pending issuers accepted : List Certificate) :
    (topDownRounds ssl pending issuers accepted).value =
      accepted ++ Rounds.closure (issues ssl) issuers pending := by
  fun_induction topDownRounds ssl pending issuers accepted with
  | case1 pending issuers accepted empty =>
    rw [List.isEmpty_iff.mp empty, Rounds.closure, dif_pos (by rfl), List.append_nil, value_pure]
  | case2 pending issuers accepted some round none =>
    rw [Rounds.closure, dif_pos]
    · simp
    · have := congrArg Prod.fst (value_partition_vouchedBy ssl issuers pending)
      exact this.symm.trans none
  | case3 pending issuers accepted some round taken ih =>
    have split := value_partition_vouchedBy ssl issuers pending
    rw [value_bind, ih]
    simp only [round, split] at taken ⊢
    conv => rhs; rw [Rounds.closure, dif_neg taken]
    rw [List.append_assoc]

/-- Whether a certificate is one of the anchors. -/
def isAnchor (anchors : List TrustAnchor) (c : Certificate) : Bool :=
  anchors.any fun anchor => anchor.certificate.sameAs c

theorem Vouched.of_isAnchor {c : Certificate} (h : isAnchor anchors c = true) :
    Vouched ssl bag anchors c := by
  obtain ⟨a, pinned, same⟩ := List.any_eq_true.mp h
  have : a.certificate = c := by simpa [Certificate.sameAs] using same
  exact this ▸ .anchor pinned

theorem value_authenticatedTopDown (embedded : List Certificate) (anchors : List TrustAnchor) :
    (authenticatedTopDown ssl embedded anchors).value =
      embedded.filter (isAnchor anchors) ++ Rounds.closure (issues ssl)
        (anchorCertificates anchors ++ embedded.filter (isAnchor anchors))
        (embedded.filter fun c => !isAnchor anchors c) :=
  value_topDownRounds _ _ _

/-- The first issuers of the walk are anchors. -/
theorem vouched_first {embedded : List Certificate} :
    ∀ c ∈ anchorCertificates anchors ++ embedded.filter (isAnchor anchors),
      Vouched ssl bag anchors c := by
  intro c hc
  rcases List.mem_append.mp hc with pinned | equal
  · exact .of_anchorCertificates pinned
  · exact .of_isAnchor (List.mem_filter.mp equal).2

theorem mem_authenticatedTopDown {embedded : List Certificate} {c : Certificate}
    (h : c ∈ (authenticatedTopDown ssl embedded anchors).value) :
    Vouched ssl embedded anchors c ∧ c ∈ embedded := by
  rw [value_authenticatedTopDown] at h
  rcases List.mem_append.mp h with equal | taken
  · obtain ⟨mem, equal⟩ := List.mem_filter.mp equal
    exact ⟨.of_isAnchor equal, mem⟩
  · obtain ⟨vouched, mem⟩ := Rounds.sound vouched_first
      (fun _ _ above mem link => .issued above (List.mem_filter.mp mem).1 link) c taken
    exact ⟨vouched, (List.mem_filter.mp mem).1⟩

/-! ## The guard -/

/-- What must have happened just before a key is put to a use: a signer's own key waits for its path
and both markers. -/
def Authorised (ssl : OpenSsl) (anchors : List TrustAnchor) (past : List Event)
    (owner : Certificate) : KeyUse → Prop
  | .issuedBy | .signedBy => True
  | .cmsSignature => ∃ front authenticated atMillis path,
      past = front ++ (receiptPath ssl owner authenticated anchors atMillis).events ∧
      (receiptPath ssl owner authenticated anchors atMillis).value = .ok path ∧
      ssl.hasExtension owner signingLeafOid = true ∧ hasWwdrMarker ssl path = true
  | .es256 => ∃ front intermediate atMillis,
      past = front ++ (validatePair ssl owner intermediate anchors atMillis).events ∧
      (validatePair ssl owner intermediate anchors atMillis).value = .ok () ∧
      ssl.hasExtension owner signingLeafOid = true ∧
      ssl.hasExtension intermediate wwdrIntermediateOid = true

theorem Authorised.mono {past more : List Event} {owner : Certificate} {use : KeyUse}
    (h : Authorised ssl anchors past owner use) :
    Authorised ssl anchors (more ++ past) owner use := by
  cases use with
  | issuedBy | signedBy => trivial
  | cmsSignature =>
    obtain ⟨front, authenticated, atMillis, path, rfl, passed⟩ := h
    exact ⟨more ++ front, authenticated, atMillis, path, (List.append_assoc ..).symm, passed⟩
  | es256 =>
    obtain ⟨front, intermediate, atMillis, rfl, passed⟩ := h
    exact ⟨more ++ front, intermediate, atMillis, (List.append_assoc ..).symm, passed⟩

/-- What a trace may hold: a key of a certificate an anchor vouches for, put to a use it is
authorised for; and a path of such certificates, to a store of anchors. -/
def keyGuard (ssl : OpenSsl) (bag : List Certificate) (anchors : List TrustAnchor) :
    Guard Event where
  allows past
    | .keyUsed owner key use => ssl.publicKey owner = some key ∧ Vouched ssl bag anchors owner ∧
        Authorised ssl anchors past owner use
    | .pathRun target untrusted store => Vouched ssl bag anchors target ∧
        (∀ c ∈ untrusted, Vouched ssl bag anchors c) ∧ ∀ c ∈ store, c ∈ anchorCertificates anchors
  mono {past more e} h := by
    cases e with
    | keyUsed owner key use => exact ⟨h.1, h.2.1, h.2.2.mono⟩
    | pathRun target untrusted store => exact h

/-! ## The core's walk -/

theorem guarded_issuedBy {issuer : Certificate} (c : Certificate)
    (vouched : Vouched ssl bag anchors issuer) :
    Guarded (keyGuard ssl bag anchors) (c.issuedBy ssl issuer) := by
  unfold Certificate.issuedBy
  split
  · exact guarded_pure _
  · split
    · exact guarded_pure _
    · rename_i key built
      exact guarded_bind (guarded_emit ⟨built, vouched, trivial⟩) (guarded_pure _)

theorem guarded_topDownRounds (pending issuers accepted : List Certificate)
    (inside : ∀ c ∈ pending, c ∈ bag) (vouched : ∀ i ∈ issuers, Vouched ssl bag anchors i) :
    Guarded (keyGuard ssl bag anchors) (topDownRounds ssl pending issuers accepted) := by
  have round : ∀ (pending issuers : List Certificate),
      (∀ i ∈ issuers, Vouched ssl bag anchors i) →
      Guarded (keyGuard ssl bag anchors) (Traced.partition (vouchedBy ssl issuers) pending) :=
    fun pending issuers vouched => guarded_partition fun c _ => guarded_any fun i hi =>
      guarded_issuedBy c (vouched i hi)
  fun_induction topDownRounds ssl pending issuers accepted with
  | case1 => exact guarded_pure _
  | case2 pending issuers accepted =>
    exact guarded_bind (round pending issuers vouched) (guarded_pure _)
  | case3 pending issuers accepted some taken' taken ih =>
    refine guarded_bind (round pending issuers vouched) (ih ?_ ?_)
    · simp only [taken', value_partition_vouchedBy]
      exact fun c hc => inside c (List.mem_filter.mp hc).1
    · simp only [taken', value_partition_vouchedBy]
      intro c hc
      obtain ⟨mem, linked⟩ := List.mem_filter.mp hc
      obtain ⟨i, hi, link⟩ := List.any_eq_true.mp linked
      exact .issued (vouched i hi) (inside c mem) link

theorem guarded_authenticatedTopDown {embedded : List Certificate}
    (inside : ∀ c ∈ embedded, c ∈ bag) :
    Guarded (keyGuard ssl bag anchors) (authenticatedTopDown ssl embedded anchors) :=
  guarded_topDownRounds _ _ _ (fun c hc => inside c (List.mem_filter.mp hc).1) vouched_first

/-! ## The adapter's walk and its path runs -/

theorem guarded_signedBy {issuer : Certificate} (c : Certificate)
    (vouched : Vouched ssl bag anchors issuer) :
    Guarded (keyGuard ssl bag anchors) (c.signedBy ssl issuer) := by
  unfold Certificate.signedBy
  split
  · exact guarded_pure _
  · split
    · exact guarded_pure _
    · rename_i key built
      exact guarded_bind (guarded_emit ⟨built, vouched, trivial⟩) (guarded_pure _)

theorem guarded_signedOneOf (frontier : List Certificate) {candidate : Certificate}
    (vouched : Vouched ssl bag anchors candidate) :
    Guarded (keyGuard ssl bag anchors) (signedOneOf ssl frontier candidate) := by
  refine guarded_any fun below _ => ?_
  split
  · exact guarded_pure _
  · exact guarded_signedBy below vouched

section

variable {target : Certificate} {untrusted : List Certificate} {atSecs : Int}

theorem guarded_linkedRounds (linked frontier : List Certificate)
    (vouched : ∀ c ∈ untrusted, Vouched ssl bag anchors c) :
    Guarded (keyGuard ssl bag anchors) (linkedRounds ssl untrusted linked frontier) := by
  have round : ∀ linked frontier : List Certificate, Guarded (keyGuard ssl bag anchors)
      (Traced.filter (signedOneOf ssl frontier) (unlinked untrusted linked)) :=
    fun linked frontier => guarded_filter fun c hc =>
      guarded_signedOneOf frontier (vouched c (List.mem_filter.mp hc).1)
  fun_induction linkedRounds ssl untrusted linked frontier with
  | case1 linked frontier => exact guarded_bind (round linked frontier) (guarded_pure _)
  | case2 linked frontier _ _ ih => exact guarded_bind (round linked frontier) ih

theorem guarded_linkedAbove (vouched : ∀ c ∈ untrusted, Vouched ssl bag anchors c) :
    Guarded (keyGuard ssl bag anchors) (linkedAbove ssl target untrusted) :=
  guarded_bind (guarded_linkedRounds _ _ vouched) (guarded_pure _)

theorem mem_linkedAbove {c : Certificate} (h : c ∈ (linkedAbove ssl target untrusted).value) :
    c ∈ untrusted :=
  (List.mem_filter.mp h).1

theorem guarded_runWith {store : List Certificate} (above : Vouched ssl bag anchors target)
    (vouched : ∀ c ∈ untrusted, Vouched ssl bag anchors c)
    (pinned : ∀ c ∈ store, c ∈ anchorCertificates anchors) (trusted : List Certificate) :
    Guarded (keyGuard ssl bag anchors) (runWith ssl target untrusted trusted store atSecs) := by
  refine guarded_bind (guarded_emit ⟨above, vouched, pinned⟩) ?_
  split <;> exact guarded_pure _

theorem guarded_runCandidates (above : Vouched ssl bag anchors target)
    (vouched : ∀ c ∈ untrusted, Vouched ssl bag anchors c) (trusted : List Certificate) :
    ∀ (candidates : List Certificate) (firstLinked first : Option PathOutcome),
      (∀ c ∈ candidates, c ∈ anchorCertificates anchors) →
      Guarded (keyGuard ssl bag anchors)
        (runCandidates ssl target untrusted trusted atSecs candidates firstLinked first) := by
  intro candidates
  induction candidates with
  | nil =>
    intro _ _ _
    exact guarded_pure _
  | cons anchor candidates ih =>
    intro firstLinked first pinned
    rw [List.forall_mem_cons] at pinned
    have rest := fun firstLinked first => ih firstLinked first pinned.2
    refine guarded_bind (guarded_runWith above vouched (by simpa using pinned.1) trusted) ?_
    split
    · exact guarded_pure _
    · split
      · exact guarded_pure _
      · split
        · exact rest _ _
        · split <;> exact rest _ _

theorem guarded_verifyPath (above : Vouched ssl bag anchors target)
    (vouched : ∀ c ∈ untrusted, Vouched ssl bag anchors c) :
    Guarded (keyGuard ssl bag anchors)
      (verifyPath ssl target untrusted (anchorCertificates anchors) atSecs) := by
  refine guarded_bind (guarded_bind (guarded_linkedAbove vouched) ?_) (guarded_pure _)
  have linked : ∀ c ∈ (linkedAbove ssl target untrusted).value, Vouched ssl bag anchors c :=
    fun c hc => vouched c (mem_linkedAbove hc)
  dsimp only
  split
  · exact guarded_runWith above linked (fun _ hc => hc) _
  · exact guarded_runCandidates above linked _ _ _ _ fun c hc => (List.mem_filter.mp hc).1

/-! ## Paths -/

theorem guarded_checkedPath (above : Vouched ssl bag anchors target)
    (vouched : ∀ c ∈ untrusted, Vouched ssl bag anchors c) (atMillis : Int) :
    Guarded (keyGuard ssl bag anchors) (checkedPath ssl target untrusted anchors atMillis) :=
  guarded_bind (guarded_verifyPath above vouched) (guarded_pure _)

theorem guarded_receiptPath (above : Vouched ssl bag anchors target)
    (vouched : ∀ c ∈ untrusted, Vouched ssl bag anchors c) (atMillis : Int) :
    Guarded (keyGuard ssl bag anchors) (receiptPath ssl target untrusted anchors atMillis) := by
  refine guarded_bind (guarded_checkedPath above vouched atMillis) ?_
  repeat' split
  all_goals exact guarded_pure _

end

/-- The pair is vouched for link by link before a path is asked for. -/
theorem guarded_validatePair {leaf intermediate : Certificate} (leafMem : leaf ∈ bag)
    (intermediateMem : intermediate ∈ bag) (atMillis : Int) :
    Guarded (keyGuard ssl bag anchors) (validatePair ssl leaf intermediate anchors atMillis) := by
  unfold validatePair
  refine guarded_bind (guarded_any fun a pinned => guarded_issuedBy _ (.anchor pinned)) ?_
  rw [value_any]
  split
  · exact guarded_pure _
  · rename_i pinned
    have above : Vouched ssl bag anchors intermediate := by
      obtain ⟨a, mem, link⟩ := List.any_eq_true.mp (by simpa using pinned)
      exact .issued (.anchor mem) intermediateMem link
    split
    · exact guarded_pure _
    · refine guarded_bind (guarded_issuedBy leaf above) ?_
      split
      · exact guarded_pure _
      · rename_i link
        have vouched : Vouched ssl bag anchors leaf :=
          .issued above leafMem (by simpa [issues] using link)
        split
        · exact guarded_pure _
        · refine guarded_bind (guarded_checkedPath vouched ?_ atMillis) (guarded_pure _)
          simpa using above

/-! ## Receipts -/

section

variable {cms : SignedData} {info : SignerInfo} {signer : Certificate}

/-- The signer's own key, after its path and both markers passed. -/
theorem guardedAfter_verifyCmsSignature {front : List Event}
    (above : Vouched ssl bag anchors signer)
    (passed : Authorised ssl anchors front signer .cmsSignature) :
    GuardedAfter (keyGuard ssl bag anchors) front (verifyCmsSignature ssl cms info signer) := by
  have own : GuardedAfter (keyGuard ssl bag anchors) front (cms.verifySigner ssl info signer) := by
    unfold SignedData.verifySigner
    split
    · exact guardedAfter_pure _
    · split
      · exact guardedAfter_pure _
      · rename_i key built
        refine guardedAfter_bind (guardedAfter_emit ⟨built, above, passed⟩) ?_
        split <;> exact guardedAfter_pure _
  unfold verifyCmsSignature
  split
  · exact guardedAfter_pure _
  · refine guardedAfter_bind own ?_
    split <;> exact guardedAfter_pure _

section

variable {authenticated : List Certificate} {atMillis : Int}
  (vouched : ∀ c ∈ authenticated, Vouched ssl bag anchors c)

include vouched

theorem guarded_verifySigner : Guarded (keyGuard ssl bag anchors)
    (verifySigner ssl cms info signer authenticated anchors atMillis) := by
  unfold verifySigner
  split
  · exact guarded_pure _
  · rename_i listed
    have above : Vouched ssl bag anchors signer :=
      vouched signer (by simpa [Certificate.sameAs] using listed)
    split
    · exact guarded_pure _
    · refine guardedAfter_bind (guarded_receiptPath above vouched atMillis) ?_
      split
      · exact guardedAfter_pure _
      · rename_i path built
        split
        · exact guardedAfter_pure _
        · rename_i leafMarker
          split
          · exact guardedAfter_pure _
          · rename_i wwdrMarker
            exact guardedAfter_verifyCmsSignature above
              ⟨[], authenticated, atMillis, path, rfl, built, by simpa using leafMarker,
                by simpa using wwdrMarker⟩

theorem guarded_verifySigners {first : Certificate} {others : List Certificate} :
    Guarded (keyGuard ssl bag anchors)
      (verifySigners ssl cms info first others authenticated anchors atMillis) := by
  refine guarded_bind (guarded_verifySigner vouched) ?_
  split
  · exact guarded_pure _
  · refine guarded_bind (guarded_any fun c _ => ?_) ?_
    · exact guarded_bind (guarded_verifySigner vouched) (guarded_pure _)
    · split <;> exact guarded_pure _

end

/-- What the loop carries from one `SignerInfo` to the next: no list but vouched-for ones. -/
def CarriesVouched (ssl : OpenSsl) (bag : List Certificate) (anchors : List TrustAnchor)
    (authenticated : Option (List Certificate)) : Prop :=
  ∀ list ∈ authenticated, ∀ c ∈ list, Vouched ssl bag anchors c

section

variable {loop : SignerLoop} {embedded : Embedded} (inside : ∀ c ∈ embedded.readable, c ∈ bag)
  (inv : CarriesVouched ssl bag anchors loop.authenticated)

include inside inv

theorem guarded_authenticate :
    Guarded (keyGuard ssl bag anchors) (loop.authenticate ssl embedded anchors) ∧
      ∀ c ∈ (loop.authenticate ssl embedded anchors).value, Vouched ssl bag anchors c := by
  unfold SignerLoop.authenticate
  split
  · rename_i list known
    exact ⟨guarded_pure _, inv list known⟩
  · exact ⟨guarded_authenticatedTopDown inside,
      fun c hc => (mem_authenticatedTopDown hc).1.mono inside⟩

theorem guarded_verdict {first : Certificate} {others : List Certificate}
    {instant : Except Failure Int} :
    Guarded (keyGuard ssl bag anchors)
        (loop.verdict ssl cms embedded anchors info first others instant) ∧
      CarriesVouched ssl bag anchors
        (loop.verdict ssl cms embedded anchors info first others instant).value.2 := by
  obtain ⟨walk, vouched⟩ := guarded_authenticate inside inv
  unfold SignerLoop.verdict
  split
  · exact ⟨guarded_pure _, inv⟩
  · constructor
    · exact guarded_bind walk (guarded_bind (guarded_verifySigners vouched) (guarded_pure _))
    · intro list known
      cases known
      exact vouched

end

section

variable {jiff : Jiff}

theorem guarded_verifySignerInfos : ∀ (infos : List SignerInfo) (loop : SignerLoop),
    CarriesVouched ssl cms.certificates anchors loop.authenticated →
    Guarded (keyGuard ssl cms.certificates anchors)
      (verifySignerInfos ssl jiff cms (Embedded.partition ssl cms.certificates) anchors infos
        loop) := by
  intro infos
  induction infos with
  | nil =>
    intro _ _
    exact guarded_pure _
  | cons info infos ih =>
    intro loop inv
    have inside : ∀ c ∈ (Embedded.partition ssl cms.certificates).readable,
        c ∈ cms.certificates := fun c hc => (List.mem_filter.mp hc).1
    rw [verifySignerInfos]
    split
    · exact ih _ inv
    · obtain ⟨judged, carried⟩ := guarded_verdict inside inv
      refine guarded_bind judged ?_
      dsimp only
      split
      · exact guarded_pure _
      · split
        · exact guarded_pure _
        · exact ih _ carried

variable (ssl) in
/-- The certificates a receipt embeds; none when its envelope does not parse. -/
def embeddedCertificates (der : Bytes) : List Certificate :=
  match SignedData.parse ssl der envelopeLimits with
  | .error _ => []
  | .ok cms => cms.certificates

theorem guarded_verifyEnvelope (der : Bytes) (anchors : List TrustAnchor) (clock : Clock) :
    Guarded (keyGuard ssl (embeddedCertificates ssl der) anchors)
      (verifyEnvelope ssl jiff der anchors clock) := by
  unfold verifyEnvelope embeddedCertificates
  cases SignedData.parse ssl der envelopeLimits with
  | error => exact guarded_pure _
  | ok cms => exact guarded_verifySignerInfos _ _ (by simp [CarriesVouched])

variable (ssl) in
/-- The certificates a receipt in its base64 form embeds. -/
def receiptCertificates (base64 : Base64) (text : Bytes) : List Certificate :=
  match decodeReceiptData base64 text with
  | .error _ => []
  | .ok der => embeddedCertificates ssl der

theorem guarded_verifyReceipt (base64 : Base64) (text : Bytes) (anchors : List TrustAnchor)
    (clock : Clock) : Guarded (keyGuard ssl (receiptCertificates ssl base64 text) anchors)
      (verifyReceipt ssl jiff base64 text anchors clock) := by
  unfold verifyReceipt
  split
  · exact guarded_pure _
  · unfold receiptCertificates
    cases decodeReceiptData base64 text with
    | error => exact guarded_pure _
    | ok der =>
      refine guarded_bind (guarded_verifyEnvelope der anchors clock) ?_
      dsimp only
      split <;> exact guarded_pure _

end

end

/-! ## JWS -/

section

variable {outer : OuterJws}

/-- The leaf's own key, after the pair and both markers passed. -/
theorem guardedAfter_verifySignature {front : List Event}
    (above : Vouched ssl bag anchors outer.leaf)
    (passed : Authorised ssl anchors front outer.leaf .es256) :
    GuardedAfter (keyGuard ssl bag anchors) front (verifySignature ssl outer) := by
  refine guardedAfter_bind ?_ ?_
  · unfold verifyEs256
    split
    · exact guardedAfter_pure _
    · split
      · exact guardedAfter_pure _
      · rename_i key built
        split
        · exact guardedAfter_pure _
        · split
          · exact guardedAfter_pure _
          · exact guardedAfter_bind (guardedAfter_emit ⟨built, above, passed⟩)
              (guardedAfter_pure _)
  · split <;> exact guardedAfter_pure _

theorem vouched_of_validatePair {leaf intermediate : Certificate} {atMillis : Int}
    (leafMem : leaf ∈ bag) (intermediateMem : intermediate ∈ bag)
    (h : (validatePair ssl leaf intermediate anchors atMillis).value = .ok ()) :
    Vouched ssl bag anchors leaf := by
  unfold validatePair at h
  rw [value_bind, value_any] at h
  split at h
  · cases h
  · rename_i pinned
    obtain ⟨a, mem, link⟩ := List.any_eq_true.mp (by simpa using pinned)
    have above : Vouched ssl bag anchors intermediate := .issued (.anchor mem) intermediateMem link
    split at h
    · cases h
    · rw [value_bind] at h
      split at h
      · cases h
      · rename_i link
        exact .issued above leafMem (by simpa [issues] using link)

theorem guarded_verifyLeaf (leafMem : outer.leaf ∈ bag)
    (intermediateMem : outer.intermediate ∈ bag) (atMillis : Int) :
    Guarded (keyGuard ssl bag anchors) (verifyLeaf ssl outer anchors atMillis) := by
  refine guardedAfter_bind (guarded_validatePair leafMem intermediateMem atMillis) ?_
  split
  · exact guardedAfter_pure _
  · rename_i valid
    split
    · exact guardedAfter_pure _
    · rename_i leafMarker
      split
      · exact guardedAfter_pure _
      · rename_i wwdrMarker
        exact guardedAfter_verifySignature (vouched_of_validatePair leafMem intermediateMem valid)
          ⟨[], outer.intermediate, atMillis, rfl, valid, by simpa using leafMarker,
            by simpa using wwdrMarker⟩

end

variable (ssl) in
/-- The certificates of a JWS whose keys may be used: the first two of its `x5c`. -/
def x5cCertificates (base64 : Base64) (json : SerdeJson) (jws : Bytes) : List Certificate :=
  match readOuter ssl base64 json jws with
  | .error _ => []
  | .ok outer => [outer.leaf, outer.intermediate]

theorem guarded_verifyJws (base64 : Base64) (json : SerdeJson) (jws : Bytes)
    (anchors : List TrustAnchor) (clock : Clock) :
    Guarded (keyGuard ssl (x5cCertificates ssl base64 json jws) anchors)
      (verifyJws ssl base64 json jws anchors clock) := by
  unfold verifyJws x5cCertificates
  cases readOuter ssl base64 json jws with
  | error => exact guarded_pure _
  | ok outer =>
    dsimp only
    split
    · exact guarded_pure _
    · refine guarded_bind (guarded_verifyLeaf (by simp) (by simp) _) ?_
      split <;> exact guarded_pure _

/-! ## Both -/

/-- **No unvouched key is ever used.** In every run of receipt verification and of JWS verification,
each key belongs to a certificate an anchor vouches for through certificates of the input; a
signer's own key is used right after its path and both markers passed; and OpenSSL is only ever
given such certificates to build a path from. -/
theorem keys_vouched (ssl : OpenSsl) (jiff : Jiff) (base64 : Base64) (json : SerdeJson)
    (anchors : List TrustAnchor) (clock : Clock) (input : Bytes) :
    Guarded (keyGuard ssl (receiptCertificates ssl base64 input) anchors)
        (verifyReceipt ssl jiff base64 input anchors clock) ∧
      Guarded (keyGuard ssl (x5cCertificates ssl base64 json input) anchors)
        (verifyJws ssl base64 json input anchors clock) := by
  constructor
  · exact guarded_verifyReceipt base64 input anchors clock
  · exact guarded_verifyJws base64 json input anchors clock

end ReceiptVerifier
