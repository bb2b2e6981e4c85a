import Mathlib.Data.List.Chain
import Mathlib.Logic.Relation
import ReceiptVerifier.Verify.Anchors
import ReceiptVerifier.Verify.Keys

/-!
# What the two walks find

The top-down walk of the core and the upward walk of the adapter pair certificates by different
rules. Each finds exactly what chains of its own links reach, and the two meet: what links an anchor
to the target on the way down is kept on the way up.
-/

namespace ReceiptVerifier

open Openssl

variable {ssl : OpenSsl} {anchors : List TrustAnchor} {embedded : List Certificate}

/-! ## Down from the anchors -/

/-- Every certificate issued the next. -/
def IssuedInTurn (ssl : OpenSsl) : List Certificate → Prop :=
  List.IsChain fun issuer c => issues ssl issuer c = true

/-- A chain leads from an anchor down to the certificate, through embedded certificates. -/
def Connected (ssl : OpenSsl) (embedded : List Certificate) (anchors : List TrustAnchor)
    (c : Certificate) : Prop :=
  ∃ a ∈ anchors, ∃ inner : List Certificate, (∀ i ∈ inner, i ∈ embedded) ∧
    IssuedInTurn ssl (a.certificate :: inner ++ [c])

theorem isAnchor_iff {c : Certificate} :
    isAnchor anchors c = true ↔ c ∈ anchorCertificates anchors := by
  simp only [isAnchor, List.any_eq_true, Certificate.sameAs, beq_iff_eq, anchorCertificates,
    List.mem_map]

theorem Vouched.cases_mem {c : Certificate} (h : Vouched ssl embedded anchors c) :
    c ∈ anchorCertificates anchors ∨ c ∈ embedded := by
  cases h with
  | anchor pinned => exact .inl (List.mem_map_of_mem pinned)
  | issued _ mem _ => exact .inr mem

theorem Vouched.congr {embedded' : List Certificate} {anchors' : List TrustAnchor}
    (same : ∀ c, c ∈ embedded ↔ c ∈ embedded') (sameAnchors : ∀ a, a ∈ anchors ↔ a ∈ anchors')
    (c : Certificate) : Vouched ssl embedded anchors c ↔ Vouched ssl embedded' anchors' c := by
  constructor
  · intro h
    induction h with
    | anchor pinned => exact .anchor ((sameAnchors _).mp pinned)
    | issued _ mem link ih => exact .issued ih ((same _).mp mem) link
  · intro h
    induction h with
    | anchor pinned => exact .anchor ((sameAnchors _).mpr pinned)
    | issued _ mem link ih => exact .issued ih ((same _).mpr mem) link

/-- What an anchor vouches for is an anchor or taken by a round. -/
theorem Vouched.mem_closure {c : Certificate} (h : Vouched ssl embedded anchors c) :
    c ∈ anchorCertificates anchors ∨ c ∈ Rounds.closure (issues ssl)
      (anchorCertificates anchors ++ embedded.filter (isAnchor anchors))
      (embedded.filter fun c => !isAnchor anchors c) := by
  induction h with
  | anchor pinned => exact .inl (List.mem_map_of_mem pinned)
  | @issued issuer c _ mem link ih =>
    cases equal : isAnchor anchors c with
    | true => exact .inl (isAnchor_iff.mp equal)
    | false =>
      right
      apply Rounds.closure_closed (ih.imp_left (List.mem_append_left _)) _ link
      exact List.mem_filter.mpr ⟨mem, by rw [equal]; rfl⟩

/-- The walk accepts exactly the embedded certificates an anchor vouches for. -/
theorem mem_authenticatedTopDown_iff {c : Certificate} :
    c ∈ (authenticatedTopDown ssl embedded anchors).value ↔
      Vouched ssl embedded anchors c ∧ c ∈ embedded := by
  refine ⟨mem_authenticatedTopDown, ?_⟩
  rintro ⟨vouched, mem⟩
  rw [value_authenticatedTopDown, List.mem_append]
  rcases vouched.mem_closure with equal | taken
  · exact .inl (List.mem_filter.mpr ⟨mem, isAnchor_iff.mpr equal⟩)
  · exact .inr taken

/-- Each occurrence is accepted once or not at all. -/
theorem authenticatedTopDown_perm {vouched : Certificate → Bool}
    (exact : ∀ c ∈ embedded, vouched c = true ↔ Vouched ssl embedded anchors c) :
    (authenticatedTopDown ssl embedded anchors).value.Perm (embedded.filter vouched) := by
  have copies : (embedded.filter (isAnchor anchors)).filter vouched =
      embedded.filter (isAnchor anchors) := by
    refine List.filter_eq_self.mpr fun c copy => ?_
    obtain ⟨mem, equal⟩ := List.mem_filter.mp copy
    exact (exact c mem).mpr (.of_isAnchor equal)
  have taken : ∀ c ∈ embedded.filter fun c => !isAnchor anchors c, vouched c = true ↔
      c ∈ Rounds.closure (issues ssl)
        (anchorCertificates anchors ++ embedded.filter (isAnchor anchors))
        (embedded.filter fun c => !isAnchor anchors c) := by
    intro c pending
    obtain ⟨mem, other⟩ := List.mem_filter.mp pending
    rw [exact c mem]
    constructor
    · intro h
      rcases h.mem_closure with equal | taken
      · rw [isAnchor_iff.mpr equal] at other
        cases other
      · exact taken
    · intro taken
      have accepted : c ∈ (authenticatedTopDown ssl embedded anchors).value := by
        rw [value_authenticatedTopDown]
        exact List.mem_append_right _ taken
      exact (mem_authenticatedTopDown accepted).1
  rw [value_authenticatedTopDown]
  refine ((Rounds.closure_perm_filter taken).append_left _).trans ?_
  conv => lhs; rw [← copies, ← List.filter_append]
  exact (List.filter_append_perm (isAnchor anchors) embedded).filter vouched

/-! ## Chains -/

/-- Every certificate of a chain below a vouched one is vouched for. -/
theorem Vouched.of_chain {issuer : Certificate} {chain : List Certificate}
    (above : Vouched ssl embedded anchors issuer) (inside : ∀ i ∈ chain, i ∈ embedded)
    (links : IssuedInTurn ssl (issuer :: chain)) : ∀ i ∈ chain, Vouched ssl embedded anchors i := by
  induction chain generalizing issuer with
  | nil => simp
  | cons next chain ih =>
    obtain ⟨link, links⟩ := List.isChain_cons_cons.mp links
    rw [List.forall_mem_cons] at inside
    have vouched : Vouched ssl embedded anchors next := .issued above inside.1 link
    exact List.forall_mem_cons.mpr ⟨vouched, ih vouched inside.2 links⟩

theorem Connected.vouched {c : Certificate} (h : Connected ssl embedded anchors c)
    (mem : c ∈ embedded) : Vouched ssl embedded anchors c := by
  obtain ⟨a, pinned, inner, inside, links⟩ := h
  refine Vouched.of_chain (.anchor pinned) ?_ links c (List.mem_append_right _ List.mem_cons_self)
  intro i hi
  rcases List.mem_append.mp hi with hi | last
  · exact inside i hi
  · exact List.mem_singleton.mp last ▸ mem

theorem Vouched.connected {c : Certificate} (h : Vouched ssl embedded anchors c) :
    c ∈ anchorCertificates anchors ∨ Connected ssl embedded anchors c := by
  induction h with
  | anchor pinned => exact .inl (List.mem_map_of_mem pinned)
  | @issued issuer c above mem link ih =>
    have direct : issuer ∈ anchorCertificates anchors → Connected ssl embedded anchors c := by
      intro equal
      obtain ⟨a, pinned, rfl⟩ := List.mem_map.mp equal
      exact ⟨a, pinned, [], by simp, List.isChain_cons_cons.mpr ⟨link, .singleton c⟩⟩
    right
    rcases ih with equal | ⟨a, pinned, inner, inside, links⟩
    · exact direct equal
    · rcases above.cases_mem with equal | issuerMem
      · exact direct equal
      · refine ⟨a, pinned, inner ++ [issuer], ?_, ?_⟩
        · simpa [or_imp, forall_and] using ⟨inside, issuerMem⟩
        · have extended := List.isChain_append_cons_cons.mpr ⟨links, link, .singleton c⟩
          simpa [IssuedInTurn] using extended

/-- **The top-down walk computes the least vouched-for set.** It accepts each occurrence of an
embedded certificate that equals an anchor or has a chain from one, once, and no other; what it
accepts is in every set that holds the anchors and is closed under the links; and neither the order
of the embedded certificates nor the order or repetition of the anchors decides what is accepted. -/
theorem authenticatedTopDown_least (ssl : OpenSsl) (embedded : List Certificate)
    (anchors : List TrustAnchor) :
    (∃ vouched : Certificate → Bool,
      (∀ c ∈ embedded, vouched c = true ↔
        c ∈ anchorCertificates anchors ∨ Connected ssl embedded anchors c) ∧
      (authenticatedTopDown ssl embedded anchors).value.Perm (embedded.filter vouched)) ∧
    (∀ closed : Certificate → Prop, (∀ a ∈ anchors, closed a.certificate) →
      (∀ issuer, closed issuer → ∀ c ∈ embedded, (c.issuedBy ssl issuer).value = true → closed c) →
      ∀ c ∈ (authenticatedTopDown ssl embedded anchors).value, closed c) ∧
    ∀ embedded' anchors', embedded'.Perm embedded → (∀ a, a ∈ anchors' ↔ a ∈ anchors) →
      (authenticatedTopDown ssl embedded' anchors').value.Perm
        (authenticatedTopDown ssl embedded anchors).value := by
  classical
  have exact : ∀ embedded anchors, ∀ c ∈ embedded,
      decide (Vouched ssl embedded anchors c) = true ↔ Vouched ssl embedded anchors c :=
    fun _ _ _ _ => decide_eq_true_iff
  refine ⟨⟨fun c => decide (Vouched ssl embedded anchors c), ?_,
    authenticatedTopDown_perm (exact embedded anchors)⟩, ?_, ?_⟩
  · intro c mem
    rw [exact embedded anchors c mem]
    constructor
    · exact Vouched.connected
    · rintro (equal | connected)
      · exact .of_anchorCertificates equal
      · exact connected.vouched mem
  · intro closed start step c accepted
    have vouched := (mem_authenticatedTopDown accepted).1
    clear accepted
    induction vouched with
    | anchor pinned => exact start _ pinned
    | issued _ mem link ih => exact step _ ih _ mem link
  · intro embedded' anchors' reordered same
    have vouched : ∀ c ∈ embedded', decide (Vouched ssl embedded anchors c) = true ↔
        Vouched ssl embedded' anchors' c := by
      intro c _
      rw [decide_eq_true_iff]
      exact Vouched.congr (fun c => reordered.mem_iff.symm) (fun a => (same a).symm) c
    exact (authenticatedTopDown_perm vouched).trans
      ((reordered.filter _).trans (authenticatedTopDown_perm (exact embedded anchors)).symm)

/-- The intermediate, embedded twice and after the leaf, is accepted twice and first. -/
theorem authenticatedTopDown_least_reordered :
    (authenticatedTopDown Sample.openSsl [Sample.leaf, Sample.wwdr, Sample.wwdr]
      Sample.anchors).value = [Sample.wwdr, Sample.wwdr, Sample.leaf] ∧
    (authenticatedTopDown Sample.openSsl [Sample.wwdr, Sample.leaf, Sample.wwdr]
      Sample.anchors).value.Perm (authenticatedTopDown Sample.openSsl
        [Sample.leaf, Sample.wwdr, Sample.wwdr] Sample.anchors).value :=
  ⟨by decide +kernel, (authenticatedTopDown_least Sample.openSsl _ _).2.2 _ _
    (List.Perm.swap _ _ _) fun _ => Iff.rfl⟩

/-! ## Up from the target -/

variable {target : Certificate} {untrusted : List Certificate}

/-- The upward link: another certificate signed this one. -/
def signs (ssl : OpenSsl) (below candidate : Certificate) : Bool :=
  !below.sameAs candidate && (below.signedBy ssl candidate).value

/-- One step up a path: to another certificate of `untrusted`, which signed this one. -/
def SignedAbove (ssl : OpenSsl) (untrusted : List Certificate) (below above : Certificate) : Prop :=
  below ≠ above ∧ above ∈ untrusted ∧ (below.signedBy ssl above).value = true

theorem value_signedOneOf (frontier : List Certificate) (candidate : Certificate) :
    (signedOneOf ssl frontier candidate).value =
      frontier.any fun below => signs ssl below candidate := by
  rw [signedOneOf, Traced.value_any]
  congr 1
  funext below
  cases same : below.sameAs candidate <;> simp [signs, same]

/-- What one round of `linkedAbove` links. -/
def linkedNext (ssl : OpenSsl) (untrusted linked frontier : List Certificate) : List Certificate :=
  (unlinked untrusted linked).filter fun candidate => (signedOneOf ssl frontier candidate).value

theorem linkedNext_eq (linked frontier : List Certificate) :
    linkedNext ssl untrusted linked frontier =
      Rounds.next (signs ssl) frontier (unlinked untrusted linked) := by
  simp only [linkedNext, value_signedOneOf, Rounds.next]

/-- Leaving out what a round links is leaving out what it has a link to: a copy of a linked
certificate is linked with it. -/
theorem unlinked_append_next (linked frontier : List Certificate) :
    unlinked untrusted (linked ++ Rounds.next (signs ssl) frontier (unlinked untrusted linked)) =
      Rounds.rest (signs ssl) frontier (unlinked untrusted linked) := by
  have split : ∀ next, unlinked untrusted (linked ++ next) =
      (unlinked untrusted linked).filter fun c => !next.any fun seen => seen.sameAs c := by
    intro next
    simp [unlinked, List.filter_filter, Bool.and_comm]
  rw [split, Rounds.rest]
  refine List.filter_congr fun c mem => ?_
  congr 1
  rw [Bool.eq_iff_iff, any_sameAs, Rounds.next, List.mem_filter, and_iff_right mem]

/-- The upward walk links what the rounds take. -/
theorem value_linkedRounds_eq (linked frontier : List Certificate) :
    (linkedRounds ssl untrusted linked frontier).value =
      linked ++ Rounds.closure (signs ssl) frontier (unlinked untrusted linked) := by
  have taken : ∀ linked frontier,
      (Traced.filter (signedOneOf ssl frontier) (unlinked untrusted linked)).value =
        Rounds.next (signs ssl) frontier (unlinked untrusted linked) :=
    fun linked frontier => (Traced.value_filter _ _).trans (linkedNext_eq linked frontier)
  fun_induction linkedRounds ssl untrusted linked frontier with
  | case1 linked frontier round none =>
    rw [Rounds.closure, dif_pos ((taken linked frontier).symm.trans none), List.append_nil]
    rfl
  | case2 linked frontier round more ih =>
    have next : round.value = Rounds.next (signs ssl) frontier (unlinked untrusted linked) :=
      taken linked frontier
    rw [Traced.value_bind, ih, next, unlinked_append_next, List.append_assoc]
    conv => rhs; rw [Rounds.closure, dif_neg (next ▸ more)]

/-- A certificate is reached in the rounds iff steps up the path lead to it. -/
theorem reached_iff_transGen {c : Certificate} :
    Rounds.Reached (signs ssl) [target] untrusted c ↔
      Relation.TransGen (SignedAbove ssl untrusted) target c := by
  have step : ∀ below above, above ∈ untrusted → (signs ssl below above = true ↔
      SignedAbove ssl untrusted below above) := by
    intro below above mem
    simp [signs, SignedAbove, Certificate.sameAs, mem]
  constructor
  · intro h
    induction h with
    | first above mem link =>
      rw [List.mem_singleton] at above
      exact .single (above ▸ (step _ _ mem).mp link)
    | onward _ mem link ih => exact ih.tail ((step _ _ mem).mp link)
  · intro h
    induction h with
    | single link =>
      exact .first (List.mem_singleton.mpr rfl) link.2.1 ((step _ _ link.2.1).mpr link)
    | tail _ link ih => exact .onward ih link.2.1 ((step _ _ link.2.1).mpr link)

/-- The upward walk keeps exactly the certificates steps up the path lead to. -/
theorem kept_iff {c : Certificate} :
    ((linkedRounds ssl untrusted [] [target]).value.any fun seen => seen.sameAs c) = true ↔
      Relation.TransGen (SignedAbove ssl untrusted) target c := by
  have all : unlinked untrusted [] = untrusted := List.filter_eq_self.mpr fun _ _ => rfl
  rw [any_sameAs, value_linkedRounds_eq, all, List.nil_append, Rounds.mem_closure_iff,
    reached_iff_transGen]

theorem mem_linkedAbove_iff {c : Certificate} :
    c ∈ (linkedAbove ssl target untrusted).value ↔
      Relation.TransGen (SignedAbove ssl untrusted) target c := by
  have inside : Relation.TransGen (SignedAbove ssl untrusted) target c → c ∈ untrusted := by
    intro reached
    cases reached with
    | single link => exact link.2.1
    | tail _ link => exact link.2.1
  rw [linkedAbove, Traced.value_bind, Traced.value_pure, List.mem_filter, kept_iff,
    and_iff_right_of_imp inside]

/-! ## Where the walks meet -/

/-- `issued_by` implies `signed_by`. -/
def IssuedIsSigned (ssl : OpenSsl) : Prop :=
  ∀ c issuer : Certificate, (c.issuedBy ssl issuer).value = true →
    (c.signedBy ssl issuer).value = true

/-- Down a chain to the target, everything above the target has signed its way up from it. -/
theorem signedAbove_of_chain (implies : IssuedIsSigned ssl) {c : Certificate}
    {chain : List Certificate} (links : IssuedInTurn ssl (c :: chain ++ [target]))
    (inside : ∀ i ∈ c :: chain, i ∈ untrusted) (other : c ≠ target) :
    Relation.TransGen (SignedAbove ssl untrusted) target c := by
  induction chain generalizing c with
  | nil =>
    have link := (List.isChain_cons_cons.mp links).1
    exact .single ⟨other.symm, inside c List.mem_cons_self, implies _ _ link⟩
  | cons next chain ih =>
    obtain ⟨link, links⟩ := List.isChain_cons_cons.mp links
    rw [List.forall_mem_cons] at inside
    have signed : (next.signedBy ssl c).value = true := implies _ _ link
    by_cases last : next = target
    · subst last
      exact .single ⟨other.symm, inside.1, signed⟩
    · by_cases same : next = c
      · exact same ▸ ih links inside.2 last
      · exact (ih links inside.2 last).tail ⟨same, inside.1, signed⟩

/-- Everything embedded on a chain from an anchor down to the target, the target itself apart, is
kept on the way up. -/
theorem kept_of_chain (implies : IssuedIsSigned ssl) {a : TrustAnchor} (pinned : a ∈ anchors)
    (mem : target ∈ embedded) {inner : List Certificate} (inside : ∀ i ∈ inner, i ∈ embedded)
    (links : IssuedInTurn ssl (a.certificate :: inner ++ [target])) {c : Certificate}
    (onChain : c ∈ a.certificate :: inner) (copy : c ∈ embedded) (other : c ≠ target) :
    Relation.TransGen (SignedAbove ssl (authenticatedTopDown ssl embedded anchors).value)
      target c := by
  have vouched : ∀ i ∈ inner ++ [target], Vouched ssl embedded anchors i := by
    refine Vouched.of_chain (.anchor pinned) ?_ links
    simpa [or_imp, forall_and] using ⟨inside, mem⟩
  have accepted : ∀ i ∈ inner, i ∈ (authenticatedTopDown ssl embedded anchors).value :=
    fun i hi =>
      mem_authenticatedTopDown_iff.mpr ⟨vouched i (List.mem_append_left _ hi), inside i hi⟩
  rcases List.mem_cons.mp onChain with rfl | below
  · have pinned : Vouched ssl embedded anchors a.certificate := .anchor pinned
    have top := mem_authenticatedTopDown_iff.mpr ⟨pinned, copy⟩
    exact signedAbove_of_chain implies links (List.forall_mem_cons.mpr ⟨top, accepted⟩) other
  · obtain ⟨front, back, rfl⟩ := List.append_of_mem below
    have lower : IssuedInTurn ssl (c :: back ++ [target]) := by
      refine links.suffix ⟨a.certificate :: front, ?_⟩
      simp
    exact signedAbove_of_chain implies lower
      (fun i hi => accepted i (List.mem_append_right _ hi)) other

theorem mayHaveIssued_of_issues {issuer c : Certificate} (link : issues ssl issuer c = true) :
    mayHaveIssued ssl issuer c = true := by
  cases paired : ssl.checkIssued issuer c with
  | true => exact paired
  | false =>
    rw [issues, Certificate.issuedBy, paired] at link
    cases link

/-- An anchor a chain starts at is a candidate of `run`: the certificate it issued is kept, or is
the target. -/
theorem isCandidate_of_chain (implies : IssuedIsSigned ssl) {a : TrustAnchor} (pinned : a ∈ anchors)
    (mem : target ∈ embedded) {inner : List Certificate} (inside : ∀ i ∈ inner, i ∈ embedded)
    (links : IssuedInTurn ssl (a.certificate :: inner ++ [target])) :
    isCandidate ssl target (authenticatedTopDown ssl embedded anchors).value a.certificate =
      true := by
  have issued : ∀ c, issues ssl a.certificate c = true → c ∈ target :: offered ssl target
      (authenticatedTopDown ssl embedded anchors).value → isCandidate ssl target
        (authenticatedTopDown ssl embedded anchors).value a.certificate = true := by
    intro c link offered
    refine List.any_eq_true.mpr ⟨c, offered, ?_⟩
    rw [mayHaveIssued_of_issues link, Bool.true_or]
  cases inner with
  | nil => exact issued target (List.isChain_cons_cons.mp links).1 List.mem_cons_self
  | cons first inner =>
    apply issued first (List.isChain_cons_cons.mp links).1
    by_cases last : first = target
    · exact last ▸ List.mem_cons_self
    · have kept := kept_of_chain implies pinned mem inside links
        (List.mem_cons_of_mem _ List.mem_cons_self) (inside first List.mem_cons_self) last
      exact List.mem_cons_of_mem _ (mem_linkedAbove_iff.mpr kept)

/-- **The upward walk keeps exactly the certificates a path can use.** It keeps, in their order and
with their copies, the certificates of `untrusted` that steps from the target lead to. Over what the
top-down walk accepted, where `issued_by` implies `signed_by`, it keeps everything embedded on a
chain from an anchor down to the target, the target itself apart, and `run` has a candidate
anchor. -/
theorem linkedAbove_exact (ssl : OpenSsl) :
    (∀ target untrusted, ∃ kept : Certificate → Bool,
      (∀ c, kept c = true ↔ Relation.TransGen (SignedAbove ssl untrusted) target c) ∧
      (linkedAbove ssl target untrusted).value = untrusted.filter kept) ∧
    (IssuedIsSigned ssl → ∀ (embedded : List Certificate) (anchors : List TrustAnchor)
      (target : Certificate), target ∈ (authenticatedTopDown ssl embedded anchors).value →
      (∀ a ∈ anchors, ∀ inner : List Certificate, (∀ i ∈ inner, i ∈ embedded) →
        IssuedInTurn ssl (a.certificate :: inner ++ [target]) →
        ∀ c ∈ a.certificate :: inner, c ∈ embedded → c ≠ target →
          c ∈ (linkedAbove ssl target
            (authenticatedTopDown ssl embedded anchors).value).value) ∧
      candidates ssl target (authenticatedTopDown ssl embedded anchors).value
        (anchorCertificates anchors) ≠ []) := by
  refine ⟨fun target untrusted => ⟨_, fun c => kept_iff, rfl⟩, ?_⟩
  intro implies embedded anchors target accepted
  obtain ⟨vouched, mem⟩ := mem_authenticatedTopDown_iff.mp accepted
  constructor
  · intro a pinned inner inside links c onChain copy other
    exact mem_linkedAbove_iff.mpr (kept_of_chain implies pinned mem inside links onChain copy other)
  · suffices found : ∃ a ∈ anchors, isCandidate ssl target
        (authenticatedTopDown ssl embedded anchors).value a.certificate = true by
      obtain ⟨a, pinned, candidate⟩ := found
      exact List.ne_nil_of_mem (List.mem_filter.mpr ⟨List.mem_map_of_mem pinned, candidate⟩)
    rcases vouched.connected with equal | ⟨a, pinned, inner, inside, links⟩
    · obtain ⟨a, pinned, rfl⟩ := List.mem_map.mp equal
      refine ⟨a, pinned, List.any_eq_true.mpr ⟨a.certificate, List.mem_cons_self, ?_⟩⟩
      simp [Certificate.sameAs]
    · exact ⟨a, pinned, isCandidate_of_chain implies pinned mem inside links⟩

/-- From the root through the intermediate down to the leaf, the intermediate is kept. -/
theorem linkedAbove_exact_leaf :
    Sample.wwdr ∈ (linkedAbove Sample.openSsl Sample.leaf
      (authenticatedTopDown Sample.openSsl [Sample.leaf, Sample.wwdr] Sample.anchors).value).value ∧
    candidates Sample.openSsl Sample.leaf
      (authenticatedTopDown Sample.openSsl [Sample.leaf, Sample.wwdr] Sample.anchors).value
      (anchorCertificates Sample.anchors) ≠ [] := by
  have implies : IssuedIsSigned Sample.openSsl := by
    intro c issuer link
    have paired : Sample.issued issuer c = true := mayHaveIssued_of_issues link
    have named : Sample.openSsl.subjectIsIssuerOf issuer c = true := paired
    rw [Certificate.signedBy, named]
    exact paired
  have links : IssuedInTurn Sample.openSsl [Sample.root, Sample.wwdr, Sample.leaf] := by
    unfold IssuedInTurn
    decide +kernel
  obtain ⟨kept, candidates⟩ := (linkedAbove_exact Sample.openSsl).2 implies
    [Sample.leaf, Sample.wwdr] Sample.anchors Sample.leaf (by decide +kernel)
  refine ⟨kept _ List.mem_cons_self [Sample.wwdr] (by decide) links _ (by decide) (by decide)
    (by decide), candidates⟩

end ReceiptVerifier
