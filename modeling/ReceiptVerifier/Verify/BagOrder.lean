import ReceiptVerifier.Verify.Anchors
import ReceiptVerifier.Verify.Bag
import ReceiptVerifier.Verify.Walks

/-!
# The order of the unsigned bag

The lookup takes one certificate and does not come back. Of several for one name and key, all
offered because all of them sign the path, it prefers the valid ones, then those an anchor vouched
for in an earlier round, and between the rest the order of the bag decides. `MayClimb` is the paths
these ties allow: the path of every order of the bag is one of them, and each of them is the path of
some order. So the order is immaterial when every path the ties allow leads to the same verdict.
-/

namespace ReceiptVerifier

open Openssl

/-! ## Ties -/

section

variable {lookup : Lookup} {second : Int} {round : Certificate → Nat} {store : List Certificate}

/-- What the lookup prefers at a second. -/
def rankAt (lookup : Lookup) (second : Int) (c : Certificate) : Choice.Rank :=
  Choice.rank (fun issuer => lookup.validAt issuer second) lookup.notAfter c

/-- The order of the bag may make the lookup take `issuer` for a certificate: none of its rivals
ranks higher, and none that ranks as high was vouched for in an earlier round. -/
structure MayTake (lookup : Lookup) (second : Int) (round : Certificate → Nat)
    (certificate : Certificate) (remaining : List Certificate) (issuer : Certificate) : Prop where
  paired : issuer ∈ lookup.paired certificate remaining
  highest : ∀ rival ∈ lookup.paired certificate remaining,
    rankAt lookup second rival ≤ rankAt lookup second issuer
  earliest : ∀ rival ∈ lookup.paired certificate remaining,
    rankAt lookup second issuer ≤ rankAt lookup second rival → round issuer ≤ round rival

/-- The path goes on through the untrusted certificates. -/
structure GoesOn (lookup : Lookup) (second : Int) (store : List Certificate)
    (certificate : Certificate) : Prop where
  notStored : store.contains certificate = false
  unanchored : lookup.findIssuer second certificate store = none
  notSelfSigned : lookup.selfSigned certificate = false

/-- The paths from a certificate up that the ties allow. -/
inductive MayClimb (lookup : Lookup) (second : Int) (round : Certificate → Nat)
    (store : List Certificate) : List Certificate → Certificate → List Certificate → Prop
  | stored {remaining : List Certificate} {c : Certificate} (h : store.contains c = true) :
      MayClimb lookup second round store remaining c [c]
  | anchored {remaining : List Certificate} {c anchor : Certificate}
      (notStored : store.contains c = false)
      (found : lookup.findIssuer second c store = some anchor) :
      MayClimb lookup second round store remaining c [c, anchor]
  | selfSigned {remaining : List Certificate} {c : Certificate}
      (notStored : store.contains c = false) (unanchored : lookup.findIssuer second c store = none)
      (h : lookup.selfSigned c = true) :
      MayClimb lookup second round store remaining c [c]
  | top {remaining : List Certificate} {c : Certificate} (on : GoesOn lookup second store c)
      (none : lookup.paired c remaining = []) :
      MayClimb lookup second round store remaining c [c]
  | above {remaining path : List Certificate} {c issuer : Certificate}
      (on : GoesOn lookup second store c)
      (takes : MayTake lookup second round c remaining issuer)
      (rest : MayClimb lookup second round store (remaining.filter fun c => !c.sameAs issuer)
        issuer path) :
      MayClimb lookup second round store remaining c (c :: path)

variable (lookup) in
theorem mem_paired_congr {remaining remaining' : List Certificate}
    (same : remaining'.Perm remaining) (c issuer : Certificate) :
    issuer ∈ lookup.paired c remaining' ↔ issuer ∈ lookup.paired c remaining :=
  (same.filter _).mem_iff

/-- Whatever the order, the path built is one the ties allow. -/
theorem mayClimb_climb {remaining remaining' : List Certificate} (reordered : remaining'.Perm
    remaining) (sorted : remaining'.Pairwise fun a b => round a ≤ round b) {rounds : Nat}
    (enough : remaining'.length < rounds) (c : Certificate) :
    MayClimb lookup second round store remaining c
      (lookup.climb second store rounds c remaining') := by
  induction rounds generalizing remaining remaining' c with
  | zero => cases enough
  | succ rounds ih =>
    unfold Lookup.climb
    split
    · next stored => exact .stored stored
    · next notStored =>
      have notStored := Bool.eq_false_iff.mpr notStored
      split
      · next found => exact .anchored notStored found
      · next unanchored =>
        split
        · next self => exact .selfSigned notStored unanchored self
        · next notSelf =>
          have on : GoesOn lookup second store c :=
            ⟨notStored, unanchored, Bool.eq_false_iff.mpr notSelf⟩
          split
          · next none =>
            refine .top on (List.eq_nil_iff_forall_not_mem.mpr fun issuer mem => ?_)
            rw [← mem_paired_congr lookup reordered, Choice.pick_eq_none_iff.mp none] at mem
            cases mem
          · next issuer found =>
            have taken : issuer ∈ lookup.paired c remaining' := Choice.pick_mem found
            refine .above on ⟨(mem_paired_congr lookup reordered c issuer).mp taken, ?_, ?_⟩ ?_
            · intro rival mem
              exact Choice.rank_le_of_pick found
                ((mem_paired_congr lookup reordered c rival).mpr mem)
            · intro rival mem high
              rcases Choice.pick_before (sorted.filter _) found
                ((mem_paired_congr lookup reordered c rival).mpr mem) high with rfl | before
              · exact le_rfl
              · exact before
            · refine ih (reordered.filter _) (sorted.filter _) ?_ issuer
              have fewer : (remaining'.filter fun c => !c.sameAs issuer).length <
                  remaining'.length :=
                List.length_filter_lt_length_iff_exists.mpr
                  ⟨issuer, (List.mem_filter.mp taken).1, by simp [Certificate.sameAs]⟩
              omega

theorem MayClimb.head {remaining path : List Certificate} {c : Certificate}
    (may : MayClimb lookup second round store remaining c path) : ∃ rest, path = c :: rest := by
  cases may with
  | anchored => exact ⟨_, rfl⟩
  | above => exact ⟨_, rfl⟩
  | stored | selfSigned | top => exact ⟨[], rfl⟩

/-- In order of round, and inside a round in the order of a path. -/
def inPathOrder (round : Certificate → Nat) (path : List Certificate) (a b : Certificate) : Prop :=
  round a < round b ∨ round a = round b ∧ path.idxOf a ≤ path.idxOf b

/-- With the certificates of the path in front, the lookup takes the one the path goes on with. -/
theorem MayTake.findIssuer_eq {remaining remaining' front rest : List Certificate}
    {c issuer : Certificate} (takes : MayTake lookup second round c remaining issuer)
    (apart : ∀ b ∈ remaining, b ∉ front ++ [c]) (reordered : remaining'.Perm remaining)
    (sorted : remaining'.Pairwise (inPathOrder round (front ++ c :: issuer :: rest))) :
    lookup.findIssuer second c remaining' = some issuer := by
  have same := mem_paired_congr lookup reordered c
  have taken := (same issuer).mpr takes.paired
  cases found : lookup.findIssuer second c remaining' with
  | none =>
    rw [Choice.pick_eq_none_iff.mp found] at taken
    cases taken
  | some picked =>
    have mem := (same picked).mp (Choice.pick_mem found)
    have high : rankAt lookup second issuer ≤ rankAt lookup second picked :=
      Choice.rank_le_of_pick found taken
    rcases Choice.pick_before (sorted.filter _) found taken (takes.highest picked mem) with
      rfl | earlier | ⟨-, place⟩
    · rfl
    · exact absurd (takes.earliest picked mem high) (Nat.not_le.mpr earlier)
    · -- neither is on the path yet, so the one with the first place left is the path's next
      have notFront : ∀ b ∈ lookup.paired c remaining, b ∉ front ++ [c] :=
        fun b paired => apart b (List.mem_filter.mp paired).1
      have whole : front ++ c :: issuer :: rest = (front ++ [c]) ++ issuer :: rest := by simp
      rw [whole, List.idxOf_append_of_notMem (notFront picked mem),
        List.idxOf_append_of_notMem (notFront issuer takes.paired), List.idxOf_cons_self] at place
      have first : (issuer :: rest).idxOf picked = 0 := by omega
      by_contra different
      rw [List.idxOf_cons_ne _ fun h => different (congrArg some h.symm)] at first
      cases first

/-- Each path the ties allow is the path of an order. -/
theorem MayClimb.climb_eq {remaining path : List Certificate} {c : Certificate}
    (may : MayClimb lookup second round store remaining c path)
    (front remaining' : List Certificate) (apart : ∀ b ∈ remaining, b ∉ front ++ [c])
    (reordered : remaining'.Perm remaining)
    (sorted : remaining'.Pairwise (inPathOrder round (front ++ path))) {rounds : Nat}
    (enough : remaining'.length < rounds) :
    lookup.climb second store rounds c remaining' = path := by
  induction may generalizing front remaining' rounds with
  | stored stored =>
    cases rounds with
    | zero => cases enough
    | succ rounds => rw [Lookup.climb, if_pos stored]
  | anchored notStored found =>
    cases rounds with
    | zero => cases enough
    | succ rounds => simp only [Lookup.climb, notStored, found, Bool.false_eq_true, ↓reduceIte]
  | selfSigned notStored unanchored self =>
    cases rounds with
    | zero => cases enough
    | succ rounds =>
      simp only [Lookup.climb, notStored, unanchored, self, Bool.false_eq_true, ↓reduceIte]
  | @top remaining c on alone =>
    cases rounds with
    | zero => cases enough
    | succ rounds =>
      have noIssuer : lookup.findIssuer second c remaining' = none := by
        refine Choice.pick_eq_none_iff.mpr (List.eq_nil_iff_forall_not_mem.mpr fun issuer mem => ?_)
        rw [mem_paired_congr lookup reordered, alone] at mem
        cases mem
      simp only [Lookup.climb, on.notStored, on.unanchored, on.notSelfSigned, noIssuer,
        Bool.false_eq_true, ↓reduceIte]
  | @above remaining path c issuer on takes rest ih =>
    cases rounds with
    | zero => cases enough
    | succ rounds =>
      obtain ⟨later, rfl⟩ := rest.head
      have found := takes.findIssuer_eq apart reordered sorted
      have taken : issuer ∈ remaining' := reordered.mem_iff.mpr (List.mem_filter.mp takes.paired).1
      have fewer : (remaining'.filter fun c => !c.sameAs issuer).length < remaining'.length :=
        List.length_filter_lt_length_iff_exists.mpr
          ⟨issuer, taken, by simp [Certificate.sameAs]⟩
      have apart' : ∀ b ∈ remaining.filter fun c => !c.sameAs issuer,
          b ∉ (front ++ [c]) ++ [issuer] := by
        intro b hb onPath
        obtain ⟨mem, different⟩ := List.mem_filter.mp hb
        rcases List.mem_append.mp onPath with old | new
        · exact apart b mem old
        · rw [List.mem_singleton.mp new] at different
          simp [Certificate.sameAs] at different
      have onward := ih (front ++ [c]) (remaining'.filter fun c => !c.sameAs issuer) apart'
        (reordered.filter _) (by rw [List.append_assoc]; exact sorted.filter _)
        (Nat.lt_of_lt_of_le fewer (Nat.lt_succ_iff.mp enough))
      simp only [Lookup.climb, on.notStored, on.unanchored, on.notSelfSigned, found, onward,
        Bool.false_eq_true, ↓reduceIte]

end

/-! ## Reordered bags -/

section

variable {ssl : OpenSsl} {anchors : List TrustAnchor} {bag bag' : List Certificate}

/-- The round of the top-down walk that accepts a certificate. A copy of an anchor comes first. -/
def vouchRound (ssl : OpenSsl) (anchors : List TrustAnchor) (bag : List Certificate)
    (c : Certificate) : Nat :=
  if isAnchor anchors c then 0
  else
    Rounds.level (issues ssl) (anchorCertificates anchors ++ bag.filter (isAnchor anchors))
      (bag.filter fun c => !isAnchor anchors c) c + 1

theorem mem_firstIssuers_congr (reordered : bag'.Perm bag) (c : Certificate) :
    c ∈ anchorCertificates anchors ++ bag'.filter (isAnchor anchors) ↔
      c ∈ anchorCertificates anchors ++ bag.filter (isAnchor anchors) :=
  ((reordered.filter _).append_left _).mem_iff

theorem vouchRound_congr (reordered : bag'.Perm bag) :
    vouchRound ssl anchors bag' = vouchRound ssl anchors bag := by
  funext c
  unfold vouchRound
  rw [Rounds.level_congr (mem_firstIssuers_congr reordered) fun _ => (reordered.filter _).mem_iff]

theorem authenticated_perm (reordered : bag'.Perm bag) :
    (authenticatedTopDown ssl bag' anchors).value.Perm
      (authenticatedTopDown ssl bag anchors).value := by
  rw [value_authenticatedTopDown, value_authenticatedTopDown]
  exact (reordered.filter _).append
    (Rounds.closure_perm (mem_firstIssuers_congr reordered) (reordered.filter _))

/-- The walk's list is in order of round, and inside a round in the order of the bag. -/
theorem authenticated_sorted {r : Certificate → Certificate → Prop} (sorted : bag.Pairwise r) :
    (authenticatedTopDown ssl bag anchors).value.Pairwise fun a b =>
      vouchRound ssl anchors bag a < vouchRound ssl anchors bag b ∨
        vouchRound ssl anchors bag a = vouchRound ssl anchors bag b ∧ r a b := by
  have copy : ∀ c ∈ bag.filter (isAnchor anchors), vouchRound ssl anchors bag c = 0 := by
    intro c mem
    rw [vouchRound, if_pos (List.mem_filter.mp mem).2]
  have below : ∀ c ∈ Rounds.closure (issues ssl)
      (anchorCertificates anchors ++ bag.filter (isAnchor anchors))
      (bag.filter fun c => !isAnchor anchors c), vouchRound ssl anchors bag c =
        Rounds.level (issues ssl) (anchorCertificates anchors ++ bag.filter (isAnchor anchors))
          (bag.filter fun c => !isAnchor anchors c) c + 1 := by
    intro c taken
    have pending := (Rounds.sound (R := fun _ => True) (fun _ _ => trivial)
      (fun _ _ _ _ _ => trivial) c taken).2
    rw [vouchRound, if_neg (by simpa using (List.mem_filter.mp pending).2)]
  rw [value_authenticatedTopDown]
  refine List.pairwise_append.mpr ⟨?_, ?_, ?_⟩
  · refine (sorted.filter _).imp_of_mem fun {a b} ha hb related => .inr ⟨?_, related⟩
    rw [copy a ha, copy b hb]
  · refine (Rounds.pairwise_closure (sorted.filter _)).imp_of_mem fun {a b} ha hb ordered => ?_
    rw [below a ha, below b hb]
    rcases ordered with less | ⟨same, related⟩
    · exact .inl (Nat.succ_lt_succ less)
    · exact .inr ⟨congrArg Nat.succ same, related⟩
  · intro a ha b hb
    rw [copy a ha, below b hb]
    exact .inl (Nat.succ_pos _)

end

section

variable {ssl : OpenSsl} {untrusted untrusted' : List Certificate}

/-- The upward walk over a reordered bag links the same, reordered. -/
theorem linkedRounds_perm (target : Certificate) (reordered : untrusted'.Perm untrusted) :
    (linkedRounds ssl untrusted' [] [target]).value.Perm
      (linkedRounds ssl untrusted [] [target]).value := by
  rw [value_linkedRounds_eq, value_linkedRounds_eq]
  exact (Rounds.closure_perm (fun _ => Iff.rfl) (reordered.filter _)).append_left []

/-- The certificates offered for a reordered bag are the ones offered, reordered. -/
theorem offered_perm {target : Certificate} (reordered : untrusted'.Perm untrusted) :
    (offered ssl target untrusted').Perm (offered ssl target untrusted) := by
  have any : ∀ candidate : Certificate,
      ((linkedRounds ssl untrusted' [] [target]).value.any fun seen => seen.sameAs candidate) =
        (linkedRounds ssl untrusted [] [target]).value.any fun seen => seen.sameAs candidate :=
    fun _ => (linkedRounds_perm target reordered).any_eq
  unfold offered linkedAbove
  simp only [Traced.value_bind, Traced.value_pure, any]
  exact reordered.filter _

theorem offered_sublist (target : Certificate) :
    (offered ssl target untrusted).Sublist untrusted :=
  List.filter_sublist

end

/-! ## Paths of an envelope -/

section

variable {ssl : OpenSsl} {lookup : Lookup} {anchors : List TrustAnchor}
  {bag bag' store chain : List Certificate} {signer : Certificate} {second : Int}

/-- The untrusted certificates the lookup may take above a signer. -/
def above (ssl : OpenSsl) (anchors : List TrustAnchor) (bag : List Certificate)
    (signer : Certificate) : List Certificate :=
  (offered ssl signer (authenticatedTopDown ssl bag anchors).value).filter fun c =>
    !c.sameAs signer

/-- The paths of a signer to a store that the ties allow. -/
def MayBuild (ssl : OpenSsl) (lookup : Lookup) (anchors : List TrustAnchor)
    (bag : List Certificate) (signer : Certificate) (second : Int)
    (store chain : List Certificate) : Prop :=
  MayClimb lookup second (vouchRound ssl anchors bag) store (above ssl anchors bag signer) signer
    chain

/-- The path of a signer to a store in the bag's order. -/
def pathIn (ssl : OpenSsl) (lookup : Lookup) (anchors : List TrustAnchor) (bag : List Certificate)
    (signer : Certificate) (second : Int) (store : List Certificate) : List Certificate :=
  lookup.buildChain second signer (offered ssl signer (authenticatedTopDown ssl bag anchors).value)
    store

theorem above_perm (reordered : bag'.Perm bag) :
    (above ssl anchors bag' signer).Perm (above ssl anchors bag signer) :=
  (offered_perm (authenticated_perm reordered)).filter _

theorem above_sorted {r : Certificate → Certificate → Prop} (sorted : bag.Pairwise r) :
    (above ssl anchors bag signer).Pairwise fun a b =>
      vouchRound ssl anchors bag a < vouchRound ssl anchors bag b ∨
        vouchRound ssl anchors bag a = vouchRound ssl anchors bag b ∧ r a b :=
  ((authenticated_sorted sorted).sublist (offered_sublist signer)).filter _

theorem length_above_lt : (above ssl anchors bag signer).length <
    (offered ssl signer (authenticatedTopDown ssl bag anchors).value).length + 1 :=
  Nat.lt_succ_of_le (List.length_filter_le _ _)

/-- The path in any order of the bag is one the ties allow. -/
theorem mayBuild_pathIn (reordered : bag'.Perm bag) :
    MayBuild ssl lookup anchors bag signer second store
      (pathIn ssl lookup anchors bag' signer second store) := by
  refine mayClimb_climb (above_perm reordered) ?_ length_above_lt signer
  have any : bag'.Pairwise fun _ _ => True := List.pairwise_of_forall fun _ _ => trivial
  refine (above_sorted any).imp fun ordered => ?_
  rw [vouchRound_congr reordered] at ordered
  rcases ordered with less | ⟨same, -⟩
  · exact Nat.le_of_lt less
  · exact Nat.le_of_eq same

/-- A path the ties allow is the path in the order that puts its certificates in front. -/
theorem MayBuild.exists_order (may : MayBuild ssl lookup anchors bag signer second store chain) :
    ∃ bag' : List Certificate, bag'.Perm bag ∧
      pathIn ssl lookup anchors bag' signer second store = chain := by
  let bag' := bag.mergeSort fun a b => decide (chain.idxOf a ≤ chain.idxOf b)
  have reordered : bag'.Perm bag := List.mergeSort_perm _ _
  have inOrder : bag'.Pairwise fun a b => chain.idxOf a ≤ chain.idxOf b := by
    refine (List.pairwise_mergeSort ?_ ?_ bag).imp fun h => of_decide_eq_true h
    · intro a b c ab bc
      exact decide_eq_true (Nat.le_trans (of_decide_eq_true ab) (of_decide_eq_true bc))
    · intro a b
      rw [Bool.or_eq_true, decide_eq_true_eq, decide_eq_true_eq]
      exact Nat.le_total _ _
  refine ⟨bag', reordered, MayClimb.climb_eq may [] (above ssl anchors bag' signer) ?_
    (above_perm reordered) ?_ length_above_lt⟩
  · intro b mem isSigner
    obtain rfl : b = signer := by simpa using isSigner
    simpa [Certificate.sameAs] using (List.mem_filter.mp mem).2
  · have sorted : (above ssl anchors bag' signer).Pairwise
        (inPathOrder (vouchRound ssl anchors bag') chain) := above_sorted inOrder
    rwa [vouchRound_congr reordered] at sorted

/-- What the run over a store makes of a path. -/
def outcomeOn (lookup : Lookup) (anchors : List Certificate) (second : Int)
    (store chain : List Certificate) : PathOutcome :=
  let (verified, reports) := lookup.judge store chain second
  let problems := reports.filterMap (recordProblem anchors)
  { chain := chain
    anchored := chain.getLast?.any fun top => anchors.any fun anchor => top.sameAs anchor
    problems := if !verified && problems.isEmpty then [⟨0, .other (-1)⟩] else problems }

theorem outcomeOver_eq (looks : ssl.LooksUp lookup) (pinned : List Certificate) :
    outcomeOver ssl signer (authenticatedTopDown ssl bag anchors).value pinned second store =
      outcomeOn lookup pinned second store
        (pathIn ssl lookup anchors bag signer second store) := by
  unfold outcomeOver runWith
  rw [Traced.value_bind, looks]
  rfl

theorem runsAnswer_of_looksUp (looks : ssl.LooksUp lookup) (untrusted : List Certificate) :
    RunsAnswer ssl signer untrusted second := by
  intro store
  rw [looks]
  rfl

theorem triedStores_congr {untrusted untrusted' : List Certificate}
    (reordered : untrusted'.Perm untrusted) (pinned : List Certificate) :
    triedStores ssl signer untrusted' pinned = triedStores ssl signer untrusted pinned := by
  have same : isCandidate ssl signer untrusted' = isCandidate ssl signer untrusted := by
    funext anchor
    unfold isCandidate
    rw [Bool.eq_iff_iff, List.any_eq_true, List.any_eq_true]
    simp only [List.mem_cons, (offered_perm reordered).mem_iff]
  unfold triedStores candidates
  rw [same]

/-- The stores tried for a signer. -/
def storesFor (ssl : OpenSsl) (anchors : List TrustAnchor) (bag : List Certificate)
    (signer : Certificate) : List (List Certificate) :=
  triedStores ssl signer (authenticatedTopDown ssl bag anchors).value (anchorCertificates anchors)

theorem storesFor_congr (reordered : bag'.Perm bag) :
    storesFor ssl anchors bag' signer = storesFor ssl anchors bag signer :=
  triedStores_congr (authenticated_perm reordered) _

end

/-! ## Verdicts -/

section

variable {ssl : OpenSsl} {lookup : Lookup} {anchors : List TrustAnchor}
  {bag bag' : List Certificate} {signer : Certificate} {atMillis : Int}

/-- The receipt's marker check on a path that ends at an anchor. -/
def hasMarkerBelow (ssl : OpenSsl) (chain : List Certificate) : Bool :=
  hasWwdrMarker ssl chain.dropLast

/-- The signer's verdict with one path for each store: the first that passes is on time and has the
marker. -/
def acceptedOn (ssl : OpenSsl) (lookup : Lookup) (anchors : List TrustAnchor)
    (bag : List Certificate) (signer : Certificate) (atMillis : Int)
    (chains : List (List Certificate)) : Bool :=
  Choice.accepts PathOutcome.passed (goodRun ssl atMillis (hasMarkerBelow ssl))
    (List.zipWith (outcomeOn lookup (anchorCertificates anchors) (seconds atMillis).1)
      (storesFor ssl anchors bag signer) chains)

/-- The ties allow these paths, one for each store. -/
def Selection (ssl : OpenSsl) (lookup : Lookup) (anchors : List TrustAnchor)
    (bag : List Certificate) (signer : Certificate) (atMillis : Int)
    (chains : List (List Certificate)) : Prop :=
  List.Forall₂ (MayBuild ssl lookup anchors bag signer (seconds atMillis).1)
    (storesFor ssl anchors bag signer) chains

/-- The paths of an order of the bag. -/
def chainsIn (ssl : OpenSsl) (lookup : Lookup) (anchors : List TrustAnchor)
    (bag : List Certificate) (signer : Certificate) (atMillis : Int) : List (List Certificate) :=
  (storesFor ssl anchors bag signer).map
    (pathIn ssl lookup anchors bag signer (seconds atMillis).1)

theorem selection_chainsIn (reordered : bag'.Perm bag) :
    Selection ssl lookup anchors bag signer atMillis
      (chainsIn ssl lookup anchors bag' signer atMillis) := by
  unfold Selection chainsIn
  rw [storesFor_congr reordered, List.forall₂_map_right_iff, List.forall₂_same]
  exact fun store _ => mayBuild_pathIn reordered

theorem pathAccepted_iff_acceptedOn (looks : ssl.LooksUp lookup) (reordered : bag'.Perm bag) :
    PathAccepted ssl signer (authenticatedTopDown ssl bag' anchors).value atMillis
        (hasMarkerBelow ssl) anchors ↔
      acceptedOn ssl lookup anchors bag signer atMillis
        (chainsIn ssl lookup anchors bag' signer atMillis) = true := by
  rw [PathAccepted, checkedPath_accepts (runsAnswer_of_looksUp looks _), acceptedOn, chainsIn,
    ← storesFor_congr reordered, List.zipWith_map_right, List.zipWith_self]
  have outcomes : outcomeOver ssl signer (authenticatedTopDown ssl bag' anchors).value
      (anchorCertificates anchors) (seconds atMillis).1 = fun store =>
        outcomeOn lookup (anchorCertificates anchors) (seconds atMillis).1 store
          (pathIn ssl lookup anchors bag' signer (seconds atMillis).1 store) :=
    funext fun store => outcomeOver_eq looks _
  rw [outcomes]
  rfl

end

/-! ## The envelope -/

section

variable {ssl : OpenSsl} {jiff : Jiff} {lookup : Lookup} {anchors : List TrustAnchor}
  {cms cms' : SignedData} {clock : Clock}

/-- A signer that passes everything but the path and the marker of its intermediate. -/
structure Eligible (ssl : OpenSsl) (jiff : Jiff) (anchors : List TrustAnchor) (cms : SignedData)
    (clock : Clock) (signer : Certificate) (atMillis : Int) : Prop where
  readable : ∀ c ∈ cms.certificates, c.isReadable ssl = true
  embedded : signer ∈ cms.certificates
  listed : signer ∈ (authenticatedTopDown ssl cms.certificates anchors).value
  usableKey : signer.hasUsableKey ssl = true
  leafMarker : ssl.hasExtension signer signingLeafOid = true
  instant : instantOf ssl jiff (parsePayloadAttributes ssl cms.content) clock = some atMillis
  signed : ∃ info ∈ cms.signerInfos, SignedData.namesSigner ssl info signer = true ∧
    cms.contentTypeAttributeMatches ssl info = true ∧
    (cms.verifySigner ssl info signer).value = true

theorem marker_iff {authenticated : List Certificate} {signer : Certificate} {atMillis : Int} :
    (∃ path intermediate,
        (receiptPath ssl signer authenticated anchors atMillis).value = .ok path ∧
        path[1]? = some intermediate ∧
        ssl.hasExtension intermediate wwdrIntermediateOid = true) ↔
      PathAccepted ssl signer authenticated atMillis (hasMarkerBelow ssl) anchors := by
  simp only [receiptPath_ok_iff, PathAccepted, hasMarkerBelow, hasWwdrMarker,
    Option.any_eq_true]
  constructor
  · rintro ⟨path, intermediate, ⟨passed, rfl⟩, second, marked⟩
    exact ⟨passed, intermediate, second, marked⟩
  · rintro ⟨passed, intermediate, second, marked⟩
    exact ⟨_, intermediate, ⟨passed, rfl⟩, second, marked⟩

/-- An envelope is accepted when the path of some eligible signer is. -/
theorem verifyEnvelope_ok_iff_eligible {der : Bytes}
    (parsed : SignedData.parse ssl der envelopeLimits = .ok cms) {attributes : SignedAttributes} :
    (verifyEnvelope ssl jiff der anchors clock).value.1 = .ok attributes ↔
      attributes = parsePayloadAttributes ssl cms.content ∧ ∃ signer atMillis,
        Eligible ssl jiff anchors cms clock signer atMillis ∧
        PathAccepted ssl signer (authenticatedTopDown ssl cms.certificates anchors).value atMillis
          (hasMarkerBelow ssl) anchors := by
  rw [value_verifyEnvelope_ok_iff parsed]
  refine and_congr_right fun _ => ?_
  constructor
  · rintro ⟨readable, info, mem, signer, embedded, named, atMillis, instant, passes⟩
    exact ⟨signer, atMillis, ⟨readable, embedded, passes.listed, passes.usableKey,
      passes.leafMarker, instant, info, mem, named, passes.contentType, passes.signature⟩,
      marker_iff.mp passes.path⟩
  · rintro ⟨signer, atMillis, eligible, accepted⟩
    obtain ⟨info, mem, named, contentType, signature⟩ := eligible.signed
    exact ⟨eligible.readable, info, mem, signer, eligible.embedded, named, atMillis,
      eligible.instant, eligible.listed, eligible.usableKey, marker_iff.mpr accepted,
      eligible.leafMarker, contentType, signature⟩

/-- The envelopes differ in the order of their bags alone. -/
structure Reordered (cms cms' : SignedData) : Prop where
  bag : cms'.certificates.Perm cms.certificates
  signerInfos : cms'.signerInfos = cms.signerInfos
  content : cms'.content = cms.content
  eContentType : cms'.eContentType = cms.eContentType

theorem Reordered.eligible_iff (h : Reordered cms cms') {signer : Certificate} {atMillis : Int} :
    Eligible ssl jiff anchors cms' clock signer atMillis ↔
      Eligible ssl jiff anchors cms clock signer atMillis := by
  have sameType : ∀ info, cms'.contentTypeAttributeMatches ssl info =
      cms.contentTypeAttributeMatches ssl info := by
    intro info
    unfold SignedData.contentTypeAttributeMatches
    rw [h.eContentType]
  have sameSignature : ∀ info, cms'.verifySigner ssl info signer =
      cms.verifySigner ssl info signer := by
    intro info
    unfold SignedData.verifySigner
    rw [h.content]
  have listed : signer ∈ (authenticatedTopDown ssl cms'.certificates anchors).value ↔
      signer ∈ (authenticatedTopDown ssl cms.certificates anchors).value :=
    (authenticated_perm h.bag).mem_iff
  constructor
  · rintro ⟨readable, embedded, list, key, marker, instant, info, mem, signed⟩
    refine ⟨fun c mem => readable c (h.bag.mem_iff.mpr mem), h.bag.mem_iff.mp embedded,
      listed.mp list, key, marker, by rwa [h.content] at instant, info, by rwa [← h.signerInfos],
      ?_⟩
    rwa [sameType, sameSignature] at signed
  · rintro ⟨readable, embedded, list, key, marker, instant, info, mem, signed⟩
    refine ⟨fun c mem => readable c (h.bag.mem_iff.mp mem), h.bag.mem_iff.mpr embedded,
      listed.mpr list, key, marker, by rwa [h.content], info, by rwa [h.signerInfos], ?_⟩
    rwa [sameType, sameSignature]

/-- However the lookup's ties fall, some eligible signer is accepted, or however they fall, none
is. -/
def TiesAgree (ssl : OpenSsl) (jiff : Jiff) (lookup : Lookup) (anchors : List TrustAnchor)
    (cms : SignedData) (clock : Clock) : Prop :=
  (∃ signer atMillis, Eligible ssl jiff anchors cms clock signer atMillis ∧
    ∀ chains, Selection ssl lookup anchors cms.certificates signer atMillis chains →
      acceptedOn ssl lookup anchors cms.certificates signer atMillis chains = true) ∨
  ∀ signer atMillis, Eligible ssl jiff anchors cms clock signer atMillis →
    ∀ chains, Selection ssl lookup anchors cms.certificates signer atMillis chains →
      acceptedOn ssl lookup anchors cms.certificates signer atMillis chains = false

/-- Acceptance in an order of the bag, as a verdict on the paths of that order. -/
theorem verifyEnvelope_ok_iff_acceptedOn {der' : Bytes} {attributes : SignedAttributes}
    (looks : ssl.LooksUp lookup) (parsed : SignedData.parse ssl der' envelopeLimits = .ok cms')
    (h : Reordered cms cms') :
    (verifyEnvelope ssl jiff der' anchors clock).value.1 = .ok attributes ↔
      attributes = parsePayloadAttributes ssl cms.content ∧ ∃ signer atMillis,
        Eligible ssl jiff anchors cms clock signer atMillis ∧
        acceptedOn ssl lookup anchors cms.certificates signer atMillis
          (chainsIn ssl lookup anchors cms'.certificates signer atMillis) = true := by
  rw [verifyEnvelope_ok_iff_eligible parsed, h.content]
  simp only [h.eligible_iff, pathAccepted_iff_acceptedOn looks h.bag]

/-- When the ties agree, acceptance is what they agree on. -/
theorem TiesAgree.verifyEnvelope_ok_iff {der' : Bytes} {attributes : SignedAttributes}
    (agree : TiesAgree ssl jiff lookup anchors cms clock) (looks : ssl.LooksUp lookup)
    (parsed : SignedData.parse ssl der' envelopeLimits = .ok cms') (h : Reordered cms cms') :
    (verifyEnvelope ssl jiff der' anchors clock).value.1 = .ok attributes ↔
      attributes = parsePayloadAttributes ssl cms.content ∧ ∃ signer atMillis,
        Eligible ssl jiff anchors cms clock signer atMillis ∧
        ∀ chains, Selection ssl lookup anchors cms.certificates signer atMillis chains →
          acceptedOn ssl lookup anchors cms.certificates signer atMillis chains = true := by
  rw [verifyEnvelope_ok_iff_acceptedOn looks parsed h]
  refine and_congr_right fun _ => ⟨?_, ?_⟩
  · rintro ⟨signer, atMillis, eligible, accepted⟩
    rcases agree with always | never
    · exact always
    · rw [never signer atMillis eligible _ (selection_chainsIn h.bag)] at accepted
      cases accepted
  · rintro ⟨signer, atMillis, eligible, always⟩
    exact ⟨signer, atMillis, eligible, always _ (selection_chainsIn h.bag)⟩

/-- With one store, a path the ties allow gives the verdict of some order. -/
theorem exists_order_acceptedOn {signer : Certificate} {atMillis : Int}
    {store : List Certificate} (one : storesFor ssl anchors cms.certificates signer = [store])
    {chains : List (List Certificate)}
    (selection : Selection ssl lookup anchors cms.certificates signer atMillis chains) :
    ∃ bag' : List Certificate, bag'.Perm cms.certificates ∧
      chainsIn ssl lookup anchors bag' signer atMillis = chains := by
  rw [Selection, one] at selection
  cases selection with
  | cons may none =>
    cases none
    obtain ⟨bag', reordered, path⟩ := may.exists_order
    refine ⟨bag', reordered, ?_⟩
    rw [chainsIn, storesFor_congr reordered, one, List.map_singleton, path]

end

/-- **When the order of the bag decides.** With OpenSSL's lookup as documented, reordering the bag
changes nothing when the ties of the lookup agree. For one eligible signer and one store tried, that
is also necessary: if no order of the bag changes acceptance, the ties agree. -/
theorem bag_order_free (ssl : OpenSsl) (jiff : Jiff) (lookup : Lookup)
    (looks : ssl.LooksUp lookup) (anchors : List TrustAnchor) (clock : Clock) (der : Bytes)
    (cms : SignedData) (parsed : SignedData.parse ssl der envelopeLimits = .ok cms) :
    (TiesAgree ssl jiff lookup anchors cms clock →
      ∀ der' cms', SignedData.parse ssl der' envelopeLimits = .ok cms' → Reordered cms cms' →
        ∀ attributes, (verifyEnvelope ssl jiff der' anchors clock).value.1 = .ok attributes ↔
          (verifyEnvelope ssl jiff der anchors clock).value.1 = .ok attributes) ∧
    ((∀ bag', bag'.Perm cms.certificates → ∃ der',
        SignedData.parse ssl der' envelopeLimits = .ok { cms with certificates := bag' }) →
      (∀ signer atMillis, Eligible ssl jiff anchors cms clock signer atMillis →
        (∃ store, storesFor ssl anchors cms.certificates signer = [store]) ∧
        ∀ signer' atMillis', Eligible ssl jiff anchors cms clock signer' atMillis' →
          signer' = signer) →
      (∀ der' cms', SignedData.parse ssl der' envelopeLimits = .ok cms' → Reordered cms cms' →
        ∀ attributes, (verifyEnvelope ssl jiff der' anchors clock).value.1 = .ok attributes ↔
          (verifyEnvelope ssl jiff der anchors clock).value.1 = .ok attributes) →
      TiesAgree ssl jiff lookup anchors cms clock) := by
  constructor
  · intro agree der' cms' parsed' h attributes
    rw [agree.verifyEnvelope_ok_iff looks parsed' h,
      agree.verifyEnvelope_ok_iff looks parsed ⟨.refl _, rfl, rfl, rfl⟩]
  · intro encodes one free
    by_contra disagree
    obtain ⟨notAlways, notNever⟩ := not_or.mp disagree
    push Not at notAlways notNever
    obtain ⟨signer, atMillis, eligible, chains, selection, accepted⟩ := notNever
    obtain ⟨chains', selection', refused⟩ := notAlways signer atMillis eligible
    obtain ⟨⟨store, single⟩, unique⟩ := one signer atMillis eligible
    obtain ⟨bag₁, order₁, paths₁⟩ := exists_order_acceptedOn single selection
    obtain ⟨bag₂, order₂, paths₂⟩ := exists_order_acceptedOn single selection'
    obtain ⟨der₁, parsed₁⟩ := encodes bag₁ order₁
    obtain ⟨der₂, parsed₂⟩ := encodes bag₂ order₂
    have reordered₁ : Reordered cms { cms with certificates := bag₁ } := ⟨order₁, rfl, rfl, rfl⟩
    have reordered₂ : Reordered cms { cms with certificates := bag₂ } := ⟨order₂, rfl, rfl, rfl⟩
    have first := (verifyEnvelope_ok_iff_acceptedOn looks parsed₁ reordered₁).mpr
      ⟨rfl, signer, atMillis, eligible, by rw [paths₁]; simpa using accepted⟩
    have second := (free der₂ _ parsed₂ reordered₂ _).mpr
      ((free der₁ _ parsed₁ reordered₁ _).mp first)
    obtain ⟨-, signer', atMillis', eligible', accepted'⟩ :=
      (verifyEnvelope_ok_iff_acceptedOn looks parsed₂ reordered₂).mp second
    obtain rfl := unique signer' atMillis' eligible'
    obtain rfl : atMillis' = atMillis :=
      Option.some.inj (eligible'.instant.symm.trans eligible.instant)
    rw [paths₂] at accepted'
    exact refused accepted'

/-! ## A reissued intermediate -/

namespace Sample

/-- Another certificate for the intermediate's name and key, without the marker; it ends at second
10. -/
def reissue : Certificate := ⟨[7]⟩

/-- The lookup over these certificates: a path passes that ends in the store and is valid. -/
def reissueLookup : Lookup where
  pairs issuer c :=
    [(root, root), (root, wwdr), (root, reissue), (wwdr, leaf), (reissue, leaf)].contains
      (issuer, c)
  validAt c second := c != reissue || second ≤ 10
  notAfter c := if c = reissue then 10 else 100
  selfSigned c := c == root
  judge store chain second :=
    match chain.getLast? with
    | none => (false, [])
    | some top =>
      if !store.contains top then (false, [⟨20, chain.length - 1, some top⟩])
      else if chain.all fun c => c != reissue || second ≤ 10 then (true, [])
      else (false, [⟨10, 0, some reissue⟩])

/-- The envelope `30 00` embeds the intermediate before its reissue, `31 00` after it. -/
def reissuedInfo (der : Bytes) : Option ContentInfo :=
  let signed (bag : List Certificate) : ContentInfo :=
    { certificates := bag, signerInfos := [⟨[0]⟩], content := some [0x31, 0x00],
      eContentType := none }
  if der = [0x30, 0x00] then some (signed [leaf, wwdr, reissue])
  else if der = [0x31, 0x00] then some (signed [leaf, reissue, wwdr])
  else none

/-- OpenSSL over these certificates and envelopes. -/
def reissued : OpenSsl :=
  { openSsl with
    publicKey := fun c => some (if c = reissue then ⟨wwdr.der⟩ else ⟨c.der⟩)
    checkIssued := reissueLookup.pairs
    subjectIsIssuerOf := reissueLookup.pairs
    verify := fun c key => key == if c = leaf then ⟨wwdr.der⟩ else ⟨root.der⟩
    notAfterAtLeast := fun c second => second ≤ reissueLookup.notAfter c
    verifyCert := fun target untrusted store second =>
      some (reissueLookup.verifyCert second target untrusted store)
    shallow := fun der =>
      match reissuedInfo der with
      | none => .error .malformed
      | some info => .ok ⟨info.certificates.length, info.signerInfos.length⟩
    contentInfo := fun der => (reissuedInfo der).map fun info => (info, true)
    certCmp := fun _ c => c == leaf }

def reissuedSigned (bag : List Certificate) : SignedData := { signed with certificates := bag }

/-- A clock at which the reissue has ended. -/
def laterClock : Clock := Clock.new fun _ => some 20000

theorem reissued_looksUp : reissued.LooksUp reissueLookup := fun _ _ _ _ => rfl

/-- The two orders of the bag. -/
theorem parse_both :
    SignedData.parse reissued [0x30, 0x00] envelopeLimits =
        .ok (reissuedSigned [leaf, wwdr, reissue]) ∧
      SignedData.parse reissued [0x31, 0x00] envelopeLimits =
        .ok (reissuedSigned [leaf, reissue, wwdr]) := by
  decide +kernel

theorem parse_reissued :
    SignedData.parse reissued [0x30, 0x00] envelopeLimits =
      .ok (reissuedSigned [leaf, wwdr, reissue]) :=
  parse_both.1

theorem parse_reissued_after :
    SignedData.parse reissued [0x31, 0x00] envelopeLimits =
      .ok (reissuedSigned [leaf, reissue, wwdr]) :=
  parse_both.2

theorem reordered_reissued :
    Reordered (reissuedSigned [leaf, wwdr, reissue]) (reissuedSigned [leaf, reissue, wwdr]) :=
  ⟨by decide, rfl, rfl, rfl⟩

/-- What the lookup finds once the reissue has ended, and what the leaf passes. -/
theorem found_later :
    (reissueLookup.paired leaf (above reissued anchors [leaf, wwdr, reissue] leaf) =
        [wwdr, reissue] ∧
      reissueLookup.findIssuer 20 leaf [root] = none ∧
      reissueLookup.findIssuer 20 wwdr [root] = some root) ∧
    (∀ c ∈ (reissuedSigned [leaf, wwdr, reissue]).certificates, c.isReadable reissued = true) ∧
    leaf ∈ (authenticatedTopDown reissued (reissuedSigned [leaf, wwdr, reissue]).certificates
      anchors).value ∧
    instantOf reissued .gregorian
      (parsePayloadAttributes reissued (reissuedSigned [leaf, wwdr, reissue]).content) laterClock =
        some 20000 := by
  decide +kernel

/-- Once the reissue has ended, the lookup takes the intermediate, which leads to the root. -/
theorem mayBuild_later {chain : List Certificate}
    (may : MayBuild reissued reissueLookup anchors [leaf, wwdr, reissue] leaf 20 [root] chain) :
    chain = [leaf, wwdr, root] := by
  obtain ⟨⟨offered, leafUnanchored, wwdrAnchored⟩, -⟩ := found_later
  cases may with
  | stored stored => exact absurd stored (by decide)
  | anchored _ found => cases leafUnanchored.symm.trans found
  | selfSigned _ _ self => exact absurd self (by decide)
  | top _ alone => cases offered.symm.trans alone
  | @above _ _ _ issuer _ takes rest =>
    have paired := takes.paired
    have highest := takes.highest wwdr
    rw [offered] at paired highest
    obtain rfl : issuer = wwdr := by
      rcases List.mem_cons.mp paired with same | last
      · exact same
      · rw [List.mem_singleton.mp last] at highest
        exact absurd (highest (by decide)) (by decide)
    cases rest with
    | stored stored => exact absurd stored (by decide)
    | anchored _ found =>
      cases wwdrAnchored.symm.trans found
      rfl
    | selfSigned _ unanchored _ => cases wwdrAnchored.symm.trans unanchored
    | top on _ => cases wwdrAnchored.symm.trans on.unanchored
    | above on _ _ => cases wwdrAnchored.symm.trans on.unanchored

theorem eligible_leaf :
    Eligible reissued .gregorian anchors (reissuedSigned [leaf, wwdr, reissue]) laterClock leaf
      20000 where
  readable := found_later.2.1
  embedded := by decide
  listed := found_later.2.2.1
  usableKey := by decide
  leafMarker := by decide
  instant := found_later.2.2.2
  signed := ⟨⟨[0]⟩, by decide, by decide, by decide, by decide⟩

theorem tiesAgree_later :
    TiesAgree reissued .gregorian reissueLookup anchors (reissuedSigned [leaf, wwdr, reissue])
      laterClock := by
  refine .inl ⟨leaf, 20000, eligible_leaf, fun chains selection => ?_⟩
  have one : storesFor reissued anchors [leaf, wwdr, reissue] leaf = [[root]] := by decide +kernel
  rw [Selection, reissuedSigned, one] at selection
  cases selection with
  | cons may none =>
    cases none
    rw [mayBuild_later may]
    decide +kernel

end Sample

/-- With the reissue out of date, the receipt is accepted in both orders of its bag. -/
theorem bag_order_free_later :
    (verifyEnvelope Sample.reissued .gregorian [0x30, 0x00] Sample.anchors
      Sample.laterClock).value.1 = .ok (.ok []) ∧
    (verifyEnvelope Sample.reissued .gregorian [0x31, 0x00] Sample.anchors
      Sample.laterClock).value.1 = .ok (.ok []) := by
  have free := (bag_order_free Sample.reissued .gregorian Sample.reissueLookup
    Sample.reissued_looksUp Sample.anchors Sample.laterClock _ _ Sample.parse_reissued).1
    Sample.tiesAgree_later _ _ Sample.parse_reissued_after Sample.reordered_reissued
  have accepted : (verifyEnvelope Sample.reissued .gregorian [0x30, 0x00] Sample.anchors
      Sample.laterClock).value.1 = .ok (.ok []) := by decide +kernel
  exact ⟨accepted, (free _).mpr accepted⟩

/-- With both valid, the receipt is accepted when the intermediate comes before its reissue, and
refused when it comes after it. -/
theorem bag_order_decides :
    Sample.reissued.LooksUp Sample.reissueLookup ∧
    SignedData.parse Sample.reissued [0x30, 0x00] envelopeLimits =
      .ok (Sample.reissuedSigned [Sample.leaf, Sample.wwdr, Sample.reissue]) ∧
    SignedData.parse Sample.reissued [0x31, 0x00] envelopeLimits =
      .ok (Sample.reissuedSigned [Sample.leaf, Sample.reissue, Sample.wwdr]) ∧
    (verifyEnvelope Sample.reissued .gregorian [0x30, 0x00] Sample.anchors
      Sample.clock).value.1 = .ok (.ok []) ∧
    (verifyEnvelope Sample.reissued .gregorian [0x31, 0x00] Sample.anchors
      Sample.clock).value.1 = .error ⟨.invalidCertificatePurpose,
        "receipt intermediate certificate lacks Apple WWDR marker OID " ++ wwdrIntermediateOid⟩ :=
  ⟨Sample.reissued_looksUp, Sample.parse_reissued, Sample.parse_reissued_after,
    by decide +kernel, by decide +kernel⟩

end ReceiptVerifier
