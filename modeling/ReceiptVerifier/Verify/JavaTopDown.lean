import Mathlib.Data.List.Chain
import ReceiptVerifier.Java.TopDown
import ReceiptVerifier.Lib.Rounds

/-!
# What the Java top-down walk finds

The loop offers each round only the CAs the round before accepted, and leaves out those that vouched
before. Under the invariant `Offered` that is enough: it takes what `Rounds.closure` takes over the
links of everything that may vouch.
-/

namespace ReceiptVerifier

namespace Java

namespace ReceiptCore

open Openssl

variable {issuance : Issuance} {roots issuers vouchers accepted pending : List Certificate}

/-! ## Links -/

/-- `signedByAny` for one issuer. -/
def signs (issuance : Issuance) (issuer c : Certificate) : Bool :=
  issuance.issuerX500Principal c == issuance.subjectX500Principal issuer &&
    (issuance.publicKey issuer).any fun key => issuance.signedBy c key

theorem signedByAny_eq_any (c : Certificate) (issuers : List Certificate) :
    AppleTrust.signedByAny issuance c issuers = issuers.any fun i => signs issuance i c := by
  induction issuers with
  | nil => rfl
  | cons issuer issuers ih =>
    rw [AppleTrust.signedByAny, List.any_cons, ← ih, signs]
    split
    next other => simp [other]
    next named =>
      have named := not_not.mp named
      cases issuance.publicKey issuer with
      | none => simp
      | some key => cases issuance.signedBy c key <;> simp [named]

/-- A root or a CA. -/
def mayVouch (issuance : Issuance) (roots : List Certificate) (i : Certificate) : Bool :=
  roots.contains i || issuance.basicConstraints i != -1

/-- The link of the walk: only roots and CAs vouch. -/
def vouches (issuance : Issuance) (roots : List Certificate) (i c : Certificate) : Bool :=
  mayVouch issuance roots i && signs issuance i c

theorem vouches_iff {i c : Certificate} :
    vouches issuance roots i c = true ↔
      (i ∈ roots ∨ issuance.basicConstraints i ≠ -1) ∧ signs issuance i c = true := by
  simp [vouches, mayVouch]

theorem any_vouches (all : ∀ i ∈ issuers, mayVouch issuance roots i = true) (c : Certificate) :
    (issuers.any fun i => vouches issuance roots i c) =
      issuers.any fun i => signs issuance i c := by
  induction issuers with
  | nil => rfl
  | cons i issuers ih =>
    obtain ⟨own, later⟩ := List.forall_mem_cons.mp all
    rw [List.any_cons, List.any_cons, ih later, vouches, own, Bool.true_and]

/-! ## One round -/

theorem acceptedOf_eq_next (all : ∀ i ∈ issuers, mayVouch issuance roots i = true) :
    acceptedOf issuance issuers pending =
      Rounds.next (vouches issuance roots) issuers pending := by
  refine List.filter_congr fun c _ => ?_
  rw [signedByAny_eq_any, any_vouches all]

theorem removeAll_eq_rest (all : ∀ i ∈ issuers, mayVouch issuance roots i = true) :
    removeAll pending (acceptedOf issuance issuers pending) =
      Rounds.rest (vouches issuance roots) issuers pending := by
  refine List.filter_congr fun c mem => congrArg _ ?_
  rw [any_vouches all, ← signedByAny_eq_any, Bool.eq_iff_iff, List.contains_iff_mem, acceptedOf,
    List.mem_filter, and_iff_right mem]

/-- The new issuers are the new vouchers: CAs a round accepted, each new and once. -/
theorem nextIssuers_spec (taken issuers vouchers : List Certificate) :
    ∃ new : List Certificate, nextIssuers issuance taken issuers vouchers =
        (issuers ++ new, vouchers ++ new) ∧
      (∀ c ∈ new, c ∈ taken ∧ issuance.basicConstraints c ≠ -1 ∧ c ∉ vouchers) ∧
      ∀ c ∈ taken, issuance.basicConstraints c ≠ -1 → c ∈ vouchers ++ new := by
  induction taken generalizing issuers vouchers with
  | nil => exact ⟨[], by simp [nextIssuers], by simp, by simp⟩
  | cons c taken ih =>
    rw [nextIssuers]
    split
    next first =>
      simp only [Bool.and_eq_true, bne_iff_ne, ne_eq, Bool.not_eq_true', List.contains_eq_mem,
        decide_eq_false_iff_not] at first
      obtain ⟨new, made, each, all⟩ := ih (issuers ++ [c]) (vouchers ++ [c])
      refine ⟨c :: new, by rw [made]; simp, List.forall_mem_cons.mpr
        ⟨⟨List.mem_cons_self, first⟩, fun d mem => ?_⟩, List.forall_mem_cons.mpr
        ⟨fun _ => by simp, fun d mem ca => by simpa using all d mem ca⟩⟩
      obtain ⟨inside, ca, fresh⟩ := each d mem
      exact ⟨List.mem_cons_of_mem _ inside, ca, fun old => fresh (List.mem_append_left _ old)⟩
    next passed =>
      obtain ⟨new, made, each, all⟩ := ih issuers vouchers
      refine ⟨new, made, fun d mem => ?_, List.forall_mem_cons.mpr ⟨fun ca => ?_, all⟩⟩
      · obtain ⟨inside, ca, fresh⟩ := each d mem
        exact ⟨List.mem_cons_of_mem _ inside, ca, fresh⟩
      · by_contra absent
        refine passed ?_
        simp only [Bool.and_eq_true, bne_iff_ne, ne_eq, Bool.not_eq_true', List.contains_eq_mem,
          decide_eq_false_iff_not]
        exact ⟨ca, fun old => absent (List.mem_append_left _ old)⟩

/-! ## The invariant -/

/-- Between rounds: every voucher is a root or a CA, every root is a voucher, and a voucher that is
not offered next signed nothing that is still pending. -/
structure Offered (issuance : Issuance) (roots issuers vouchers pending : List Certificate) :
    Prop where
  mayVouch : ∀ i ∈ issuers, mayVouch issuance roots i = true
  known : ∀ i ∈ issuers, i ∈ vouchers
  roots : ∀ r ∈ roots, r ∈ vouchers
  tried : ∀ v ∈ vouchers, v ∉ issuers → ∀ c ∈ pending, signs issuance v c = false

theorem Offered.start (roots pending : List Certificate) :
    Offered issuance roots roots roots pending where
  mayVouch _ mem := by simp [ReceiptCore.mayVouch, mem]
  known _ mem := mem
  roots _ mem := mem
  tried _ mem new := absurd mem new

/-- What is left pending was signed by none of the vouchers. -/
theorem Offered.unsigned (offered : Offered issuance roots issuers vouchers pending) :
    ∀ v ∈ vouchers, ∀ c ∈ Rounds.rest (vouches issuance roots) issuers pending,
      signs issuance v c = false := by
  intro v known c left
  obtain ⟨mem, unlinked⟩ := List.mem_filter.mp left
  rw [any_vouches offered.mayVouch, Bool.not_eq_true'] at unlinked
  by_cases now : v ∈ issuers
  · exact Bool.eq_false_iff.mpr (List.any_eq_false.mp unlinked v now)
  · exact offered.tried v known now c mem

theorem Offered.next (offered : Offered issuance roots issuers vouchers pending)
    {new : List Certificate} (fresh : ∀ c ∈ new, issuance.basicConstraints c ≠ -1) :
    Offered issuance roots new (vouchers ++ new)
      (Rounds.rest (vouches issuance roots) issuers pending) where
  mayVouch i mem := by simp [ReceiptCore.mayVouch, fresh i mem]
  known i mem := List.mem_append_right _ mem
  roots r mem := List.mem_append_left _ (offered.roots r mem)
  tried v known old :=
    offered.unsigned v ((List.mem_append.mp known).resolve_right old)

/-- Everything the loop can do: end with nothing pending, end with nobody accepted, or offer the new
vouchers to what is left. -/
theorem topDownLoop_cases (issuance : Issuance)
    (issuers vouchers accepted pending : List Certificate) :
    (pending = [] ∧ topDownLoop issuance issuers vouchers accepted pending = ⟨accepted, []⟩) ∨
    (acceptedOf issuance issuers pending = [] ∧
      topDownLoop issuance issuers vouchers accepted pending =
        ⟨accepted, [⟨issuers, pending⟩]⟩) ∨
    ∃ taken left new, taken = acceptedOf issuance issuers pending ∧ left = removeAll pending taken ∧
      taken ≠ [] ∧ left.length < pending.length ∧
      (∀ c ∈ new, c ∈ taken ∧ issuance.basicConstraints c ≠ -1 ∧ c ∉ vouchers) ∧
      (∀ c ∈ taken, issuance.basicConstraints c ≠ -1 → c ∈ vouchers ++ new) ∧
      topDownLoop issuance issuers vouchers accepted pending =
        ⟨(topDownLoop issuance new (vouchers ++ new) (accepted ++ taken) left).value,
          ⟨issuers, pending⟩ ::
            (topDownLoop issuance new (vouchers ++ new) (accepted ++ taken) left).events⟩ := by
  by_cases nothing : pending = []
  · refine .inl ⟨nothing, ?_⟩
    rw [topDownLoop, nothing]
    rfl
  · have running : ¬ pending.isEmpty = true := by rwa [List.isEmpty_iff]
    right
    by_cases none : acceptedOf issuance issuers pending = []
    · refine .inl ⟨none, ?_⟩
      rw [topDownLoop, if_neg running, dif_pos none]
      rfl
    · obtain ⟨new, made, fresh, all⟩ :=
        @nextIssuers_spec issuance (acceptedOf issuance issuers pending) [] vouchers
      refine .inr ⟨_, _, new, rfl, rfl, none, length_removeAll_lt none, fresh, all, ?_⟩
      rw [List.nil_append] at made
      rw [topDownLoop, if_neg running, dif_neg none, made]
      rfl

/-- **Semi-naive is enough**: the loop takes what the rounds over every voucher take. -/
theorem value_topDownLoop (offered : Offered issuance roots issuers vouchers pending) :
    (topDownLoop issuance issuers vouchers accepted pending).value =
      accepted ++ Rounds.closure (vouches issuance roots) issuers pending := by
  induction size : pending.length using Nat.strong_induction_on
    generalizing issuers vouchers accepted pending with
  | _ n ih =>
    have now : acceptedOf issuance issuers pending = _ := acceptedOf_eq_next offered.mayVouch
    have rest : removeAll pending (acceptedOf issuance issuers pending) = _ :=
      removeAll_eq_rest offered.mayVouch
    obtain ⟨rfl, done⟩ | ⟨none, done⟩ | ⟨taken, left, new, rfl, rfl, more, shorter, fresh, all,
      done⟩ := topDownLoop_cases issuance issuers vouchers accepted pending
    · rw [done, Rounds.closure, dif_pos (show Rounds.next _ _ [] = [] from rfl), List.append_nil]
    · rw [done, Rounds.closure, dif_pos (now.symm.trans none), List.append_nil]
    · rw [rest] at done shorter
      have following := offered.next fun c mem => (fresh c mem).2.1
      rw [done]
      simp only
      rw [ih _ (size ▸ shorter) following rfl, List.append_assoc, now]
      conv => rhs; rw [Rounds.closure, dif_neg (now ▸ more)]
      congr 2
      -- what a round accepted and does not offer next links to nothing that is left
      refine Rounds.closure_congr_frontier fun c mem => ?_
      rw [Bool.eq_iff_iff, List.any_eq_true, List.any_eq_true]
      constructor
      · rintro ⟨i, mem', link⟩
        exact ⟨i, now ▸ (fresh i mem').1, link⟩
      · rintro ⟨i, mem', link⟩
        obtain ⟨voucher, signed⟩ := vouches_iff.mp link
        have unsigned : i ∉ vouchers := fun known => by
          rw [offered.unsigned i known c mem] at signed
          cases signed
        refine ⟨i, ?_, link⟩
        rcases voucher with root | ca
        · exact absurd (offered.roots i root) unsigned
        · exact (List.mem_append.mp (all i (now ▸ mem') ca)).resolve_left unsigned

/-! ## Who is offered when -/

/-- What the loop accepts, round by round. -/
theorem value_topDownLoop_eq_flatMap (issuers vouchers accepted pending : List Certificate) :
    (topDownLoop issuance issuers vouchers accepted pending).value = accepted ++
      (topDownLoop issuance issuers vouchers accepted pending).events.flatMap fun round =>
        acceptedOf issuance round.issuers round.pending := by
  induction size : pending.length using Nat.strong_induction_on
    generalizing issuers vouchers accepted pending with
  | _ n ih =>
    obtain ⟨rfl, done⟩ | ⟨none, done⟩ | ⟨taken, left, new, rfl, rfl, -, shorter, -, -, done⟩ :=
      topDownLoop_cases issuance issuers vouchers accepted pending
    · rw [done]
      simp
    · rw [done]
      simp [none]
    · rw [done]
      simp only
      rw [ih _ (size ▸ shorter) _ _ _ _ rfl, List.flatMap_cons, List.append_assoc]

/-- Who a run of the loop offers as an issuer, and when. -/
structure OfferedOnce (issuance : Issuance) (issuers vouchers pending : List Certificate)
    (rounds : List Round) : Prop where
  only : ∀ round ∈ rounds, ∀ i ∈ round.issuers, i ∈ issuers ∨
    i ∉ vouchers ∧ issuance.basicConstraints i ≠ -1 ∧
      ∃ round ∈ rounds, i ∈ acceptedOf issuance round.issuers round.pending
  once : rounds.Pairwise fun round later => ∀ i ∈ round.issuers, i ∉ later.issuers
  offered : ∀ v, (v ∈ issuers ∨ v ∉ vouchers ∧ issuance.basicConstraints v ≠ -1 ∧
      ∃ round ∈ rounds, v ∈ acceptedOf issuance round.issuers round.pending) →
    (∃ round ∈ rounds, v ∈ round.issuers) ∨ (pending = [] ∧ v ∈ issuers) ∨
      ∃ last, rounds.getLast? = some last ∧ v ∈ last.pending ∧
        ∀ c ∈ last.pending, AppleTrust.signedByAny issuance c last.issuers = true

/-- One more round in front: the issuers it adds are new, and all it accepted are offered next,
known already, or no CA. -/
theorem OfferedOnce.cons {taken left new : List Certificate} {rounds : List Round}
    (onward : OfferedOnce issuance new (vouchers ++ new) left rounds)
    (known : ∀ i ∈ issuers, i ∈ vouchers) (now : taken = acceptedOf issuance issuers pending)
    (rest : left = removeAll pending taken) (ended : left = [] → rounds = [])
    (fresh : ∀ c ∈ new, c ∈ taken ∧ issuance.basicConstraints c ≠ -1 ∧ c ∉ vouchers)
    (all : ∀ c ∈ taken, issuance.basicConstraints c ≠ -1 → c ∈ vouchers ++ new) :
    OfferedOnce issuance issuers vouchers pending (⟨issuers, pending⟩ :: rounds) := by
  have later : ∀ round ∈ rounds, ∀ i ∈ round.issuers, i ∉ vouchers := by
    intro round mem i offered
    rcases onward.only round mem i offered with new | ⟨unknown, -, -⟩
    · exact (fresh i new).2.2
    · exact fun known => unknown (List.mem_append_left _ known)
  refine ⟨?_, List.pairwise_cons.mpr ⟨fun round mem i own offered =>
    later round mem i offered (known i own), onward.once⟩, fun v voucher => ?_⟩
  · refine List.forall_mem_cons.mpr ⟨fun i own => .inl own, fun round mem i offered => ?_⟩
    refine .inr ⟨later round mem i offered, ?_⟩
    rcases onward.only round mem i offered with new | ⟨-, ca, earlier, mem', taken⟩
    · exact ⟨(fresh i new).2.1, _, List.mem_cons_self, now ▸ (fresh i new).1⟩
    · exact ⟨ca, earlier, List.mem_cons_of_mem _ mem', taken⟩
  · -- offered now, accepted by this round, or by a later one
    have next : v ∈ issuers ∨ v ∈ new ∨ v ∉ vouchers ++ new ∧
        issuance.basicConstraints v ≠ -1 ∧
        ∃ round ∈ rounds, v ∈ acceptedOf issuance round.issuers round.pending := by
      rcases voucher with own | ⟨unknown, ca, round, mem, taken⟩
      · exact .inl own
      · by_cases fresh : v ∈ new
        · exact .inr (.inl fresh)
        · rcases List.mem_cons.mp mem with rfl | mem
          · exact absurd (all v (now ▸ taken) ca) (by simp [unknown, fresh])
          · exact .inr (.inr ⟨by simp [unknown, fresh], ca, round, mem, taken⟩)
    rcases next with own | next
    · exact .inl ⟨_, List.mem_cons_self, own⟩
    · rcases onward.offered v next with ⟨round, mem, offered⟩ | ⟨nothing, new⟩ |
        ⟨last, isLast, left⟩
      · exact .inl ⟨round, List.mem_cons_of_mem _ mem, offered⟩
      · -- this round accepted everything that was pending
        have inside : ∀ c ∈ pending, c ∈ taken := by
          intro c mem
          by_contra unsigned
          have still : c ∈ left := rest ▸ List.mem_filter.mpr ⟨mem, by simp [unsigned]⟩
          rw [nothing] at still
          cases still
        refine .inr (.inr ⟨⟨issuers, pending⟩, by rw [ended nothing]; rfl, ?_, fun c mem => ?_⟩)
        · have taken := now ▸ (fresh v new).1
          exact (List.mem_filter.mp taken).1
        · have taken := now ▸ inside c mem
          exact (List.mem_filter.mp taken).2
      · refine .inr (.inr ⟨last, ?_, left⟩)
        rw [List.getLast?_cons, isLast]
        rfl

theorem topDownLoop_offeredOnce (known : ∀ i ∈ issuers, i ∈ vouchers) :
    OfferedOnce issuance issuers vouchers pending
      (topDownLoop issuance issuers vouchers accepted pending).events := by
  induction size : pending.length using Nat.strong_induction_on
    generalizing issuers vouchers accepted pending with
  | _ n ih =>
    obtain ⟨nothing, done⟩ | ⟨none, done⟩ | ⟨taken, left, new, now, rest, -, shorter, fresh, all,
      done⟩ := topDownLoop_cases issuance issuers vouchers accepted pending
    · rw [done]
      exact ⟨by simp, .nil, fun v voucher => by simpa [nothing] using voucher⟩
    · rw [done]
      refine ⟨fun round mem i offered => ?_, List.pairwise_singleton _ _, fun v voucher => ?_⟩
      · rw [List.mem_singleton.mp mem] at offered
        exact .inl offered
      · refine .inl ⟨_, List.mem_singleton_self _, ?_⟩
        simpa [none] using voucher
    · have onward := @ih _ (size ▸ shorter) new (vouchers ++ new) (accepted ++ taken) left
        (fun i mem => List.mem_append_right vouchers mem) rfl
      rw [done]
      refine onward.cons known now rest (fun nothing => ?_) fresh all
      rw [nothing, topDownLoop]
      rfl

/-! ## Chains -/

/-- A chain of signatures leads from a root down to the certificate, through embedded CAs. -/
def LinkedBelow (issuance : Issuance) (embedded roots : List Certificate) (c : Certificate) :
    Prop :=
  ∃ r ∈ roots, ∃ inner : List Certificate,
    (∀ i ∈ inner, i ∈ embedded ∧ issuance.basicConstraints i ≠ -1) ∧
    List.IsChain (fun issuer c => AppleTrust.signedByAny issuance c [issuer] = true)
      (r :: inner ++ [c])

variable {embedded : List Certificate}

theorem signedByAny_singleton (issuer c : Certificate) :
    AppleTrust.signedByAny issuance c [issuer] = signs issuance issuer c := by
  rw [signedByAny_eq_any, List.any_cons, List.any_nil, Bool.or_false]

theorem reached_of_chain {inner : List Certificate} {issuer c : Certificate} (mem : c ∈ embedded)
    (above : issuer ∈ roots ∨ Rounds.Reached (vouches issuance roots) roots embedded issuer ∧
      issuance.basicConstraints issuer ≠ -1)
    (inside : ∀ i ∈ inner, i ∈ embedded ∧ issuance.basicConstraints i ≠ -1)
    (chain : List.IsChain (fun issuer c => AppleTrust.signedByAny issuance c [issuer] = true)
      (issuer :: inner ++ [c])) :
    Rounds.Reached (vouches issuance roots) roots embedded c := by
  have step : ∀ d ∈ embedded, AppleTrust.signedByAny issuance d [issuer] = true →
      Rounds.Reached (vouches issuance roots) roots embedded d := by
    intro d mem signed
    rw [signedByAny_singleton] at signed
    rcases above with root | ⟨reached, ca⟩
    · exact .first root mem (vouches_iff.mpr ⟨.inl root, signed⟩)
    · exact .onward reached mem (vouches_iff.mpr ⟨.inr ca, signed⟩)
  induction inner generalizing issuer with
  | nil => exact step c mem (List.isChain_cons_cons.mp chain).1
  | cons next inner ih =>
    obtain ⟨link, chain⟩ := List.isChain_cons_cons.mp chain
    obtain ⟨⟨nextMem, ca⟩, later⟩ := List.forall_mem_cons.mp inside
    have reached := step next nextMem link
    refine ih (.inr ⟨reached, ca⟩) later chain fun d mem signed => ?_
    rw [signedByAny_singleton] at signed
    exact .onward reached mem (vouches_iff.mpr ⟨.inr ca, signed⟩)

/-- The rounds reach exactly what chains through embedded CAs lead to. -/
theorem reached_iff_linkedBelow {c : Certificate} (mem : c ∈ embedded) :
    Rounds.Reached (vouches issuance roots) roots embedded c ↔
      LinkedBelow issuance embedded roots c := by
  constructor
  · intro reached
    clear mem
    have inside :
      ∀ {i}, Rounds.Reached (vouches issuance roots) roots embedded i → i ∈ embedded := by
      rintro i (⟨-, mem, -⟩ | ⟨-, mem, -⟩) <;> exact mem
    have direct : ∀ {i c}, i ∈ roots → signs issuance i c = true →
        LinkedBelow issuance embedded roots c := fun {i c} root signed =>
      ⟨i, root, [], by simp, List.isChain_cons_cons.mpr
        ⟨(signedByAny_singleton i c).trans signed, .singleton c⟩⟩
    induction reached with
    | first above _ link => exact direct above (vouches_iff.mp link).2
    | @onward i c above _ link ih =>
      obtain ⟨voucher, signed⟩ := vouches_iff.mp link
      rcases voucher with root | ca
      · exact direct root signed
      · obtain ⟨r, root, inner, through, chain⟩ := ih
        refine ⟨r, root, inner ++ [i], ?_, ?_⟩
        · intro d hd
          rcases List.mem_append.mp hd with hd | last
          · exact through d hd
          · rw [List.mem_singleton.mp last]
            exact ⟨inside above, ca⟩
        · have extended := List.isChain_append_cons_cons.mpr
            ⟨chain, (signedByAny_singleton i c).trans signed, .singleton c⟩
          simpa using extended
  · rintro ⟨r, root, inner, through, chain⟩
    exact reached_of_chain mem (.inl root) through chain

/-! ## The walk -/

theorem value_authenticatedTopDown (embedded : List Certificate) (anchors : List TrustAnchor) :
    (authenticatedTopDown issuance embedded anchors).value =
      Rounds.closure (vouches issuance (AppleTrust.roots anchors)) (AppleTrust.roots anchors)
        embedded := by
  rw [authenticatedTopDown, value_topDownLoop (.start _ _), List.nil_append]

/-- What a round offers and no later round repeats is offered in one round. -/
theorem countP_eq_one {rounds : List Round} {v : Certificate}
    (once : rounds.Pairwise fun round later => ∀ i ∈ round.issuers, i ∉ later.issuers)
    (offered : ∃ round ∈ rounds, v ∈ round.issuers) :
    rounds.countP (fun round => round.issuers.contains v) = 1 := by
  induction once with
  | nil => simp at offered
  | @cons round rounds own _ ih =>
    by_cases now : v ∈ round.issuers
    · have none : rounds.countP (fun round => round.issuers.contains v) = 0 :=
        List.countP_eq_zero.mpr fun later mem => by simpa using own later mem v now
      rw [List.countP_cons_of_pos (by simpa using now), none]
    · rw [List.countP_cons_of_neg (by simpa using now)]
      refine ih ?_
      obtain ⟨later, mem, has⟩ := offered
      rcases List.mem_cons.mp mem with rfl | mem
      · exact absurd has now
      · exact ⟨later, mem, has⟩

/-- **Only roots and accepted CAs vouch in the Java port.** The walk returns each occurrence of an
embedded certificate that a chain of signatures links to a root through embedded CAs, once, and no
other. It offers as issuers the roots and the CAs it accepted, each in one round, or in none when it
became one with nothing left pending. The order of the bag and of the anchors does not decide what
is returned. -/
theorem authenticatedTopDown_exact (issuance : Issuance) (embedded : List Certificate)
    (anchors : List TrustAnchor) :
    (∃ linked : Certificate → Bool,
      (∀ c ∈ embedded, linked c = true ↔
        LinkedBelow issuance embedded (AppleTrust.roots anchors) c) ∧
      (authenticatedTopDown issuance embedded anchors).value.Perm (embedded.filter linked)) ∧
    (∀ round ∈ (authenticatedTopDown issuance embedded anchors).events, ∀ i ∈ round.issuers,
      i ∈ AppleTrust.roots anchors ∨
        i ∈ (authenticatedTopDown issuance embedded anchors).value ∧
          issuance.basicConstraints i ≠ -1) ∧
    (∀ v, (v ∈ AppleTrust.roots anchors ∨
        v ∈ (authenticatedTopDown issuance embedded anchors).value ∧
          issuance.basicConstraints v ≠ -1) →
      (authenticatedTopDown issuance embedded anchors).events.countP
          (fun round => round.issuers.contains v) = 1 ∨
        (∀ round ∈ (authenticatedTopDown issuance embedded anchors).events, v ∉ round.issuers) ∧
          (embedded = [] ∨
            ∃ last, (authenticatedTopDown issuance embedded anchors).events.getLast? = some last ∧
              v ∈ last.pending ∧
              ∀ c ∈ last.pending, AppleTrust.signedByAny issuance c last.issuers = true)) ∧
    ∀ embedded' anchors', embedded'.Perm embedded → (∀ a, a ∈ anchors' ↔ a ∈ anchors) →
      (authenticatedTopDown issuance embedded' anchors').value.Perm
        (authenticatedTopDown issuance embedded anchors).value := by
  classical
  have offered := @topDownLoop_offeredOnce issuance _ _ [] embedded
    fun i (mem : i ∈ AppleTrust.roots anchors) => mem
  have accepted := @value_topDownLoop_eq_flatMap issuance (AppleTrust.roots anchors)
    (AppleTrust.roots anchors) [] embedded
  rw [← authenticatedTopDown] at offered accepted
  have acceptedIn : ∀ c, c ∈ (authenticatedTopDown issuance embedded anchors).value ↔
      ∃ round ∈ (authenticatedTopDown issuance embedded anchors).events,
        c ∈ acceptedOf issuance round.issuers round.pending := by
    intro c
    rw [accepted, List.nil_append, List.mem_flatMap]
  refine ⟨⟨fun c => decide (LinkedBelow issuance embedded (AppleTrust.roots anchors) c),
    fun c _ => decide_eq_true_iff, ?_⟩, ?_, ?_, ?_⟩
  · rw [value_authenticatedTopDown]
    refine Rounds.closure_perm_filter fun c mem => ?_
    rw [decide_eq_true_iff, Rounds.mem_closure_iff, reached_iff_linkedBelow mem]
  · intro round mem i mem'
    rcases offered.only round mem i mem' with root | ⟨-, ca, taken⟩
    · exact .inl root
    · exact .inr ⟨(acceptedIn i).mpr taken, ca⟩
  · intro v voucher
    by_cases some : ∃ round ∈ (authenticatedTopDown issuance embedded anchors).events,
        v ∈ round.issuers
    · exact .inl (countP_eq_one offered.once some)
    · refine .inr ⟨fun round mem has => some ⟨round, mem, has⟩, ?_⟩
      have before : v ∈ AppleTrust.roots anchors ∨ v ∉ AppleTrust.roots anchors ∧
          issuance.basicConstraints v ≠ -1 ∧
          ∃ round ∈ (authenticatedTopDown issuance embedded anchors).events,
            v ∈ acceptedOf issuance round.issuers round.pending := by
        by_cases root : v ∈ AppleTrust.roots anchors
        · exact .inl root
        · obtain ⟨taken, ca⟩ := voucher.resolve_left root
          exact .inr ⟨root, ca, (acceptedIn v).mp taken⟩
      rcases offered.offered v before with has | ⟨nothing, -⟩ | last
      · exact absurd has some
      · exact .inl nothing
      · exact .inr last
  · intro embedded' anchors' reordered same
    have sameRoots : ∀ c, c ∈ AppleTrust.roots anchors' ↔ c ∈ AppleTrust.roots anchors := by
      simp only [AppleTrust.roots, List.mem_map, same, implies_true]
    have sameLinks : vouches issuance (AppleTrust.roots anchors') =
        vouches issuance (AppleTrust.roots anchors) := by
      funext i c
      rw [Bool.eq_iff_iff, vouches_iff, vouches_iff, sameRoots]
    rw [value_authenticatedTopDown, value_authenticatedTopDown, sameLinks]
    exact Rounds.closure_perm sameRoots reordered

/-! ## A voucher nobody is left to ask about -/

/-- A root `01` that is no CA by its own account, and a CA `02` it signed. -/
def rootAndCa : Issuance where
  issuerX500Principal _ := "root"
  subjectX500Principal c := if c = ⟨[1]⟩ then "root" else "ca"
  publicKey c := some ⟨c.der⟩
  signedBy _ key := key == ⟨[1]⟩
  basicConstraints c := if c = ⟨[1]⟩ then -1 else 0

/-- The last CA accepted is a voucher no round offers, as nothing is pending any more; and a root
that the bag repeats is an accepted end entity a round offers. -/
theorem last_voucher_not_offered :
    ((authenticatedTopDown rootAndCa [⟨[2]⟩] [⟨⟨[1]⟩⟩]).value = [⟨[2]⟩] ∧
      rootAndCa.basicConstraints ⟨[2]⟩ ≠ -1 ∧
      (authenticatedTopDown rootAndCa [⟨[2]⟩] [⟨⟨[1]⟩⟩]).events.countP
        (fun round => round.issuers.contains ⟨[2]⟩) = 0) ∧
    (authenticatedTopDown rootAndCa [⟨[1]⟩] [⟨⟨[1]⟩⟩]).value = [⟨[1]⟩] ∧
    rootAndCa.basicConstraints ⟨[1]⟩ = -1 ∧
    (authenticatedTopDown rootAndCa [⟨[1]⟩] [⟨⟨[1]⟩⟩]).events.countP
      (fun round => round.issuers.contains ⟨[1]⟩) = 1 := by
  decide +kernel

end ReceiptCore

end Java

end ReceiptVerifier
