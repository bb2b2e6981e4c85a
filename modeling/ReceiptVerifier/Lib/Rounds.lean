import Mathlib.Data.List.Basic
import Mathlib.Tactic.Common

/-!
# Closure in rounds

The candidates a link leads to, found round by round: each round takes every pending candidate that
some element of the round before links to, and the rounds end when one takes nothing. `sound` is the
invariant rule of the loop, and `filter_pending` says that candidates no chain of links reaches
leave no mark on the answer, its order included. Exactly the candidates a chain reaches are taken,
each occurrence once (`mem_closure_iff`, `closure_perm_filter`). `level` is the round that takes a
candidate: the answer is ordered by it and inside a round as the candidates were, and the order of
the candidates decides nothing else.
-/

namespace Rounds

variable {α : Type} (links : α → α → Bool)

/-- The pending candidates an element of `frontier` links to. -/
def next (frontier pending : List α) : List α :=
  pending.filter fun c => frontier.any fun i => links i c

/-- The pending candidates no element of `frontier` links to. -/
def rest (frontier pending : List α) : List α :=
  pending.filter fun c => !frontier.any fun i => links i c

theorem length_rest_lt {frontier pending : List α} (h : next links frontier pending ≠ []) :
    (rest links frontier pending).length < pending.length := by
  obtain ⟨c, hc⟩ := List.exists_mem_of_ne_nil _ h
  obtain ⟨mem, linked⟩ := List.mem_filter.mp hc
  exact List.length_filter_lt_length_iff_exists.mpr ⟨c, mem, by simp only [linked]; decide⟩

/-- What the rounds take, in the order they take it. -/
def closure (frontier pending : List α) : List α :=
  if _h : next links frontier pending = [] then []
  else
    next links frontier pending ++
      closure (next links frontier pending) (rest links frontier pending)
termination_by pending.length
decreasing_by exact length_rest_lt links _h

variable {links}

/-- A property of the first frontier that links carry to candidates holds of everything taken. -/
theorem sound {R : α → Prop} {frontier pending : List α} (start : ∀ i ∈ frontier, R i)
    (step : ∀ i c, R i → c ∈ pending → links i c = true → R c) :
    ∀ c ∈ closure links frontier pending, R c ∧ c ∈ pending := by
  fun_induction closure links frontier pending with
  | case1 => simp
  | case2 frontier pending more ih =>
    have taken : ∀ c ∈ next links frontier pending, R c ∧ c ∈ pending := by
      intro c hc
      obtain ⟨mem, linked⟩ := List.mem_filter.mp hc
      obtain ⟨i, hi, link⟩ := List.any_eq_true.mp linked
      exact ⟨step i c (start i hi) mem link, mem⟩
    have inside : ∀ c ∈ rest links frontier pending, c ∈ pending :=
      fun c hc => (List.mem_filter.mp hc).1
    intro c hc
    rcases List.mem_append.mp hc with hc | hc
    · exact taken c hc
    · obtain ⟨holds, mem⟩ := ih (fun i hi => (taken i hi).1)
        (fun i c hi hc link => step i c hi (inside c hc) link) c hc
      exact ⟨holds, inside c mem⟩

/-- Leaving out candidates that no chain of links reaches changes nothing. -/
theorem filter_pending {R : α → Prop} {keep : α → Bool} {frontier pending : List α}
    (start : ∀ i ∈ frontier, R i) (step : ∀ i c, R i → c ∈ pending → links i c = true → R c)
    (kept : ∀ c ∈ pending, R c → keep c = true) :
    closure links frontier (pending.filter keep) = closure links frontier pending := by
  fun_induction closure links frontier pending with
  | case1 frontier pending none =>
    have : next links frontier (pending.filter keep) = [] := by
      refine List.eq_nil_iff_forall_not_mem.mpr fun c hc => ?_
      obtain ⟨mem, linked⟩ := List.mem_filter.mp hc
      have : c ∈ next links frontier pending :=
        List.mem_filter.mpr ⟨(List.mem_filter.mp mem).1, linked⟩
      rw [none] at this
      cases this
    rw [closure, dif_pos this]
  | case2 frontier pending more ih =>
    have sameNext : next links frontier (pending.filter keep) = next links frontier pending := by
      unfold next
      rw [List.filter_filter]
      refine List.filter_congr fun c hc => ?_
      cases linked : frontier.any fun i => links i c with
      | false => simp
      | true =>
        obtain ⟨i, hi, link⟩ := List.any_eq_true.mp linked
        simp [kept c hc (step i c (start i hi) hc link)]
    have sameRest : rest links frontier (pending.filter keep) =
        (rest links frontier pending).filter keep := by
      unfold rest
      rw [List.filter_filter, List.filter_filter]
      exact List.filter_congr fun c _ => Bool.and_comm _ _
    have inside : ∀ c ∈ rest links frontier pending, c ∈ pending :=
      fun c hc => (List.mem_filter.mp hc).1
    rw [closure, dif_neg (by rw [sameNext]; exact more), sameNext, sameRest, ih]
    · intro i hi
      obtain ⟨mem, linked⟩ := List.mem_filter.mp hi
      obtain ⟨j, hj, link⟩ := List.any_eq_true.mp linked
      exact step j i (start j hj) mem link
    · exact fun i c hi hc link => step i c hi (inside c hc) link
    · exact fun c hc holds => kept c (inside c hc) holds

/-! ## Reordered candidates -/

variable {frontier frontier' pending pending' : List α}

variable (links) in
theorem mem_next_congr (sameFrontier : ∀ a, a ∈ frontier ↔ a ∈ frontier')
    (samePending : ∀ a, a ∈ pending ↔ a ∈ pending') (c : α) :
    c ∈ next links frontier pending ↔ c ∈ next links frontier' pending' := by
  simp only [next, List.mem_filter, List.any_eq_true, sameFrontier, samePending]

variable (links) in
theorem mem_rest_congr (sameFrontier : ∀ a, a ∈ frontier ↔ a ∈ frontier')
    (samePending : ∀ a, a ∈ pending ↔ a ∈ pending') (c : α) :
    c ∈ rest links frontier pending ↔ c ∈ rest links frontier' pending' := by
  simp only [rest, List.mem_filter, Bool.not_eq_true', List.any_eq_false, sameFrontier,
    samePending]

theorem eq_nil_congr {l l' : List α} (same : ∀ a, a ∈ l ↔ a ∈ l') : l = [] ↔ l' = [] := by
  simp only [List.eq_nil_iff_forall_not_mem, same]

theorem mem_rest_of_mem_closure {c : α}
    (h : c ∈ closure links (next links frontier pending) (rest links frontier pending)) :
    c ∈ rest links frontier pending :=
  (sound (R := fun _ => True) (fun _ _ => trivial) (fun _ _ _ _ _ => trivial) c h).2

/-- Reordered candidates are taken all the same. -/
theorem closure_perm (sameFrontier : ∀ a, a ∈ frontier ↔ a ∈ frontier')
    (reordered : pending.Perm pending') :
    (closure links frontier pending).Perm (closure links frontier' pending') := by
  fun_induction closure links frontier pending generalizing frontier' pending' with
  | case1 frontier pending none =>
    have sameNext := mem_next_congr links sameFrontier fun a => reordered.mem_iff
    rw [closure, dif_pos ((eq_nil_congr sameNext).mp none)]
  | case2 frontier pending more ih =>
    have sameNext := mem_next_congr links sameFrontier fun a => reordered.mem_iff
    have sameAny : ∀ c, (frontier.any fun i => links i c) = frontier'.any fun i => links i c := by
      intro c
      rw [Bool.eq_iff_iff, List.any_eq_true, List.any_eq_true]
      simp only [sameFrontier]
    have nextPerm : (next links frontier pending).Perm (next links frontier' pending') := by
      unfold next
      simp only [sameAny]
      exact reordered.filter _
    have restPerm : (rest links frontier pending).Perm (rest links frontier' pending') := by
      unfold rest
      simp only [sameAny]
      exact reordered.filter _
    conv => rhs; rw [closure, dif_neg (mt (eq_nil_congr sameNext).mpr more)]
    exact nextPerm.append (ih sameNext restPerm)

/-- Only what a frontier links to pending candidates counts. -/
theorem closure_congr_frontier (same : ∀ c ∈ pending,
    (frontier.any fun i => links i c) = frontier'.any fun i => links i c) :
    closure links frontier pending = closure links frontier' pending := by
  have sameNext : next links frontier pending = next links frontier' pending :=
    List.filter_congr same
  have sameRest : rest links frontier pending = rest links frontier' pending :=
    List.filter_congr fun c mem => congrArg _ (same c mem)
  conv => lhs; rw [closure]
  conv => rhs; rw [closure]
  simp only [sameNext, sameRest]

/-! ## Reached candidates -/

variable (links) in
/-- A candidate at the end of a chain of links from the first frontier, through candidates. -/
inductive Reached (frontier pending : List α) : α → Prop
  | first {i c : α} (above : i ∈ frontier) (mem : c ∈ pending) (link : links i c = true) :
    Reached frontier pending c
  | onward {i c : α} (above : Reached frontier pending i) (mem : c ∈ pending)
    (link : links i c = true) : Reached frontier pending c

theorem mem_next_or_rest {c : α} (mem : c ∈ pending) :
    c ∈ next links frontier pending ∨ c ∈ rest links frontier pending := by
  cases linked : frontier.any fun i => links i c with
  | true => exact .inl (List.mem_filter.mpr ⟨mem, linked⟩)
  | false => exact .inr (List.mem_filter.mpr ⟨mem, by rw [linked]; rfl⟩)

theorem not_mem_next_of_mem_rest {c : α} (left : c ∈ rest links frontier pending) :
    c ∉ next links frontier pending := by
  intro taken
  have linked := (List.mem_filter.mp taken).2
  have unlinked := (List.mem_filter.mp left).2
  rw [linked] at unlinked
  cases unlinked

/-- Dropping the older issuers is sound: a candidate still pending was tried against all of them. -/
theorem closure_closed {i c : α} (above : i ∈ frontier ∨ i ∈ closure links frontier pending)
    (mem : c ∈ pending) (link : links i c = true) : c ∈ closure links frontier pending := by
  fun_induction closure links frontier pending with
  | case1 frontier pending none =>
    rcases above with first | taken
    · have taken : c ∈ next links frontier pending :=
        List.mem_filter.mpr ⟨mem, List.any_eq_true.mpr ⟨i, first, link⟩⟩
      rwa [none] at taken
    · cases taken
  | case2 frontier pending more ih =>
    have split : c ∈ next links frontier pending ∨ c ∈ rest links frontier pending :=
      mem_next_or_rest mem
    rcases split with taken | left
    · exact List.mem_append_left _ taken
    · apply List.mem_append_right
      rcases above with first | taken
      · -- the frontier of this round has no link to what it leaves pending
        have taken : c ∈ next links frontier pending :=
          List.mem_filter.mpr ⟨mem, List.any_eq_true.mpr ⟨i, first, link⟩⟩
        exact absurd taken (not_mem_next_of_mem_rest left)
      · exact ih (List.mem_append.mp taken) left

theorem Reached.of_rest {c : α}
    (h : Reached links (next links frontier pending) (rest links frontier pending) c) :
    Reached links frontier pending c := by
  induction h with
  | first above mem link =>
    obtain ⟨pendingAbove, linked⟩ := List.mem_filter.mp above
    obtain ⟨i, first, linkAbove⟩ := List.any_eq_true.mp linked
    exact .onward (.first first pendingAbove linkAbove) (List.mem_filter.mp mem).1 link
  | onward _ mem link ih => exact .onward ih (List.mem_filter.mp mem).1 link

theorem reached_of_mem_closure :
    ∀ c ∈ closure links frontier pending, Reached links frontier pending c := by
  fun_induction closure links frontier pending with
  | case1 => simp
  | case2 frontier pending more ih =>
    intro c taken
    rcases List.mem_append.mp taken with now | later
    · obtain ⟨mem, linked⟩ := List.mem_filter.mp now
      obtain ⟨i, first, link⟩ := List.any_eq_true.mp linked
      exact .first first mem link
    · exact (ih c later).of_rest

/-- The rounds take exactly what chains of links reach. -/
theorem mem_closure_iff {c : α} :
    c ∈ closure links frontier pending ↔ Reached links frontier pending c := by
  constructor
  · exact reached_of_mem_closure c
  · intro reached
    induction reached with
    | first above mem link => exact closure_closed (.inl above) mem link
    | onward _ mem link ih => exact closure_closed (.inr ih) mem link

/-- Each occurrence of a candidate is taken once or not at all. -/
theorem closure_perm_filter {keep : α → Bool}
    (kept : ∀ c ∈ pending, keep c = true ↔ c ∈ closure links frontier pending) :
    (closure links frontier pending).Perm (pending.filter keep) := by
  fun_induction closure links frontier pending with
  | case1 frontier pending none =>
    rw [List.filter_eq_nil_iff.mpr fun c mem keeps => List.not_mem_nil ((kept c mem).mp keeps)]
  | case2 frontier pending more ih =>
    have split : pending.Perm (next links frontier pending ++ rest links frontier pending) :=
      (List.filter_append_perm _ pending).symm
    have keptNext : (next links frontier pending).filter keep = next links frontier pending :=
      List.filter_eq_self.mpr fun c taken =>
        (kept c (List.mem_filter.mp taken).1).mpr (List.mem_append_left _ taken)
    have keptRest : ∀ c ∈ rest links frontier pending, keep c = true ↔
        c ∈ closure links (next links frontier pending) (rest links frontier pending) := by
      intro c left
      rw [kept c (List.mem_filter.mp left).1, List.mem_append,
        or_iff_right (not_mem_next_of_mem_rest left)]
    refine ((ih keptRest).append_left _).trans ?_
    conv => lhs; rw [← keptNext]
    rw [← List.filter_append]
    exact (split.filter keep).symm

/-! ## Levels -/

section

variable [DecidableEq α]

variable (links) in
/-- How many rounds come before the one that takes `c`. -/
def level (frontier pending : List α) (c : α) : Nat :=
  if _h : next links frontier pending = [] then 0
  else if c ∈ next links frontier pending then 0
  else level (next links frontier pending) (rest links frontier pending) c + 1
termination_by pending.length
decreasing_by exact length_rest_lt links _h

/-- The levels depend on which candidates there are, not on their order. -/
theorem level_congr (sameFrontier : ∀ a, a ∈ frontier ↔ a ∈ frontier')
    (samePending : ∀ a, a ∈ pending ↔ a ∈ pending') (c : α) :
    level links frontier pending c = level links frontier' pending' c := by
  fun_induction level links frontier pending c generalizing frontier' pending' with
  | case1 frontier pending none =>
    rw [level, dif_pos ((eq_nil_congr (mem_next_congr links sameFrontier samePending)).mp none)]
  | case2 frontier pending more taken =>
    have sameNext := mem_next_congr links sameFrontier samePending
    rw [level, dif_neg (mt (eq_nil_congr sameNext).mpr more), if_pos ((sameNext c).mp taken)]
  | case3 frontier pending more later ih =>
    have sameNext := mem_next_congr links sameFrontier samePending
    conv => rhs; rw [level, dif_neg (mt (eq_nil_congr sameNext).mpr more),
      if_neg (mt (sameNext c).mpr later)]
    rw [ih sameNext (mem_rest_congr links sameFrontier samePending)]

/-- What the rounds take is ordered by round, and inside a round as the candidates were. -/
theorem pairwise_closure {r : α → α → Prop} (sorted : pending.Pairwise r) :
    (closure links frontier pending).Pairwise fun a b =>
      level links frontier pending a < level links frontier pending b ∨
        level links frontier pending a = level links frontier pending b ∧ r a b := by
  fun_induction closure links frontier pending with
  | case1 => exact .nil
  | case2 frontier pending more ih =>
    have atOnce : ∀ c ∈ next links frontier pending, level links frontier pending c = 0 := by
      intro c taken
      rw [level, dif_neg more, if_pos taken]
    have later : ∀ c ∈ closure links (next links frontier pending) (rest links frontier pending),
        level links frontier pending c =
          level links (next links frontier pending) (rest links frontier pending) c + 1 := by
      intro c taken
      have left := mem_rest_of_mem_closure taken
      rw [level, dif_neg more, if_neg (not_mem_next_of_mem_rest left)]
    refine List.pairwise_append.mpr ⟨?_, ?_, ?_⟩
    · refine (sorted.filter _).imp_of_mem fun {a b} ha hb related => .inr ⟨?_, related⟩
      rw [atOnce a ha, atOnce b hb]
    · refine (ih (sorted.filter _)).imp_of_mem fun {a b} ha hb ordered => ?_
      rw [later a ha, later b hb]
      rcases ordered with less | ⟨same, related⟩
      · exact .inl (Nat.succ_lt_succ less)
      · exact .inr ⟨congrArg Nat.succ same, related⟩
    · intro a ha b hb
      rw [atOnce a ha, later b hb]
      exact .inl (Nat.succ_pos _)

end

end Rounds
