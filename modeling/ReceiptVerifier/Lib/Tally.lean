import Mathlib.Tactic.Common

/-!
# Tallies and measures

What the members of a list weigh together, and what becomes of it where one of them changes. Steps
that each lower a measure run out: a run of them is no longer than the measure was, and from every
state one ends where none of them is possible.
-/

variable {α σ ε : Type}

/-! ## Tallies -/

/-- What the members of a list weigh together. -/
def tally (weight : α → Nat) : List α → Nat
  | [] => 0
  | a :: l => weight a + tally weight l

variable {weight : α → Nat} {l : List α} {i : Nat} {a b : α}

@[simp] theorem tally_nil : tally weight [] = 0 := rfl

theorem tally_cons (a : α) (l : List α) : tally weight (a :: l) = weight a + tally weight l := rfl

theorem tally_concat (l : List α) (a : α) :
    tally weight (l ++ [a]) = tally weight l + weight a := by
  induction l with
  | nil => rw [List.nil_append, tally_cons, tally_nil, Nat.add_comm]
  | cons c l ih => rw [List.cons_append, tally_cons, tally_cons, ih, Nat.add_assoc]

/-- One member changes. -/
theorem tally_set (weight : α → Nat) (at_ : l[i]? = some a) (b : α) :
    tally weight (l.set i b) + weight a = tally weight l + weight b := by
  induction l generalizing i with
  | nil => cases at_
  | cons c l ih =>
    cases i with
    | zero =>
      obtain rfl := Option.some.inj at_
      rw [List.set_cons_zero, tally_cons, tally_cons]
      omega
    | succ i =>
      have rest := ih (i := i) at_
      rw [List.set_cons_succ, tally_cons, tally_cons]
      omega

/-- Members that weigh at most so much each for what they count. -/
theorem tally_le {count : α → Nat} {each : Nat} (le : ∀ a ∈ l, weight a ≤ each * count a) :
    tally weight l ≤ each * tally count l := by
  induction l with
  | nil => exact Nat.zero_le _
  | cons a l ih =>
    rw [List.forall_mem_cons] at le
    rw [tally_cons, tally_cons, Nat.mul_add]
    exact Nat.add_le_add le.1 (ih le.2)

theorem tally_eq_zero (zero : ∀ a ∈ l, weight a = 0) : tally weight l = 0 := by
  induction l with
  | nil => rfl
  | cons a l ih =>
    rw [List.forall_mem_cons] at zero
    rw [tally_cons, zero.1, ih zero.2]

/-! ## Steps that run out -/

section Steps

variable {step : σ → ε → Option σ} {Own : ε → Prop} {Good : σ → Prop} {measure : σ → Nat}
  (keeps : ∀ {s e t}, Good s → step s e = some t → Good t)
  (lowers : ∀ {s e t}, Good s → Own e → step s e = some t → measure t < measure s)

include keeps lowers

/-- A run of own steps is no longer than the measure. -/
theorem length_le_of_lowers {s t : σ} {events : List ε} (own : ∀ e ∈ events, Own e) (good : Good s)
    (run : events.foldlM step s = some t) : Good t ∧ measure t + events.length ≤ measure s := by
  induction events generalizing s with
  | nil =>
    obtain rfl := Option.some.inj run
    exact ⟨good, Nat.le_refl _⟩
  | cons e events ih =>
    rw [List.forall_mem_cons] at own
    obtain ⟨next, first, rest⟩ := Option.bind_eq_some_iff.mp run
    obtain ⟨good', bound⟩ := ih own.2 (keeps good first) rest
    have lower := lowers good own.1 first
    refine ⟨good', ?_⟩
    rw [List.length_cons]
    omega

/-- From every state a run of own steps ends where none is possible. -/
theorem exists_run_to_rest {s : σ} (good : Good s) :
    ∃ (events : List ε) (t : σ), (∀ e ∈ events, Own e) ∧ events.foldlM step s = some t ∧
      ∀ e, Own e → step t e = none := by
  induction bound : measure s using Nat.strongRecOn generalizing s with
  | ind n ih =>
    by_cases rests : ∀ e, Own e → step s e = none
    · exact ⟨[], s, List.forall_mem_nil _, rfl, rests⟩
    · push Not at rests
      obtain ⟨e, own, can⟩ := rests
      obtain ⟨next, first⟩ := Option.ne_none_iff_exists'.mp can
      obtain ⟨events, t, owns, run, rest⟩ :=
        ih (measure next) (bound ▸ lowers good own first) (keeps good first) rfl
      refine ⟨e :: events, t, List.forall_mem_cons.mpr ⟨own, owns⟩, ?_, rest⟩
      exact Option.bind_eq_some_iff.mpr ⟨next, first, run⟩

end Steps
