import ReceiptVerifier.Lib.Traced

/-!
# Attempts in order

Candidates tried one after another until one passes; when none does, the first failure is what is
reported. `Attempts.first` is the loop, with the failure it remembers. A candidate may be a loop of
its own, so what is said of a loop is said of any attempt: where it stops (`StopsAtPass`), which
events it has, and when two of them are the same but for how they name a failure (`Same`).
-/

namespace Attempts

variable {ε α φ : Type}

/-- Tries the candidates in order until one passes, remembering the first failure. `nothing` is the
failure when there are no candidates. -/
def first (nothing : φ) (attempt : α → Traced ε (Except φ Unit)) :
    List α → Option φ → Traced ε (Except φ Unit)
  | [], failure => pure (.error (failure.getD nothing))
  | a :: l, failure => do
    match ← attempt a with
    | .ok () => pure (.ok ())
    | .error e => first nothing attempt l (failure.or (some e))

variable {nothing : φ} {attempt : α → Traced ε (Except φ Unit)}

theorem first_cons_ok {a : α} {l : List α} {failure : Option φ}
    (passed : (attempt a).value = .ok ()) :
    first nothing attempt (a :: l) failure = ⟨.ok (), (attempt a).events⟩ := by
  simp only [first, bind, pure, passed, List.append_nil]

theorem first_cons_error {a : α} {l : List α} {failure : Option φ} {e : φ}
    (failed : (attempt a).value = .error e) :
    first nothing attempt (a :: l) failure =
      ⟨(first nothing attempt l (failure.or (some e))).value,
        (attempt a).events ++ (first nothing attempt l (failure.or (some e))).events⟩ := by
  simp only [first, bind, failed]

theorem first_congr {attempt' : α → Traced ε (Except φ Unit)} {l : List α} {failure : Option φ}
    (each : ∀ a ∈ l, attempt a = attempt' a) :
    first nothing attempt l failure = first nothing attempt' l failure := by
  induction l generalizing failure with
  | nil => rfl
  | cons a l ih =>
    rw [List.forall_mem_cons] at each
    simp only [first, each.1, ih each.2]

/-- A loop that remembers a failure reports that one. -/
theorem value_first_remembered {l : List α} {failure e : φ}
    (failed : (first nothing attempt l (some failure)).value = .error e) : e = failure := by
  induction l with
  | nil =>
    cases failed
    rfl
  | cons a l ih =>
    cases verdict : (attempt a).value with
    | ok =>
      rw [first_cons_ok verdict] at failed
      cases failed
    | error own =>
      rw [first_cons_error verdict] at failed
      exact ih failed

/-- A loop that fails reports its first candidate's failure. -/
theorem value_first_error {a : α} {l : List α} {e : φ}
    (failed : (first nothing attempt (a :: l) none).value = .error e) :
    (attempt a).value = .error e := by
  cases verdict : (attempt a).value with
  | ok =>
    rw [first_cons_ok verdict] at failed
    cases failed
  | error own =>
    rw [first_cons_error verdict] at failed
    rw [value_first_remembered failed]

/-! ## Where a loop stops -/

/-- The one event that passes, if one does, is the last. -/
def StopsAtPass (passes : ε → Prop) (x : Traced ε (Except φ Unit)) : Prop :=
  (x.value = .ok () → ∃ front e, x.events = front ++ [e] ∧ passes e ∧ ∀ e ∈ front, ¬ passes e) ∧
  ∀ failure, x.value = .error failure → ∀ e ∈ x.events, ¬ passes e

variable {passes : ε → Prop}

theorem StopsAtPass.first {l : List α} (each : ∀ a ∈ l, StopsAtPass passes (attempt a))
    (failure : Option φ) : StopsAtPass passes (first nothing attempt l failure) := by
  induction l generalizing failure with
  | nil =>
    constructor
    · rintro ⟨⟩
    · intro _ _ e mem
      cases mem
  | cons a l ih =>
    rw [List.forall_mem_cons] at each
    cases verdict : (attempt a).value with
    | ok =>
      rw [first_cons_ok verdict]
      refine ⟨fun _ => each.1.1 verdict, ?_⟩
      rintro _ ⟨⟩
    | error own =>
      have before := each.1.2 own verdict
      obtain ⟨passing, failing⟩ := ih each.2 (failure.or (some own))
      rw [first_cons_error verdict]
      constructor
      · intro passed
        obtain ⟨front, e, events, passesLast, rest⟩ := passing passed
        refine ⟨(attempt a).events ++ front, e, ?_, passesLast, ?_⟩
        · simp only [events, List.append_assoc]
        · exact List.forall_mem_append.mpr ⟨before, rest⟩
      · intro e failed
        exact List.forall_mem_append.mpr ⟨before, failing e failed⟩

/-- Nothing follows an event that passes. -/
theorem StopsAtPass.rest_eq_nil {x : Traced ε (Except φ Unit)} (h : StopsAtPass passes x)
    {front rest : List ε} {e : ε} (split : x.events = front ++ e :: rest) (passed : passes e) :
    rest = [] := by
  cases verdict : x.value with
  | error failure =>
    exact absurd passed (h.2 failure verdict e (by simp [split]))
  | ok =>
    obtain ⟨front', last, events, -, others⟩ := h.1 verdict
    rw [events] at split
    rcases List.eq_nil_or_concat rest with rfl | ⟨rest, final, rfl⟩
    · rfl
    · have ends : front' ++ [last] = (front ++ e :: rest) ++ [final] := by
        simpa using split
      have inside := (List.append_inj' ends rfl).1
      exact absurd passed (others e (by simp [inside]))

/-! ## Which events a loop has -/

/-- The events are the first of a list, and all of it unless it passed. -/
def Covers (events : List ε) (x : Traced ε (Except φ Unit)) : Prop :=
  x.events <+: events ∧ ∀ e, x.value = .error e → x.events = events

theorem Covers.first {events : α → List ε} {l : List α}
    (each : ∀ a ∈ l, Covers (events a) (attempt a)) (failure : Option φ) :
    Covers (l.flatMap events) (first nothing attempt l failure) := by
  induction l generalizing failure with
  | nil => exact ⟨List.nil_prefix, fun _ _ => rfl⟩
  | cons a l ih =>
    rw [List.forall_mem_cons] at each
    rw [List.flatMap_cons]
    cases verdict : (attempt a).value with
    | ok =>
      rw [first_cons_ok verdict]
      refine ⟨each.1.1.trans (List.prefix_append _ _), ?_⟩
      rintro _ ⟨⟩
    | error own =>
      obtain ⟨front, whole⟩ := ih each.2 (failure.or (some own))
      rw [first_cons_error verdict, each.1.2 own verdict]
      refine ⟨(List.prefix_append_right_inj _).mpr front, fun e failed => ?_⟩
      rw [whole e failed]

/-! ## Loops that are the same -/

/-- How an attempt ended: passed, or failed by the name `f` gives the failure. -/
def outcome {ρ : Type} (f : φ → ρ) : Except φ Unit → Option ρ
  | .ok () => none
  | .error e => some (f e)

theorem outcome_eq_none {ρ : Type} {f : φ → ρ} {x : Except φ Unit} :
    outcome f x = none ↔ x = .ok () := by
  cases x <;> simp [outcome]

/-- The same events, and the same end up to the names of failures. -/
def Same {φ' ρ : Type} (f : φ → ρ) (f' : φ' → ρ) (x : Traced ε (Except φ Unit))
    (y : Traced ε (Except φ' Unit)) : Prop :=
  x.events = y.events ∧ outcome f x.value = outcome f' y.value

theorem Same.first {φ' ρ : Type} {f : φ → ρ} {f' : φ' → ρ} {nothing' : φ'}
    {attempt' : α → Traced ε (Except φ' Unit)} {l : List α} {failure : Option φ}
    {failure' : Option φ'} (each : ∀ a ∈ l, Same f f' (attempt a) (attempt' a))
    (remembered : failure.map f = failure'.map f')
    (some : l = [] → f (failure.getD nothing) = f' (failure'.getD nothing')) :
    Same f f' (first nothing attempt l failure) (first nothing' attempt' l failure') := by
  induction l generalizing failure failure' with
  | nil => exact ⟨rfl, congrArg Option.some (some rfl)⟩
  | cons a l ih =>
    rw [List.forall_mem_cons] at each
    obtain ⟨events, ends⟩ := each.1
    cases verdict : (attempt a).value with
    | ok =>
      cases verdict' : (attempt' a).value with
      | ok =>
        rw [first_cons_ok verdict, first_cons_ok verdict']
        exact ⟨events, rfl⟩
      | error own =>
        rw [verdict, verdict'] at ends
        cases ends
    | error own =>
      cases verdict' : (attempt' a).value with
      | ok =>
        rw [verdict, verdict'] at ends
        cases ends
      | error own' =>
        rw [verdict, verdict'] at ends
        have names : f own = f' own' := Option.some.inj ends
        have memory : (failure.or (.some own)).map f = (failure'.or (.some own')).map f' := by
          rw [Option.map_or, Option.map_or, remembered, Option.map_some, Option.map_some, names]
        have filled : f ((failure.or (.some own)).getD nothing) =
            f' ((failure'.or (.some own')).getD nothing') := by
          cases failure <;> cases failure' <;> simp_all
        obtain ⟨rest, restEnds⟩ := ih each.2 memory fun _ => filled
        rw [first_cons_error verdict, first_cons_error verdict']
        exact ⟨by rw [events, rest], restEnds⟩

end Attempts
