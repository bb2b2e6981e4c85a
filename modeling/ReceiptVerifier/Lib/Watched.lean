import Mathlib.Data.List.Basic
import Mathlib.Tactic.Common

/-!
# Computations watched step by step

A `Watched σ ν ε α` moves a state `σ`, ends in an `α` or throws an `ε`, and every step that may move
the state leaves a note, so a property of the notes is one of every cut of the run.
`Ended.Meets` speaks of a run from one state: of the value it returns or what it throws, of the
state it leaves and of its notes. The rules are equivalences, one for each way to build a
computation, so that a specification is pushed through a program from its end to its start.
-/

/-- How a computation ended, in which state, and what was noted on the way. -/
structure Ended (σ ν ε α : Type) where
  result : Except ε α
  state : σ
  notes : List ν

namespace Ended

variable {σ ν ε α : Type} {Q Q' : α → σ → List ν → Prop} {E E' : ε → σ → List ν → Prop}
  {past : List ν}

/-- After the notes of the past: a value meets `Q` and what is thrown meets `E`, each with the state
it is left in and all the notes up to there. -/
structure Meets (Q : α → σ → List ν → Prop) (E : ε → σ → List ν → Prop) (past : List ν)
    (run : Ended σ ν ε α) : Prop where
  returned : ∀ a, run.result = .ok a → Q a run.state (past ++ run.notes)
  thrown : ∀ e, run.result = .error e → E e run.state (past ++ run.notes)

theorem Meets.mono {run : Ended σ ν ε α} (meets : run.Meets Q E past)
    (returned : ∀ a s notes, Q a s notes → Q' a s notes)
    (thrown : ∀ e s notes, E e s notes → E' e s notes) : run.Meets Q' E' past where
  returned a eq := returned a _ _ (meets.returned a eq)
  thrown e eq := thrown e _ _ (meets.thrown e eq)

@[simp] theorem meets_ok {a : α} {s : σ} {notes : List ν} :
    (⟨.ok a, s, notes⟩ : Ended σ ν ε α).Meets Q E past ↔ Q a s (past ++ notes) := by
  constructor
  · exact fun meets => meets.returned a rfl
  · intro post
    refine ⟨fun b eq => ?_, fun e eq => (by cases eq)⟩
    cases eq
    exact post

@[simp] theorem meets_error {e : ε} {s : σ} {notes : List ν} :
    (⟨.error e, s, notes⟩ : Ended σ ν ε α).Meets Q E past ↔ E e s (past ++ notes) := by
  constructor
  · exact fun meets => meets.thrown e rfl
  · intro post
    refine ⟨fun b eq => (by cases eq), fun e' eq => ?_⟩
    cases eq
    exact post

end Ended

/-- A computation over a state. -/
def Watched (σ ν ε α : Type) := σ → Ended σ ν ε α

namespace Watched

variable {σ ν ε α β : Type}

protected def bind (x : Watched σ ν ε α) (f : α → Watched σ ν ε β) : Watched σ ν ε β := fun s =>
  match x s with
  | ⟨.ok a, s', notes⟩ => ⟨(f a s').result, (f a s').state, notes ++ (f a s').notes⟩
  | ⟨.error e, s', notes⟩ => ⟨.error e, s', notes⟩

instance : Monad (Watched σ ν ε) where
  pure a s := ⟨.ok a, s, []⟩
  bind := Watched.bind

/-- A value of the state, which stays as it is. -/
def look (f : σ → α) : Watched σ ν ε α := fun s => ⟨.ok (f s), s, []⟩

/-- One step: a value, the state it leads to, and the note of it. -/
def step (f : σ → α × σ × ν) : Watched σ ν ε α := fun s => ⟨.ok (f s).1, (f s).2.1, [(f s).2.2]⟩

/-- The value of an `Except`, or its error thrown. -/
def lift (x : Except ε α) : Watched σ ν ε α := fun s => ⟨x, s, []⟩

def throwIf (c : Prop) [Decidable c] (e : ε) : Watched σ ν ε Unit :=
  lift (if c then .error e else .ok ())

/-- `try x finally cleanup`: what `cleanup` throws takes the place of what `x` came to. -/
def ensuring (x : Watched σ ν ε α) (cleanup : Watched σ ν ε Unit) : Watched σ ν ε α := fun s =>
  match x s with
  | ⟨result, s', notes⟩ =>
    ⟨(cleanup s').result.bind fun _ => result, (cleanup s').state, notes ++ (cleanup s').notes⟩

/-! ## Specifications -/

variable {Q : α → σ → List ν → Prop} {E : ε → σ → List ν → Prop} {s : σ} {past : List ν}

@[simp] theorem meets_pure {a : α} :
    ((pure a : Watched σ ν ε α) s).Meets Q E past ↔ Q a s past := by
  change (⟨.ok a, s, []⟩ : Ended σ ν ε α).Meets Q E past ↔ _
  rw [Ended.meets_ok, List.append_nil]

@[simp] theorem meets_look {f : σ → α} :
    ((look f : Watched σ ν ε α) s).Meets Q E past ↔ Q (f s) s past :=
  meets_pure

@[simp] theorem meets_step {f : σ → α × σ × ν} :
    ((step f : Watched σ ν ε α) s).Meets Q E past ↔
      Q (f s).1 (f s).2.1 (past ++ [(f s).2.2]) :=
  Ended.meets_ok

@[simp] theorem meets_lift {x : Except ε α} :
    ((lift x : Watched σ ν ε α) s).Meets Q E past ↔
      (∀ a, x = .ok a → Q a s past) ∧ ∀ e, x = .error e → E e s past := by
  cases x with
  | ok a => simp [lift]
  | error e => simp [lift]

@[simp] theorem meets_throwIf {c : Prop} [Decidable c] {e : ε} {Q : Unit → σ → List ν → Prop} :
    ((throwIf c e : Watched σ ν ε Unit) s).Meets Q E past ↔
      (c → E e s past) ∧ (¬c → Q () s past) := by
  by_cases h : c
  · simp [throwIf, lift, h]
  · simp [throwIf, lift, h]

/-- A sequence meets a specification when its first part ends where the second part meets it. -/
@[simp] theorem meets_bind {x : Watched σ ν ε β} {f : β → Watched σ ν ε α} :
    ((x >>= f) s).Meets Q E past ↔
      (x s).Meets (fun b s' past' => (f b s').Meets Q E past') E past := by
  change (x.bind f s).Meets Q E past ↔ _
  unfold Watched.bind
  rcases x s with ⟨_ | b, s', notes⟩
  · simp
  · rw [Ended.meets_ok]
    constructor
    · rintro ⟨returned, thrown⟩
      simp only [← List.append_assoc] at returned thrown
      exact ⟨returned, thrown⟩
    · rintro ⟨returned, thrown⟩
      simp only [List.append_assoc] at returned thrown
      exact ⟨returned, thrown⟩

/-- The cleanup starts wherever the computation ended, and what that came to is kept. -/
@[simp] theorem meets_ensuring {x : Watched σ ν ε α} {cleanup : Watched σ ν ε Unit} :
    ((x.ensuring cleanup) s).Meets Q E past ↔
      (x s).Meets (fun a s' past' => (cleanup s').Meets (fun _ => Q a) E past')
        (fun e s' past' => (cleanup s').Meets (fun _ => E e) E past') past := by
  unfold ensuring
  rcases x s with ⟨result, s', notes⟩
  rcases h : cleanup s' with ⟨_ | u, s'', notes'⟩
  · cases result with
    | ok a => simp [h, Except.bind]
    | error e => simp [h, Except.bind]
  · cases result with
    | ok a => simp [h, Except.bind]
    | error e => simp [h, Except.bind]

@[simp] theorem meets_ite {c : Prop} [Decidable c] {x y : Watched σ ν ε α} :
    ((if c then x else y) s).Meets Q E past ↔
      (c → (x s).Meets Q E past) ∧ (¬c → (y s).Meets Q E past) := by
  by_cases h : c
  · simp [h]
  · simp [h]

end Watched
