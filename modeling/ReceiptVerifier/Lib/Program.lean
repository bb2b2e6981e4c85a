import Mathlib.Data.Nat.Find
import Mathlib.Tactic.Common

/-!
# Programs that ask

A program is a tree of requests: each asks the world outside for a response and goes on from
whatever came. Nothing is assumed of the responses. The exchanges so far are the program's trace;
`Program.Obeys` says that every request is allowed by the trace before it and that every way to end
meets a postcondition of the whole trace. `Program.Within` bounds how many requests it makes.
-/

/-- A computation that ends, or asks and goes on from the response. -/
inductive Program (Request : Type) (Response : Request → Type) (α : Type)
  | done (a : α)
  | ask (request : Request) (next : Response request → Program Request Response α)

/-- A request with the response it got. -/
structure Exchange (Request : Type) (Response : Request → Type) where
  request : Request
  response : Response request

instance {Request : Type} {Response : Request → Type} [DecidableEq Request]
    [(r : Request) → DecidableEq (Response r)] : DecidableEq (Exchange Request Response)
  | ⟨r, response⟩, ⟨r', response'⟩ =>
    if same : r = r' then decidable_of_iff (same ▸ response = response') (by subst same; simp)
    else isFalse fun equal => same (Exchange.mk.inj equal).1

namespace Program

variable {Request : Type} {Response : Request → Type} {α β : Type}

def bind (p : Program Request Response α) (f : α → Program Request Response β) :
    Program Request Response β :=
  match p with
  | .done a => f a
  | .ask request next => .ask request fun response => (next response).bind f

instance : Monad (Program Request Response) where
  pure := .done
  bind := bind

/-- One request. -/
def request (r : Request) : Program Request Response (Response r) := .ask r .done

/-- What is left of a program after a trace. -/
inductive Steps : Program Request Response α → List (Exchange Request Response) →
    Program Request Response α → Prop
  | refl (p) : Steps p [] p
  | snoc {p r next trace} (response : Response r) (steps : Steps p trace (.ask r next)) :
      Steps p (trace ++ [⟨r, response⟩]) (next response)

theorem Steps.cons {r : Request} {next : Response r → Program Request Response α}
    {response : Response r} {trace : List (Exchange Request Response)}
    {q : Program Request Response α} (steps : (next response).Steps trace q) :
    (Program.ask r next).Steps (⟨r, response⟩ :: trace) q := by
  generalize start : next response = p at steps
  induction steps with
  | refl =>
    subst start
    exact .snoc response (.refl _)
  | snoc later _ ih => exact .snoc later ih

section Obeys

variable (allowed : List (Exchange Request Response) → Request → Prop)

/-- From a trace on, every request is allowed, and every end meets the postcondition. -/
def Obeys (post : List (Exchange Request Response) → α → Prop)
    (trace : List (Exchange Request Response)) : Program Request Response α → Prop
  | .done a => post trace a
  | .ask r next =>
    allowed trace r ∧ ∀ response, (next response).Obeys post (trace ++ [⟨r, response⟩])

variable {allowed} {post : List (Exchange Request Response) → α → Prop}
  {trace : List (Exchange Request Response)}

@[simp] theorem obeys_pure (a : α) :
    Obeys allowed post trace (pure a : Program Request Response α) ↔ post trace a := Iff.rfl

@[simp] theorem obeys_request {r : Request} {post : _ → Response r → Prop} :
    Obeys allowed post trace (request r) ↔
      allowed trace r ∧ ∀ response, post (trace ++ [⟨r, response⟩]) response := Iff.rfl

/-- A sequence obeys when its first part ends where the second part obeys. -/
@[simp] theorem obeys_bind {p : Program Request Response β}
    {f : β → Program Request Response α} :
    Obeys allowed post trace (p >>= f) ↔
      Obeys allowed (fun trace b => (f b).Obeys allowed post trace) trace p := by
  change Obeys allowed post trace (p.bind f) ↔ _
  induction p generalizing trace with
  | done b => rfl
  | ask r next ih =>
    simp only [bind, Obeys]
    exact and_congr_right fun _ => forall_congr' fun response => ih response

theorem Obeys.mono {post' : List (Exchange Request Response) → α → Prop}
    {p : Program Request Response α} (weaker : ∀ trace a, post trace a → post' trace a)
    (obeys : p.Obeys allowed post trace) : p.Obeys allowed post' trace := by
  induction p generalizing trace with
  | done a => exact weaker trace a obeys
  | ask r next ih => exact ⟨obeys.1, fun response => ih response (obeys.2 response)⟩

/-- A trace only grows, so what every longer trace meets is met at the end. -/
theorem obeys_of_prefix {p : Program Request Response α}
    (ends : ∀ longer a, trace <+: longer → post longer a) :
    p.Obeys (fun _ _ => True) post trace := by
  induction p generalizing trace with
  | done a => exact ends trace a List.prefix_rfl
  | ask r next ih =>
    refine ⟨trivial, fun response => ih response fun longer a grown => ?_⟩
    exact ends longer a ((List.prefix_append _ _).trans grown)

/-- A program meets two postconditions at once. -/
theorem Obeys.and {allowed' : List (Exchange Request Response) → Request → Prop}
    {post' : List (Exchange Request Response) → α → Prop} {p : Program Request Response α}
    (obeys : p.Obeys allowed post trace) (obeys' : p.Obeys allowed' post' trace) :
    p.Obeys allowed (fun trace a => post trace a ∧ post' trace a) trace := by
  induction p generalizing trace with
  | done a => exact ⟨obeys, obeys'⟩
  | ask r next ih =>
    exact ⟨obeys.1, fun response => ih response (obeys.2 response) (obeys'.2 response)⟩

/-- An end is one the program comes to. -/
theorem Obeys.steps {p : Program Request Response α} (obeys : p.Obeys allowed post trace) :
    p.Obeys allowed
      (fun longer a => post longer a ∧ ∃ own, longer = trace ++ own ∧ p.Steps own (.done a))
      trace := by
  induction p generalizing trace with
  | done a => exact ⟨obeys, [], (List.append_nil trace).symm, .refl _⟩
  | ask r next ih =>
    refine ⟨obeys.1, fun response => (ih response (obeys.2 response)).mono ?_⟩
    rintro longer a ⟨met, own, rfl, steps⟩
    exact ⟨met, ⟨r, response⟩ :: own, by simp, steps.cons⟩

/-- What is left of an obedient program obeys from its trace on. -/
theorem Steps.obeys {p q : Program Request Response α} (steps : p.Steps trace q)
    (obeys : p.Obeys allowed post []) : q.Obeys allowed post trace := by
  induction steps with
  | refl => exact obeys
  | snoc response _ ih => exact ih.2 response

end Obeys

/-! ## Answering -/

/-- The trace of a program whose requests get these answers in turn, and what is left of it. -/
def feed : Program Request Response α → List ((r : Request) → Response r) →
    List (Exchange Request Response) × Program Request Response α
  | p, [] => ([], p)
  | .done a, _ :: _ => ([], .done a)
  | .ask r next, answers :: more =>
    let (trace, rest) := (next (answers r)).feed more
    (⟨r, answers r⟩ :: trace, rest)

theorem steps_feed (p : Program Request Response α) (answers : List ((r : Request) → Response r)) :
    p.Steps (p.feed answers).1 (p.feed answers).2 := by
  induction answers generalizing p with
  | nil => cases p <;> exact .refl _
  | cons first more ih =>
    cases p with
    | done a => exact .refl _
    | ask r next => exact .cons (ih (next (first r)))

/-! ## How many requests -/

/-- However it is answered, a program ends after no more requests than this. -/
def Within : Nat → Program Request Response α → Prop
  | _, .done _ => True
  | 0, .ask _ _ => False
  | n + 1, .ask _ next => ∀ response, (next response).Within n

theorem within_pure (n : Nat) (a : α) : (pure a : Program Request Response α).Within n := by
  cases n <;> trivial

theorem Within.mono {n m : Nat} {p : Program Request Response α} (within : p.Within n)
    (le : n ≤ m) : p.Within m := by
  induction p generalizing n m with
  | done a => exact within_pure m a
  | ask r next ih =>
    cases n with
    | zero => exact within.elim
    | succ n =>
      obtain ⟨m, rfl⟩ := Nat.exists_eq_add_of_le' (Nat.le_trans (Nat.le_add_left 1 n) le)
      exact fun response => ih response (within response) (Nat.le_of_succ_le_succ le)

/-- However a request is answered, fewer are left. -/
theorem Within.next {n : Nat} {r : Request} {next : Response r → Program Request Response α}
    (within : (Program.ask r next).Within n) (response : Response r) :
    (next response).Within (n - 1) := by
  cases n with
  | zero => exact within.elim
  | succ n => exact within response

theorem Within.bind {n m : Nat} {p : Program Request Response β}
    {f : β → Program Request Response α} (first : p.Within n) (rest : ∀ b, (f b).Within m) :
    (p >>= f).Within (n + m) := by
  change (p.bind f).Within (n + m)
  induction p generalizing n with
  | done b => exact (rest b).mono (Nat.le_add_left m n)
  | ask r next ih =>
    cases n with
    | zero => exact first.elim
    | succ n =>
      rw [Nat.add_right_comm]
      exact fun response => ih response (first response)

open Classical in
/-- The most requests until a program ends, where there is a most. -/
noncomputable def height (p : Program Request Response α) : Nat :=
  if ends : ∃ n, p.Within n then Nat.find ends else 0

theorem height_le {n : Nat} {p : Program Request Response α} (within : p.Within n) :
    p.height ≤ n := by
  classical
  rw [height, dif_pos ⟨n, within⟩]
  exact Nat.find_min' _ within

theorem within_height {n : Nat} {p : Program Request Response α} (within : p.Within n) :
    p.Within p.height := by
  classical
  have ends : ∃ n, p.Within n := ⟨n, within⟩
  rw [height, dif_pos ends]
  exact Nat.find_spec ends

/-- A request lowers it. -/
theorem height_lt {n : Nat} {r : Request} {next : Response r → Program Request Response α}
    (within : (Program.ask r next).Within n) (response : Response r) :
    (next response).height < (Program.ask r next).height := by
  have least := within_height within
  cases height : (Program.ask r next).height with
  | zero =>
    rw [height] at least
    exact least.elim
  | succ k =>
    rw [height] at least
    exact Nat.lt_succ_of_le (height_le (least response))

end Program
