import ReceiptVerifier.Lib.Program

/-!
# Programs in a world

A world has a state and says which responses a request may get in it, and how they change it. A
trace happens in a world when every exchange of it does, one state after the other. `Program.Meets`
says that, however such a world answers, every way a program ends meets a postcondition of its
result and of the state it leaves.
-/

/-- From one state of a world to another, by an exchange. -/
abbrev World (σ Request : Type) (Response : Request → Type) :=
  σ → (r : Request) → Response r → σ → Prop

variable {σ Request : Type} {Response : Request → Type} {α β : Type}

namespace World

/-- Every exchange of a trace happens, one state after the other. -/
inductive Follows (world : World σ Request Response) :
    σ → List (Exchange Request Response) → σ → Prop
  | nil (s) : Follows world s [] s
  | cons {s s' s'' e trace} (now : world s e.request e.response s')
      (later : Follows world s' trace s'') : Follows world s (e :: trace) s''

variable {world world' : World σ Request Response} {s s' s'' : σ}
  {trace trace' : List (Exchange Request Response)}

@[simp] theorem follows_nil : world.Follows s [] s' ↔ s' = s := by
  constructor
  · rintro ⟨⟩
    rfl
  · rintro rfl
    exact .nil s'

@[simp] theorem follows_cons {e : Exchange Request Response} :
    world.Follows s (e :: trace) s'' ↔
      ∃ s', world s e.request e.response s' ∧ world.Follows s' trace s'' := by
  constructor
  · rintro ⟨⟩
    exact ⟨_, ‹_›, ‹_›⟩
  · rintro ⟨s', now, later⟩
    exact .cons now later

@[simp] theorem follows_append :
    world.Follows s (trace ++ trace') s'' ↔
      ∃ s', world.Follows s trace s' ∧ world.Follows s' trace' s'' := by
  induction trace generalizing s with
  | nil => simp
  | cons e trace ih =>
    simp only [List.cons_append, follows_cons, ih]
    constructor
    · rintro ⟨s₁, now, s₂, first, rest⟩
      exact ⟨s₂, ⟨s₁, now, first⟩, rest⟩
    · rintro ⟨s₂, ⟨s₁, now, first⟩, rest⟩
      exact ⟨s₁, now, s₂, first, rest⟩

/-- What happens in a world happens in one that allows each of its exchanges. -/
theorem Follows.mono
    (wider : ∀ s s', ∀ e ∈ trace, world s e.request e.response s' →
      world' s e.request e.response s')
    (follows : world.Follows s trace s') : world'.Follows s trace s' := by
  induction follows with
  | nil s => exact .nil s
  | cons now later ih =>
    exact .cons (wider _ _ _ List.mem_cons_self now)
      (ih fun s s' e mem => wider s s' e (List.mem_cons_of_mem _ mem))

/-- What every exchange keeps, a trace keeps. -/
theorem Follows.invariant {I : σ → Prop}
    (keeps : ∀ s r response s', I s → world s r response s' → I s')
    (follows : world.Follows s trace s') (h : I s) : I s' := by
  induction follows with
  | nil => exact h
  | cons now _ ih => exact ih (keeps _ _ _ _ h now)

end World

namespace Program

/-- From a state on, however the world answers, every end meets the postcondition. -/
def Meets (world : World σ Request Response) (post : σ → α → Prop) (s : σ) :
    Program Request Response α → Prop
  | .done a => post s a
  | .ask r next => ∀ response s', world s r response s' → (next response).Meets world post s'

variable {world : World σ Request Response} {post : σ → α → Prop} {s s' : σ}

@[simp] theorem meets_pure (a : α) :
    Meets world post s (pure a : Program Request Response α) ↔ post s a := Iff.rfl

@[simp] theorem meets_request {r : Request} {post : σ → Response r → Prop} :
    Meets world post s (request r) ↔ ∀ response s', world s r response s' → post s' response :=
  Iff.rfl

/-- A sequence meets a postcondition when its first part ends where the second part meets it. -/
@[simp] theorem meets_bind {p : Program Request Response β} {f : β → Program Request Response α} :
    Meets world post s (p >>= f) ↔ Meets world (fun s b => (f b).Meets world post s) s p := by
  change Meets world post s (p.bind f) ↔ _
  induction p generalizing s with
  | done b => rfl
  | ask r next ih =>
    simp only [bind, Meets]
    exact forall_congr' fun response => forall_congr' fun _ => imp_congr_right fun _ => ih response

theorem Meets.mono {post' : σ → α → Prop} {p : Program Request Response α}
    (weaker : ∀ s a, post s a → post' s a) (meets : p.Meets world post s) :
    p.Meets world post' s := by
  induction p generalizing s with
  | done a => exact weaker s a meets
  | ask r next ih => exact fun response s' now => ih response (meets response s' now)

/-- What is left of a program after a trace of the world meets the postcondition from there. -/
theorem Steps.meets {p q : Program Request Response α} {trace : List (Exchange Request Response)}
    (steps : p.Steps trace q) (meets : p.Meets world post s)
    (follows : world.Follows s trace s') : q.Meets world post s' := by
  induction steps generalizing s' with
  | refl =>
    obtain rfl := World.follows_nil.mp follows
    exact meets
  | snoc response _ ih =>
    obtain ⟨s'', before, last⟩ := World.follows_append.mp follows
    obtain ⟨_, now, rfl⟩ : ∃ s₁, world s'' _ response s₁ ∧ s' = s₁ := by simpa using last
    exact ih before _ _ now

end Program
