import Mathlib.Data.List.Basic
import Mathlib.Tactic.Common

/-!
# Computations that leave a trace

`Traced ε α` is a value beside the events that happened while it was computed, in order. The list
searches here stop where the short-circuiting loops they model stop, so that what was not tried
leaves no event.

`Guarded` is the one way to speak about a whole trace: every event is allowed by what came before
it. A guard never looks at a shorter past than it is given, so guarded runs compose.
-/

/-- A value, and the events on the way to it. -/
structure Traced (ε α : Type) where
  value : α
  events : List ε

namespace Traced

variable {ε α β : Type}

instance : Monad (Traced ε) where
  pure a := ⟨a, []⟩
  bind x f := ⟨(f x.value).value, x.events ++ (f x.value).events⟩

@[simp] theorem value_pure (a : α) : (pure a : Traced ε α).value = a := rfl

@[simp] theorem events_pure (a : α) : (pure a : Traced ε α).events = [] := rfl

@[simp] theorem value_bind (x : Traced ε α) (f : α → Traced ε β) :
    (x >>= f).value = (f x.value).value := rfl

@[simp] theorem events_bind (x : Traced ε α) (f : α → Traced ε β) :
    (x >>= f).events = x.events ++ (f x.value).events := rfl

/-- Two ways to end leave the same trace. -/
@[simp] theorem events_bind_ite (x : Traced ε Bool) (a b : α) :
    (x >>= fun passed => if passed then pure a else pure b).events = x.events := by
  rw [events_bind]
  cases x.value <;> exact List.append_nil x.events

/-- One event. -/
def emit (e : ε) : Traced ε Unit := ⟨(), [e]⟩

@[simp] theorem events_emit (e : ε) : (emit e).events = [e] := rfl

/-- Whether a test passes for some element, trying them in order until one does. -/
def any (test : α → Traced ε Bool) : List α → Traced ε Bool
  | [] => pure false
  | a :: l => do
    if ← test a then pure true
    else any test l

/-- The elements that pass a test and those that do not, each tried once, in order. -/
def partition (test : α → Traced ε Bool) : List α → Traced ε (List α × List α)
  | [] => pure ([], [])
  | a :: l => do
    let passed ← test a
    let (yes, no) ← partition test l
    pure (if passed then (a :: yes, no) else (yes, a :: no))

/-- The elements that pass a test, each tried once, in order. -/
def filter (test : α → Traced ε Bool) (l : List α) : Traced ε (List α) := do
  let (yes, _) ← partition test l
  pure yes

@[simp] theorem value_any (test : α → Traced ε Bool) (l : List α) :
    (any test l).value = l.any fun a => (test a).value := by
  induction l with
  | nil => rfl
  | cons a l ih => cases h : (test a).value <;> simp [any, h, ih]

@[simp] theorem value_partition (test : α → Traced ε Bool) (l : List α) :
    (partition test l).value =
      (l.filter fun a => (test a).value, l.filter fun a => !(test a).value) := by
  induction l with
  | nil => rfl
  | cons a l ih => cases h : (test a).value <;> simp [partition, h, ih]

@[simp] theorem value_filter (test : α → Traced ε Bool) (l : List α) :
    (filter test l).value = l.filter fun a => (test a).value := by
  simp [filter]

/-! ## Guards -/

/-- What may happen after what. Knowing more of the past never forbids an event. -/
structure Guard (ε : Type) where
  allows : List ε → ε → Prop
  mono : ∀ {past more e}, allows past e → allows (more ++ past) e

/-- Every event of a run that follows `front` is allowed by what came before it. -/
def GuardedAfter (g : Guard ε) (front : List ε) (x : Traced ε α) : Prop :=
  ∀ past e rest, x.events = past ++ e :: rest → g.allows (front ++ past) e

/-- Every event of a run is allowed by the events before it. -/
def Guarded (g : Guard ε) (x : Traced ε α) : Prop := GuardedAfter g [] x

variable {g : Guard ε} {front : List ε}

theorem Guarded.after {x : Traced ε α} (h : Guarded g x) : GuardedAfter g front x := by
  intro past e rest split
  exact g.mono (h past e rest split)

theorem guardedAfter_pure (a : α) : GuardedAfter g front (pure a : Traced ε α) := by
  intro past e rest split
  cases past <;> cases split

theorem guardedAfter_emit {e : ε} (h : g.allows front e) : GuardedAfter g front (emit e) := by
  intro past e' rest split
  cases past with
  | nil =>
    obtain ⟨rfl, _⟩ := List.cons.inj split
    rwa [List.append_nil]
  | cons a past => cases past <;> cases split

/-- The second run may rely on the trace of the first. -/
theorem guardedAfter_bind {x : Traced ε α} {f : α → Traced ε β} (h : GuardedAfter g front x)
    (h' : GuardedAfter g (front ++ x.events) (f x.value)) : GuardedAfter g front (x >>= f) := by
  intro past e rest split
  rw [events_bind] at split
  rcases List.append_eq_append_iff.mp split with ⟨more, rfl, second⟩ | ⟨more, first, second⟩
  · rw [← List.append_assoc]
    exact h' more e rest second
  · cases more with
    | nil =>
      have := h' [] e rest second.symm
      rwa [List.append_nil, first, List.append_nil] at this
    | cons e' more =>
      obtain ⟨rfl, _⟩ := List.cons.inj second
      exact h past e more first

theorem guarded_pure (a : α) : Guarded g (pure a : Traced ε α) := guardedAfter_pure a

theorem guarded_emit {e : ε} (h : g.allows [] e) : Guarded g (emit e) := guardedAfter_emit h

theorem guarded_bind {x : Traced ε α} {f : α → Traced ε β} (h : Guarded g x)
    (h' : Guarded g (f x.value)) : Guarded g (x >>= f) :=
  guardedAfter_bind h h'.after

theorem guarded_any {test : α → Traced ε Bool} {l : List α} (h : ∀ a ∈ l, Guarded g (test a)) :
    Guarded g (any test l) := by
  induction l with
  | nil => exact guarded_pure false
  | cons a l ih =>
    rw [List.forall_mem_cons] at h
    refine guarded_bind h.1 ?_
    cases (test a).value with
    | true => exact guarded_pure true
    | false => exact ih h.2

theorem guarded_partition {test : α → Traced ε Bool} {l : List α}
    (h : ∀ a ∈ l, Guarded g (test a)) : Guarded g (partition test l) := by
  induction l with
  | nil => exact guarded_pure _
  | cons a l ih =>
    rw [List.forall_mem_cons] at h
    refine guarded_bind h.1 (guarded_bind (ih h.2) ?_)
    exact guarded_pure _

theorem guarded_filter {test : α → Traced ε Bool} {l : List α}
    (h : ∀ a ∈ l, Guarded g (test a)) : Guarded g (filter test l) :=
  guarded_bind (guarded_partition h) (guarded_pure _)

end Traced
