import Mathlib.Data.List.TakeWhile

/-!
# A sliding window

At most `limit` events are admitted in any closed span of time. The times of the latest ones are
kept in order; those older than the span are dropped from the front before each decision. Whatever
was dropped is older than the span, so the kept ones are all that the span before now can hold.
-/

namespace Window

/-- The latest times, without those at the front that are older than the span. -/
def prune (span now : Int) (recent : List Int) : List Int :=
  recent.dropWhile fun t => decide (span < now - t)

/-- The times in a closed window. -/
def within (span start : Int) (times : List Int) : List Int :=
  times.filter fun t => decide (start ≤ t ∧ t ≤ start + span)

/-- What is kept, and what it says of every window, at some time. -/
structure Bounded (span : Int) (limit : Nat) (now : Int) (admitted recent : List Int) : Prop where
  split : ∃ old, admitted = old ++ recent ∧ ∀ t ∈ old, span < now - t
  past : ∀ t ∈ admitted, t ≤ now
  windows : ∀ start, (within span start admitted).length ≤ limit

variable {span now : Int} {limit : Nat} {admitted recent : List Int}

theorem bounded_nil : Bounded span limit now [] [] :=
  ⟨⟨[], rfl, by simp⟩, by simp, by simp [within]⟩

/-- Time goes on, and what is too old is dropped. -/
theorem Bounded.prune (bounded : Bounded span limit now admitted recent) {later : Int}
    (le : now ≤ later) : Bounded span limit later admitted (prune span later recent) := by
  obtain ⟨⟨old, whole, aged⟩, past, windows⟩ := bounded
  refine ⟨⟨old ++ recent.takeWhile fun t => decide (span < later - t), ?_, ?_⟩, ?_, windows⟩
  · rw [Window.prune, List.append_assoc, List.takeWhile_append_dropWhile, whole]
  · refine List.forall_mem_append.mpr ⟨fun t mem => ?_, fun t mem => ?_⟩
    · have := aged t mem
      omega
    · simpa using List.mem_takeWhile_imp mem
  · intro t mem
    have := past t mem
    omega

/-- With room among the kept times, one more is admitted now. -/
theorem Bounded.push (bounded : Bounded span limit now admitted recent)
    (room : recent.length < limit) :
    Bounded span limit now (admitted ++ [now]) (recent ++ [now]) := by
  obtain ⟨⟨old, whole, aged⟩, past, windows⟩ := bounded
  refine ⟨⟨old, by rw [whole, List.append_assoc], aged⟩, ?_, fun start => ?_⟩
  · simpa [or_imp, forall_and] using past
  · by_cases inside : start ≤ now ∧ now ≤ start + span
    · -- whatever is old enough to have been dropped is before this window
      have none : within span start old = [] := by
        refine List.filter_eq_nil_iff.mpr fun t mem => ?_
        have := aged t mem
        simp only [decide_eq_true_eq, not_and]
        omega
      have last : within span start [now] = [now] := by simp [within, inside]
      have few : (within span start recent).length ≤ recent.length := List.length_filter_le _ _
      have parts : within span start (admitted ++ [now]) =
          within span start old ++ within span start recent ++ within span start [now] := by
        rw [whole, within, List.filter_append, List.filter_append]
        rfl
      rw [parts, none, last, List.nil_append, List.length_append, List.length_singleton]
      omega
    · have same : within span start (admitted ++ [now]) = within span start admitted := by
        rw [within, List.filter_append]
        simp [within, inside]
      rw [same]
      exact windows start

end Window
