import Mathlib.Data.List.Basic
import Mathlib.Tactic.Common

/-!
# Choosing from a list in its order

Two ways to choose that look at the order of a list. `accepts` commits to the first element that
passes a test and only then asks whether that one is good; `Alike` is exactly when the order does
not matter to it. `pick` takes the first element that is valid, else the first that lasts longest;
both are the first element of the highest `rank`, so an element first in the order among those of
its rank is the one picked.
-/

namespace Choice

variable {α : Type}

/-! ## The first that passes -/

section

variable {passes good : α → Bool} {l : List α}

/-- The first element that passes is good. -/
def accepts (passes good : α → Bool) (l : List α) : Bool := (l.find? passes).any good

/-- The elements that pass are all good, or none of them is. -/
def Alike (passes good : α → Bool) (l : List α) : Prop :=
  (∀ a ∈ l, passes a = true → good a = true) ∨ ∀ a ∈ l, passes a = true → good a = false

theorem accepts_eq_true_iff :
    accepts passes good l = true ↔ ∃ a, l.find? passes = some a ∧ good a = true := by
  simp [accepts, Option.any_eq_true]

theorem exists_of_accepts (h : accepts passes good l = true) :
    ∃ a ∈ l, passes a = true ∧ good a = true := by
  obtain ⟨a, found, ok⟩ := accepts_eq_true_iff.mp h
  exact ⟨a, List.mem_of_find?_eq_some found, List.find?_some found, ok⟩

theorem accepts_cons_of_passes {a : α} (h : passes a = true) :
    accepts passes good (a :: l) = good a := by
  simp [accepts, h]

/-- When those that pass are alike, the first one speaks for all. -/
theorem Alike.accepts_iff (alike : Alike passes good l) :
    accepts passes good l = true ↔ ∃ a ∈ l, passes a = true ∧ good a = true := by
  refine ⟨exists_of_accepts, ?_⟩
  rintro ⟨a, mem, pass, ok⟩
  obtain ⟨b, found⟩ := Option.isSome_iff_exists.mp (List.find?_isSome.mpr ⟨a, mem, pass⟩)
  have first := alike.resolve_right fun none => by
    rw [none a mem pass] at ok
    cases ok
  exact accepts_eq_true_iff.mpr
    ⟨b, found, first b (List.mem_of_find?_eq_some found) (List.find?_some found)⟩

theorem Alike.congr {l' : List α} (same : ∀ a, a ∈ l' ↔ a ∈ l) (alike : Alike passes good l) :
    Alike passes good l' := by
  simpa only [Alike, same] using alike

/-- Two that are not alike: whichever comes first decides. -/
theorem alike_of_first_free
    (h : ∀ a ∈ l, accepts passes good (a :: l) = true ↔ ∃ b ∈ l, passes b = true ∧ good b = true) :
    Alike passes good l := by
  by_cases some : ∃ b ∈ l, passes b = true ∧ good b = true
  · refine .inl fun a mem pass => ?_
    have first := (h a mem).mpr some
    rwa [accepts_cons_of_passes pass] at first
  · refine .inr fun a mem pass => ?_
    cases ok : good a with
    | false => rfl
    | true => exact absurd ⟨a, mem, pass, ok⟩ some

end

/-! ## The first that is valid, else the one that lasts longest -/

section

variable (valid : α → Bool) (expiry : α → Int)

/-- The first of those that expire last. -/
def latest : List α → Option α
  | [] => none
  | a :: l =>
    match latest l with
    | none => some a
    | some b => if expiry a < expiry b then some b else some a

/-- The first valid element, else the first of those that expire last. -/
def pick (l : List α) : Option α := (l.find? valid).or (latest expiry l)

/-- How `pick` ranks an element. -/
inductive Rank
  | expires (time : Int)
  | valid
deriving DecidableEq

/-- The valid rank above the rest, and these by their expiry. -/
def Rank.atMost : Rank → Rank → Bool
  | _, .valid => true
  | .valid, .expires _ => false
  | .expires time, .expires time' => time ≤ time'

instance : LE Rank := ⟨fun a b => a.atMost b = true⟩

instance (a b : Rank) : Decidable (a ≤ b) := inferInstanceAs (Decidable (_ = true))

def rank (a : α) : Rank := if valid a then .valid else .expires (expiry a)

variable {valid expiry} {l : List α}

theorem Rank.le_valid (a : Rank) : a ≤ .valid := by
  cases a <;> rfl

theorem Rank.not_valid_le {time : Int} : ¬ Rank.valid ≤ .expires time := Bool.false_ne_true

theorem Rank.expires_le {time time' : Int} : Rank.expires time ≤ .expires time' ↔ time ≤ time' :=
  decide_eq_true_iff

theorem rank_of_valid {a : α} (h : valid a = true) : rank valid expiry a = .valid := if_pos h

theorem rank_of_not_valid {a : α} (h : valid a = false) :
    rank valid expiry a = .expires (expiry a) := by
  simp [rank, h]

theorem latest_eq_none_iff : latest expiry l = none ↔ l = [] := by
  cases l with
  | nil => simp [latest]
  | cons a l =>
    unfold latest
    split
    · simp
    · split <;> simp

theorem latest_cons {a c : α} (h : latest expiry (a :: l) = some c) :
    (c = a ∧ ∀ b, latest expiry l = some b → expiry b ≤ expiry a) ∨
      latest expiry l = some c ∧ expiry a < expiry c := by
  unfold latest at h
  split at h
  · next none =>
    obtain rfl := Option.some.inj h
    exact .inl ⟨rfl, by simp [none]⟩
  · next b found =>
    split at h
    · next less =>
      obtain rfl := Option.some.inj h
      exact .inr ⟨found, less⟩
    · next not =>
      obtain rfl := Option.some.inj h
      refine .inl ⟨rfl, fun b' found' => ?_⟩
      obtain rfl := Option.some.inj (found.symm.trans found')
      exact Int.not_lt.mp not

theorem latest_mem {a : α} (h : latest expiry l = some a) : a ∈ l := by
  induction l with
  | nil => cases h
  | cons b l ih =>
    obtain ⟨rfl, -⟩ | ⟨found, -⟩ := latest_cons h
    · exact List.mem_cons_self
    · exact List.mem_cons_of_mem b (ih found)

theorem le_of_latest {a b : α} (h : latest expiry l = some a) (mem : b ∈ l) :
    expiry b ≤ expiry a := by
  induction l generalizing a with
  | nil => cases h
  | cons c l ih =>
    obtain ⟨rfl, low⟩ | ⟨found, less⟩ := latest_cons h
    · obtain rfl | mem := List.mem_cons.mp mem
      · exact Int.le_refl _
      · cases last : latest expiry l with
        | none =>
          rw [latest_eq_none_iff.mp last] at mem
          cases mem
        | some d => exact Int.le_trans (ih last mem) (low d last)
    · obtain rfl | mem := List.mem_cons.mp mem
      · exact Int.le_of_lt less
      · exact ih found mem

/-- In a list ordered by a relation, the latest comes before whatever lasts as long. -/
theorem latest_before {before : α → α → Prop} {a b : α} (sorted : l.Pairwise before)
    (h : latest expiry l = some a) (mem : b ∈ l) (late : expiry a ≤ expiry b) :
    a = b ∨ before a b := by
  induction l with
  | nil => cases h
  | cons c l ih =>
    obtain ⟨first, rest⟩ := List.pairwise_cons.mp sorted
    obtain ⟨rfl, -⟩ | ⟨found, less⟩ := latest_cons h
    · obtain rfl | mem := List.mem_cons.mp mem
      · exact .inl rfl
      · exact .inr (first b mem)
    · obtain rfl | mem := List.mem_cons.mp mem
      · omega
      · exact ih rest found mem

theorem pick_mem {a : α} (h : pick valid expiry l = some a) : a ∈ l := by
  rcases Option.or_eq_some_iff.mp h with found | ⟨-, last⟩
  · exact List.mem_of_find?_eq_some found
  · exact latest_mem last

theorem pick_eq_none_iff : pick valid expiry l = none ↔ l = [] := by
  unfold pick
  rw [Option.or_eq_none_iff, latest_eq_none_iff]
  constructor
  · exact And.right
  · rintro rfl
    exact ⟨rfl, rfl⟩

/-- Nothing in the list ranks above what is picked. -/
theorem rank_le_of_pick {a b : α} (h : pick valid expiry l = some a) (mem : b ∈ l) :
    rank valid expiry b ≤ rank valid expiry a := by
  rcases Option.or_eq_some_iff.mp h with found | ⟨none, last⟩
  · rw [rank_of_valid (List.find?_some found)]
    exact Rank.le_valid _
  · have invalid : ∀ c ∈ l, valid c = false := by
      simpa using List.find?_eq_none.mp none
    rw [rank_of_not_valid (invalid b mem), rank_of_not_valid (invalid a (latest_mem last))]
    exact Rank.expires_le.mpr (le_of_latest last mem)

/-- In a list ordered by a relation, what is picked comes before whatever ranks as high. -/
theorem pick_before {before : α → α → Prop} {a b : α} (sorted : l.Pairwise before)
    (h : pick valid expiry l = some a) (mem : b ∈ l)
    (high : rank valid expiry a ≤ rank valid expiry b) : a = b ∨ before a b := by
  rcases Option.or_eq_some_iff.mp h with found | ⟨none, last⟩
  · have validB : valid b = true := by
      by_contra invalid
      rw [rank_of_valid (List.find?_some found),
        rank_of_not_valid (Bool.eq_false_iff.mpr invalid)] at high
      exact Rank.not_valid_le high
    obtain ⟨-, front, back, rfl, invalid⟩ := List.find?_eq_some_iff_append.mp found
    rcases List.mem_append.mp mem with inFront | inBack
    · have := invalid b inFront
      simp [validB] at this
    · rcases List.mem_cons.mp inBack with rfl | later
      · exact .inl rfl
      · exact .inr ((List.pairwise_cons.mp (List.pairwise_append.mp sorted).2.1).1 b later)
  · have invalid : ∀ c ∈ l, valid c = false := by
      simpa using List.find?_eq_none.mp none
    rw [rank_of_not_valid (invalid a (latest_mem last)), rank_of_not_valid (invalid b mem)]
      at high
    exact latest_before sorted last mem (Rank.expires_le.mp high)

end

end Choice
