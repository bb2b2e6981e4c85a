import Mathlib.Data.List.Basic
import Mathlib.Tactic.Common

/-!
# Order-preserving merges

`Merge l r m` says that `m` is `l` and `r` put together, each keeping its own order. It is how a
list is cut in two by a test, and how elements are slipped into a list at any positions.
-/

/-- `m` holds exactly the elements of `l` and of `r`, each list in its order. -/
inductive Merge {α : Type} : List α → List α → List α → Prop
  | nil : Merge [] [] []
  | left (a : α) {l r m : List α} : Merge l r m → Merge (a :: l) r (a :: m)
  | right (a : α) {l r m : List α} : Merge l r m → Merge l (a :: r) (a :: m)

namespace Merge

variable {α : Type} {l r m : List α}

/-- A test cuts a list into two lists that merge back to it. -/
theorem filter_not (p : α → Bool) (m : List α) :
    Merge (m.filter p) (m.filter fun a => !p a) m := by
  induction m with
  | nil => exact .nil
  | cons a m ih =>
    cases h : p a with
    | true => simpa [h] using ih.left a
    | false => simpa [h] using ih.right a

theorem mem_iff (h : Merge l r m) (a : α) : a ∈ m ↔ a ∈ l ∨ a ∈ r := by
  induction h with
  | nil => simp
  | left b _ ih => simp [ih, or_assoc]
  | right b _ ih => simp [ih, or_left_comm]

/-- A test no element of `l` passes does not see `l`. -/
theorem filter_eq_right {p : α → Bool} (h : Merge l r m) (none : ∀ a ∈ l, p a = false) :
    m.filter p = r.filter p := by
  induction h with
  | nil => rfl
  | left b _ ih =>
    rw [List.forall_mem_cons] at none
    simp [none.1, ih none.2]
  | right b _ ih => simp [List.filter_cons, ih none]

end Merge
