import Mathlib.Algebra.Ring.Int.Defs
import Mathlib.Algebra.Ring.Nat
import Mathlib.Data.List.Basic
import Mathlib.Order.Interval.Finset.Nat
import Mathlib.Tactic.Common

/-!
# Subslices of a list

A `Subslice` is some items beside the position they start at; `Of` ties one to the list it was cut
from. `Ascend lo hi` says of several that each starts where the one before it stopped or later, all
between two positions: such subslices do not overlap, and together they are no longer than the room
between the positions.
-/

/-- Items, and where they start. -/
structure Subslice (α : Type*) where
  start : Nat
  items : List α
deriving DecidableEq

namespace Subslice

variable {α : Type*}

/-- The position after the last item. -/
def stop (s : Subslice α) : Nat := s.start + s.items.length

def positions (s : Subslice α) : Finset Nat := Finset.Ico s.start s.stop

/-! ## The list a subslice was cut from -/

/-- The items are the list's own at the subslice's positions. -/
def Of (l : List α) (s : Subslice α) : Prop :=
  ∃ before after, before.length = s.start ∧ l = before ++ (s.items ++ after)

theorem of_self (l : List α) : Of l ⟨0, l⟩ :=
  ⟨[], [], rfl, (List.append_nil l).symm⟩

theorem Of.initial {l items items' : List α} {start : Nat} (of : Of l ⟨start, items⟩)
    (part : items' <+: items) : Of l ⟨start, items'⟩ := by
  obtain ⟨before, after, at_, rfl⟩ := of
  obtain ⟨more, rfl⟩ := part
  exact ⟨before, more ++ after, at_, by rw [List.append_assoc]⟩

theorem Of.drop {l items : List α} {start : Nat} (of : Of l ⟨start, items⟩) {n : Nat}
    (within : n ≤ items.length) : Of l ⟨start + n, items.drop n⟩ := by
  obtain ⟨before, after, at_, rfl⟩ := of
  refine ⟨before ++ items.take n, after, ?_, ?_⟩
  · rw [List.length_append, at_, List.length_take, Nat.min_eq_left within]
  · rw [List.append_assoc, ← List.append_assoc (items.take n), List.take_append_drop]

/-! ## One after another -/

/-- Each starts where the one before it stopped, or later, from `lo` to `hi`. -/
def Ascend (lo hi : Nat) : List (Subslice α) → Prop
  | [] => lo ≤ hi
  | s :: rest => lo ≤ s.start ∧ Ascend s.stop hi rest

variable {lo hi : Nat} {slices : List (Subslice α)}

theorem Ascend.le (ascend : Ascend lo hi slices) : lo ≤ hi := by
  induction slices generalizing lo with
  | nil => exact ascend
  | cons s rest ih =>
    obtain ⟨first, later⟩ := ascend
    have := ih later
    simp only [stop] at this
    omega

theorem Ascend.mono {lo' hi' : Nat} (lower : lo' ≤ lo) (upper : hi ≤ hi')
    (ascend : Ascend lo hi slices) : Ascend lo' hi' slices := by
  induction slices generalizing lo lo' with
  | nil => exact Nat.le_trans (Nat.le_trans lower ascend) upper
  | cons s rest ih => exact ⟨Nat.le_trans lower ascend.1, ih (Nat.le_refl _) ascend.2⟩

theorem Ascend.append {mid : Nat} {later : List (Subslice α)} (first : Ascend lo mid slices)
    (second : Ascend mid hi later) : Ascend lo hi (slices ++ later) := by
  induction slices generalizing lo with
  | nil => exact second.mono first (Nat.le_refl _)
  | cons s rest ih => exact ⟨first.1, ih first.2⟩

theorem ascend_singleton {s : Subslice α} : Ascend lo hi [s] ↔ lo ≤ s.start ∧ s.stop ≤ hi := Iff.rfl

theorem Ascend.bounds (ascend : Ascend lo hi slices) :
    ∀ s ∈ slices, lo ≤ s.start ∧ s.stop ≤ hi := by
  induction slices generalizing lo with
  | nil => exact fun s mem => absurd mem List.not_mem_nil
  | cons s rest ih =>
    obtain ⟨first, later⟩ := ascend
    refine List.forall_mem_cons.mpr ⟨⟨first, later.le⟩, fun s' mem => ?_⟩
    obtain ⟨start, stops⟩ := ih later s' mem
    simp only [stop] at start stops ⊢
    omega

/-- Subslices one after another do not overlap. -/
theorem Ascend.disjoint (ascend : Ascend lo hi slices) :
    slices.Pairwise fun s s' => Disjoint s.positions s'.positions := by
  induction slices generalizing lo with
  | nil => exact .nil
  | cons s rest ih =>
    refine List.pairwise_cons.mpr ⟨fun s' mem => ?_, ih ascend.2⟩
    have after : s.stop ≤ s'.start := (ascend.2.bounds s' mem).1
    exact Finset.disjoint_left.mpr fun i inS inS' => absurd
      ((Finset.mem_Ico.mp inS).2) (Nat.not_lt.mpr (Nat.le_trans after (Finset.mem_Ico.mp inS').1))

/-- Their lengths fit between the positions. -/
theorem Ascend.length_sum_le (ascend : Ascend lo hi slices) :
    lo + (slices.map fun s => s.items.length).sum ≤ hi := by
  induction slices generalizing lo with
  | nil => exact ascend
  | cons s rest ih =>
    obtain ⟨first, later⟩ := ascend
    have := ih later
    simp only [stop, List.map_cons, List.sum_cons] at this ⊢
    omega

/-- None stands twice. -/
theorem Ascend.nodup (ascend : Ascend lo hi slices) (nonempty : ∀ s ∈ slices, s.items ≠ []) :
    slices.Nodup := by
  induction slices generalizing lo with
  | nil => exact .nil
  | cons s rest ih =>
    obtain ⟨own, later⟩ := List.forall_mem_cons.mp nonempty
    refine List.nodup_cons.mpr ⟨fun mem => ?_, ih ascend.2 later⟩
    have after := (ascend.2.bounds s mem).1
    have := List.length_pos_iff.mpr own
    simp only [stop] at after
    omega

end Subslice
