import Mathlib.Algebra.Ring.Nat
import Mathlib.Tactic.Common

/-!
# Binary numbers and their shortest decimals

A natural number rounded to `p` significant bits, ties to even (`nearest`), and the decimal a
rounded number is written as (`shortest`): of those that round to it, one with the most zeros at its
end, and of these the closest. `IsShortest` says so without the search, and the two agree.
-/

namespace Rounding

/-! ## Rounding -/

/-- The multiple of `u` closest to `n`, of two the even one. -/
def toMultiple (u n : Nat) : Nat :=
  if u < 2 * (n % u) ∨ 2 * (n % u) = u ∧ n / u % 2 = 1 then (n / u + 1) * u else n / u * u

/-- What the last of `p` significant bits weighs. -/
def weight (p n : Nat) : Nat := 2 ^ (n.log2 + 1 - p)

/-- The number of `p` significant bits closest to `n`, ties to even. -/
def nearest (p n : Nat) : Nat := toMultiple (weight p n) n

theorem le_toMultiple (u n : Nat) : n / u * u ≤ toMultiple u n := by
  unfold toMultiple
  split
  · exact Nat.mul_le_mul_right u (Nat.le_succ _)
  · exact Nat.le_refl _

theorem toMultiple_le (u n : Nat) : toMultiple u n ≤ (n / u + 1) * u := by
  unfold toMultiple
  split
  · exact Nat.le_refl _
  · exact Nat.mul_le_mul_right u (Nat.le_succ _)

theorem dvd_toMultiple (u n : Nat) : u ∣ toMultiple u n := by
  unfold toMultiple
  split <;> exact Nat.dvd_mul_left _ _

theorem toMultiple_of_dvd {u n : Nat} (pos : 0 < u) (h : u ∣ n) : toMultiple u n = n := by
  have whole : n % u = 0 := Nat.mod_eq_zero_of_dvd h
  rw [toMultiple, whole, if_neg (by omega), Nat.div_mul_cancel h]

theorem toMultiple_mono {u a b : Nat} (h : a ≤ b) : toMultiple u a ≤ toMultiple u b := by
  have quotients : a / u ≤ b / u := Nat.div_le_div_right h
  rcases Nat.lt_or_eq_of_le quotients with less | same
  · calc toMultiple u a ≤ (a / u + 1) * u := toMultiple_le u a
      _ ≤ b / u * u := Nat.mul_le_mul_right u less
      _ ≤ toMultiple u b := le_toMultiple u b
  · have rests : a % u ≤ b % u := by
      have left := Nat.div_add_mod a u
      have right := Nat.div_add_mod b u
      rw [same] at left
      omega
    unfold toMultiple
    rw [same]
    split
    · rw [if_pos (by omega)]
    · split
      · exact Nat.mul_le_mul_right u (Nat.le_succ _)
      · exact Nat.le_refl _

section

variable {p : Nat}

theorem weight_pos (p n : Nat) : 0 < weight p n := Nat.two_pow_pos _

theorem nearest_zero (p : Nat) : nearest p 0 = 0 :=
  toMultiple_of_dvd (weight_pos p 0) (Nat.dvd_zero _)

/-- Below `2 ^ p` every number has its bits. -/
theorem nearest_of_lt {n : Nat} (h : n < 2 ^ p) : nearest p n = n := by
  rcases Nat.eq_zero_or_pos n with rfl | pos
  · exact nearest_zero p
  · have short : n.log2 < p := (Nat.log2_lt (Nat.ne_of_gt pos)).mpr h
    have one : weight p n = 1 := by
      rw [weight, Nat.sub_eq_zero_of_le short, Nat.pow_zero]
    rw [nearest, one]
    exact toMultiple_of_dvd Nat.one_pos (Nat.one_dvd n)

variable (bits : 0 < p)

include bits

theorem le_nearest {n : Nat} (pos : 0 < n) : 2 ^ n.log2 ≤ nearest p n := by
  have divides : weight p n ∣ 2 ^ n.log2 := Nat.pow_dvd_pow 2 (by omega)
  calc 2 ^ n.log2 = 2 ^ n.log2 / weight p n * weight p n := (Nat.div_mul_cancel divides).symm
    _ ≤ n / weight p n * weight p n :=
      Nat.mul_le_mul_right _ (Nat.div_le_div_right (Nat.log2_self_le (Nat.ne_of_gt pos)))
    _ ≤ nearest p n := le_toMultiple _ _

omit bits in
theorem nearest_le (n : Nat) : nearest p n ≤ 2 ^ (n.log2 + 1) := by
  have divides : weight p n ∣ 2 ^ (n.log2 + 1) := Nat.pow_dvd_pow 2 (Nat.sub_le _ _)
  have below : n / weight p n < 2 ^ (n.log2 + 1) / weight p n :=
    Nat.div_lt_div_of_lt_of_dvd divides Nat.lt_log2_self
  calc nearest p n ≤ (n / weight p n + 1) * weight p n := toMultiple_le _ _
    _ ≤ 2 ^ (n.log2 + 1) / weight p n * weight p n := Nat.mul_le_mul_right _ below
    _ = 2 ^ (n.log2 + 1) := Nat.div_mul_cancel divides

theorem nearest_mono {a b : Nat} (h : a ≤ b) : nearest p a ≤ nearest p b := by
  rcases Nat.eq_zero_or_pos a with rfl | pos
  · rw [nearest_zero]
    exact Nat.zero_le _
  · have posB : 0 < b := Nat.lt_of_lt_of_le pos h
    have sizes : a.log2 ≤ b.log2 := by
      by_contra more
      have small := (Nat.log2_lt (Nat.ne_of_gt posB)).mp (Nat.lt_of_not_le more)
      have large := Nat.log2_self_le (Nat.ne_of_gt pos)
      omega
    rcases Nat.lt_or_eq_of_le sizes with less | same
    · calc nearest p a ≤ 2 ^ (a.log2 + 1) := nearest_le a
        _ ≤ 2 ^ b.log2 := Nat.pow_le_pow_right (by decide) less
        _ ≤ nearest p b := le_nearest bits posB
    · rw [nearest, nearest, weight, weight, same]
      exact toMultiple_mono h

theorem lt_two_mul_nearest {n : Nat} (pos : 0 < n) : n < 2 * nearest p n := by
  have lower := le_nearest bits pos
  have upper : n < 2 ^ (n.log2 + 1) := Nat.lt_log2_self
  rw [Nat.pow_succ] at upper
  omega

/-- A rounded number has its bits. -/
theorem nearest_nearest (n : Nat) : nearest p (nearest p n) = nearest p n := by
  rcases Nat.eq_zero_or_pos n with rfl | pos
  · rw [nearest_zero, nearest_zero]
  · have lower := le_nearest bits pos
    have upper := nearest_le (p := p) n
    have positive : 0 < nearest p n := Nat.lt_of_lt_of_le (Nat.two_pow_pos _) lower
    refine toMultiple_of_dvd (weight_pos _ _) ?_
    rcases Nat.lt_or_eq_of_le upper with less | top
    · have size : (nearest p n).log2 = n.log2 :=
        (Nat.log2_eq_iff (Nat.ne_of_gt positive)).mpr ⟨lower, less⟩
      rw [weight, size]
      exact dvd_toMultiple _ _
    · rw [top, weight, Nat.log2_two_pow]
      exact Nat.pow_dvd_pow 2 (by omega)

end

/-! ## Decimals -/

/-- How far apart two numbers are. -/
def gap (a b : Nat) : Nat := (a - b) + (b - a)

/-- Of the multiples of `u` beside `x` that round to it, the closer one, of two the even one. -/
def closest (p x u : Nat) : Option Nat :=
  let low := x / u * u
  let high := low + u
  if nearest p low = x then
    if nearest p high = x ∧ (high - x < x - low ∨ high - x = x - low ∧ x / u % 2 = 1) then some high
    else some low
  else if nearest p high = x then some high
  else none

/-- The closest multiple of the highest power of ten, from `10 ^ j` down. -/
def shortest (p x : Nat) : Nat → Nat
  | 0 => x
  | j + 1 => (closest p x (10 ^ (j + 1))).getD (shortest p x j)

/-- A multiple of `u` that rounds to `x`, and no other that does is closer, or as close and even. -/
structure IsClosest (p x u n : Nat) : Prop where
  multiple : u ∣ n
  reads : nearest p n = x
  close : ∀ m, u ∣ m → nearest p m = x →
    gap x n < gap x m ∨ gap x n = gap x m ∧ (m = n ∨ n / u % 2 = 0)

/-- The decimal of a rounded number: as few digits as possible, and then the closest. -/
def IsShortest (p x n : Nat) : Prop :=
  ∃ j, IsClosest p x (10 ^ j) n ∧ ∀ i, j < i → ∀ m, 10 ^ i ∣ m → nearest p m ≠ x

section

variable {p x u : Nat}

/-- A multiple of `u` is at or beyond one of the two beside `x`. -/
theorem multiple_cases (pos : 0 < u) {m : Nat} (h : u ∣ m) :
    m ≤ x / u * u ∧ x / u * u ≤ x ∨ x / u * u + u ≤ m ∧ x < x / u * u + u := by
  obtain ⟨k, rfl⟩ := h
  have low : x / u * u ≤ x := Nat.div_mul_le_self x u
  have high : x < x / u * u + u := Nat.lt_div_mul_add pos
  rcases Nat.lt_or_ge (x / u) k with more | less
  · refine .inr ⟨?_, high⟩
    calc x / u * u + u = (x / u + 1) * u := (Nat.succ_mul _ _).symm
      _ ≤ k * u := Nat.mul_le_mul_right u more
      _ = u * k := Nat.mul_comm _ _
  · refine .inl ⟨?_, low⟩
    rw [Nat.mul_comm u k]
    exact Nat.mul_le_mul_right u less

/-- The multiple below `x` rounds to it when one further down does, and so for the one above. -/
theorem reads_beside (bits : 0 < p) (own : nearest p x = x) (pos : 0 < u) {m : Nat} (h : u ∣ m)
    (reads : nearest p m = x) :
    m ≤ x / u * u ∧ x / u * u ≤ x ∧ nearest p (x / u * u) = x ∨
      x / u * u + u ≤ m ∧ x < x / u * u + u ∧ nearest p (x / u * u + u) = x := by
  rcases multiple_cases pos h with ⟨less, low⟩ | ⟨more, high⟩
  · have lower := nearest_mono bits less
    have upper := nearest_mono bits low
    exact .inl ⟨less, low, by omega⟩
  · have lower := nearest_mono bits (Nat.le_of_lt high)
    have upper := nearest_mono bits more
    exact .inr ⟨more, high, by omega⟩

theorem isClosest_of_closest (bits : 0 < p) (own : nearest p x = x) (pos : 0 < u) {n : Nat}
    (h : closest p x u = some n) : IsClosest p x u n := by
  have below : x / u * u ≤ x := Nat.div_mul_le_self x u
  have above : x < x / u * u + u := Nat.lt_div_mul_add pos
  have lowQuotient : x / u * u / u = x / u := Nat.mul_div_cancel _ pos
  have highQuotient : (x / u * u + u) / u = x / u + 1 := by
    rw [Nat.add_div_right _ pos, lowQuotient]
  unfold closest at h
  dsimp only at h
  split at h
  · next low =>
    split at h
    · next high =>
      cases h
      refine ⟨Nat.dvd_add (Nat.dvd_mul_left _ _) (Nat.dvd_refl u), high.1, ?_⟩
      intro m multiple reads
      rcases reads_beside bits own pos multiple reads with ⟨less, -⟩ | ⟨more, -⟩
      · unfold gap
        omega
      · unfold gap
        omega
    · next not =>
      cases h
      refine ⟨Nat.dvd_mul_left _ _, low, ?_⟩
      intro m multiple reads
      rcases reads_beside bits own pos multiple reads with ⟨less, -⟩ | ⟨more, -, high⟩
      · unfold gap
        omega
      · rw [lowQuotient]
        unfold gap
        omega
  · next noLow =>
    split at h
    · next high =>
      cases h
      refine ⟨Nat.dvd_add (Nat.dvd_mul_left _ _) (Nat.dvd_refl u), high, ?_⟩
      intro m multiple reads
      rcases reads_beside bits own pos multiple reads with ⟨-, -, low⟩ | ⟨more, -⟩
      · exact absurd low noLow
      · unfold gap
        omega
    · cases h

theorem closest_eq_none (bits : 0 < p) (own : nearest p x = x) (pos : 0 < u)
    (h : closest p x u = none) : ∀ m, u ∣ m → nearest p m ≠ x := by
  intro m multiple reads
  unfold closest at h
  dsimp only at h
  rcases reads_beside bits own pos multiple reads with ⟨-, -, low⟩ | ⟨-, -, high⟩
  · rw [if_pos low] at h
    split at h <;> cases h
  · rw [if_pos high] at h
    split at h
    · split at h <;> cases h
    · cases h

theorem IsClosest.beside (bits : 0 < p) (own : nearest p x = x) (pos : 0 < u) {n : Nat}
    (h : IsClosest p x u n) : n = x / u * u ∨ n = x / u * u + u := by
  rcases reads_beside bits own pos h.multiple h.reads with ⟨less, low, reads⟩ | ⟨more, high, reads⟩
  · left
    have close := h.close _ (Nat.dvd_mul_left _ _) reads
    unfold gap at close
    omega
  · right
    have close := h.close _ (Nat.dvd_add (Nat.dvd_mul_left _ _) (Nat.dvd_refl u)) reads
    unfold gap at close
    omega

/-- The closest multiple is one number: of two as close, one is odd. -/
theorem IsClosest.unique (bits : 0 < p) (own : nearest p x = x) (pos : 0 < u) {n n' : Nat}
    (h : IsClosest p x u n) (h' : IsClosest p x u n') : n = n' := by
  have lowQuotient : x / u * u / u = x / u := Nat.mul_div_cancel _ pos
  have highQuotient : (x / u * u + u) / u = x / u + 1 := by
    rw [Nat.add_div_right _ pos, lowQuotient]
  have close := h.close n' h'.multiple h'.reads
  have close' := h'.close n h.multiple h.reads
  rcases h.beside bits own pos with rfl | rfl <;> rcases h'.beside bits own pos with rfl | rfl <;>
    omega

/-- The search ends at the decimal, when none has more zeros than it starts with. -/
theorem isShortest_shortest (bits : 0 < p) (own : nearest p x = x) : ∀ j : Nat,
    (∀ i, j < i → ∀ m, 10 ^ i ∣ m → nearest p m ≠ x) → IsShortest p x (shortest p x j) := by
  intro j
  induction j with
  | zero =>
    intro none
    refine ⟨0, ⟨Nat.one_dvd x, own, ?_⟩, none⟩
    intro m _ _
    unfold shortest gap
    omega
  | succ j ih =>
    intro none
    rw [shortest]
    cases found : closest p x (10 ^ (j + 1)) with
    | some n => exact ⟨j + 1, isClosest_of_closest bits own (Nat.pow_pos (by decide)) found, none⟩
    | none =>
      refine ih ?_
      intro i more
      rcases Nat.lt_or_eq_of_le (Nat.succ_le_of_lt more) with later | rfl
      · exact none i later
      · exact closest_eq_none bits own (Nat.pow_pos (by decide)) found

theorem IsShortest.unique (bits : 0 < p) (own : nearest p x = x) {n n' : Nat}
    (h : IsShortest p x n) (h' : IsShortest p x n') : n = n' := by
  obtain ⟨j, closest, none⟩ := h
  obtain ⟨j', closest', none'⟩ := h'
  rcases Nat.lt_trichotomy j j' with less | rfl | more
  · exact absurd closest'.reads (none j' less n' closest'.multiple)
  · exact closest.unique bits own (Nat.pow_pos (by decide)) closest'
  · exact absurd closest.reads (none' j more n closest.multiple)

/-- No decimal with more digits than `x` has rounds to it. -/
theorem none_beyond (bits : 0 < p) (positive : 0 < x) {j : Nat} (small : x < 10 ^ j) :
    ∀ i, j < i → ∀ m, 10 ^ i ∣ m → nearest p m ≠ x := by
  rintro i more m multiple rfl
  have pos : 0 < m := by
    rcases Nat.eq_zero_or_pos m with rfl | pos
    · rw [nearest_zero] at positive
      exact absurd positive (Nat.lt_irrefl 0)
    · exact pos
  have large : 10 ^ (j + 1) ≤ m := Nat.le_trans (Nat.pow_le_pow_right (by decide) more)
    (Nat.le_of_dvd pos multiple)
  have half := lt_two_mul_nearest bits pos
  rw [Nat.pow_succ] at large
  omega

/-- **The search finds the decimal.** -/
theorem shortest_eq_iff (bits : 0 < p) (own : nearest p x = x) (positive : 0 < x) {j : Nat}
    (small : x < 10 ^ j) {n : Nat} : shortest p x j = n ↔ IsShortest p x n := by
  have found := isShortest_shortest bits own j (none_beyond bits positive small)
  constructor
  · rintro rfl
    exact found
  · exact fun h => found.unique bits own h

/-- A number below `2 ^ p` is its own decimal: no other rounds to it. -/
theorem isShortest_of_lt {n : Nat} (positive : 0 < n) (h : n < 2 ^ p) : IsShortest p n n := by
  have bits : 0 < p := by
    rcases Nat.eq_zero_or_pos p with rfl | bits
    · omega
    · exact bits
  have found := isShortest_shortest bits (nearest_of_lt h) n
    (none_beyond bits positive (Nat.lt_pow_self (by decide)))
  have same : shortest p n n = n := by
    obtain ⟨j, closest, -⟩ := found
    have reads := closest.reads
    rcases Nat.lt_or_ge (shortest p n n) (2 ^ p) with less | more
    · rwa [nearest_of_lt less] at reads
    · have upper := nearest_mono bits more
      have power : nearest p (2 ^ p) = 2 ^ p := by
        refine toMultiple_of_dvd (weight_pos _ _) ?_
        rw [weight, Nat.log2_two_pow]
        exact Nat.pow_dvd_pow 2 (by omega)
      omega
  rwa [same] at found

end

end Rounding
