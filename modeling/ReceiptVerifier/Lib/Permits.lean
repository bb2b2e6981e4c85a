import Mathlib.Data.Multiset.UnionInter
import Mathlib.Logic.Relation

/-!
# Pools behind a semaphore

A pool lets a number of threads in at a time. A thread inside takes a free resource, or makes one
where none is free, and gives it back or discards it before it leaves. As one is made only where
none is free, there are never more of them about than threads that may be inside (`Permits.Sound`).
-/

namespace Permits

/-- Where a thread is. -/
inductive Point (Resource : Type)
  | outside
  /-- Has a permit, and no resource yet. -/
  | inside
  | holding (r : Resource)
  /-- Has a permit, and no resource any more. -/
  | leaving

variable {Resource : Type}

namespace Point

def resource : Point Resource → Option Resource
  | holding r => some r
  | _ => none

def admitted : Point Resource → Bool
  | outside => false
  | _ => true

end Point

structure Pool (Resource : Type) where
  permits : Nat
  free : Multiset Resource
  threads : Multiset (Point Resource)
  gone : Multiset Resource
  made : Multiset Resource

/-- One step of one thread. -/
inductive Move : Pool Resource → Pool Resource → Prop
  | enter {p} : Move p { p with threads := .outside ::ₘ p.threads }
  | acquire {p rest n} (threads : p.threads = .outside ::ₘ rest) (permits : p.permits = n + 1) :
      Move p { p with permits := n, threads := .inside ::ₘ rest }
  | take {p rest r left} (threads : p.threads = .inside ::ₘ rest) (free : p.free = r ::ₘ left) :
      Move p { p with free := left, threads := .holding r ::ₘ rest }
  | make {p rest r} (threads : p.threads = .inside ::ₘ rest) (free : p.free = 0)
      (fresh : r ∉ p.made) :
      Move p { p with threads := .holding r ::ₘ rest, made := r ::ₘ p.made }
  | give {p rest r} (threads : p.threads = .holding r ::ₘ rest) :
      Move p { p with free := r ::ₘ p.free, threads := .leaving ::ₘ rest }
  | discard {p rest r} (threads : p.threads = .holding r ::ₘ rest) :
      Move p { p with gone := r ::ₘ p.gone, threads := .leaving ::ₘ rest }
  | release {p rest} (threads : p.threads = .leaving ::ₘ rest) :
      Move p { p with permits := p.permits + 1, threads := .outside ::ₘ rest }

/-- What threads have. -/
def heldBy (threads : Multiset (Point Resource)) : Multiset Resource :=
  threads.filterMap Point.resource

/-- How many threads are inside. -/
def admitted (threads : Multiset (Point Resource)) : Nat :=
  threads.countP fun t => t.admitted = true

/-- Each permit is free or a thread's, no more resources are about than there are permits, and each
one made is free, with one thread, or gone. -/
structure Sound (size : Nat) (p : Pool Resource) : Prop where
  permits : p.permits + admitted p.threads = size
  room : p.free.card + (heldBy p.threads).card ≤ size
  placed : p.free + heldBy p.threads + p.gone = p.made
  once : p.made.Nodup

@[simp]
theorem admitted_cons (t : Point Resource) (rest : Multiset (Point Resource)) :
    admitted (t ::ₘ rest) = admitted rest + t.admitted.toNat := by
  rw [admitted, Multiset.countP_cons]
  cases t <;> rfl

@[simp]
theorem heldBy_cons_holding (r : Resource) (rest : Multiset (Point Resource)) :
    heldBy (.holding r ::ₘ rest) = r ::ₘ heldBy rest :=
  Multiset.filterMap_cons_some _ _ _ rfl

theorem heldBy_cons_none {t : Point Resource} (none : t.resource = none)
    (rest : Multiset (Point Resource)) : heldBy (t ::ₘ rest) = heldBy rest :=
  Multiset.filterMap_cons_none _ _ none

/-- Whoever has a resource is inside. -/
theorem card_heldBy_le (threads : Multiset (Point Resource)) :
    (heldBy threads).card ≤ admitted threads := by
  induction threads using Multiset.induction with
  | empty => exact Nat.le_refl 0
  | cons t rest ih =>
    rw [admitted_cons]
    cases t with
    | holding r =>
      rw [heldBy_cons_holding, Multiset.card_cons]
      exact Nat.add_le_add_right ih 1
    | outside | inside | leaving =>
      rw [heldBy_cons_none rfl]
      exact Nat.le_trans ih (Nat.le_add_right _ _)

variable {size : Nat} {p q : Pool Resource}

/-- A step of a thread that has no resource, before or after. -/
theorem Sound.moveThread {t : Point Resource} {rest : Multiset (Point Resource)}
    (sound : Sound size p) (threads : p.threads = t ::ₘ rest) {t' : Point Resource} {permits : Nat}
    (before : t.resource = none) (after : t'.resource = none)
    (counts : permits + t'.admitted.toNat = p.permits + t.admitted.toNat) :
    Sound size { p with permits := permits, threads := t' ::ₘ rest } := by
  have counted := sound.permits
  have room := sound.room
  have placed := sound.placed
  rw [threads] at counted room placed
  rw [heldBy_cons_none before] at room placed
  rw [admitted_cons] at counted
  refine ⟨?_, ?_, ?_, sound.once⟩
  · dsimp only
    rw [admitted_cons]
    omega
  · dsimp only
    rwa [heldBy_cons_none after]
  · dsimp only
    rwa [heldBy_cons_none after]

/-- Every step keeps the permits, the bound, and each resource in one place. -/
theorem Move.sound (move : Move p q) (sound : Sound size p) : Sound size q := by
  cases move with
  | enter =>
    obtain ⟨permits, room, placed, once⟩ := sound
    refine ⟨?_, ?_, ?_, once⟩
    · simpa [Point.admitted] using permits
    · dsimp only
      rwa [heldBy_cons_none rfl]
    · dsimp only
      rwa [heldBy_cons_none rfl]
  | acquire threads permits =>
    refine sound.moveThread threads rfl rfl ?_
    simp [permits, Point.admitted]
  | @take rest r left threads free =>
    obtain ⟨permits, room, placed, once⟩ := sound
    rw [threads] at permits room placed
    rw [free] at room placed
    rw [heldBy_cons_none rfl] at room placed
    refine ⟨?_, ?_, ?_, once⟩
    · simpa [Point.admitted] using permits
    · simp only [heldBy_cons_holding, Multiset.card_cons] at room ⊢
      omega
    · rwa [heldBy_cons_holding, Multiset.add_cons, ← Multiset.cons_add]
  | @make rest r threads free fresh =>
    obtain ⟨permits, room, placed, once⟩ := sound
    rw [threads] at permits placed
    rw [heldBy_cons_none rfl] at placed
    refine ⟨?_, ?_, ?_, Multiset.nodup_cons.mpr ⟨fresh, once⟩⟩
    · simpa [Point.admitted] using permits
    · -- nothing is free, so whatever is about is with a thread, and this one had nothing
      have fewer := card_heldBy_le rest
      simp only [admitted_cons, Point.admitted, Bool.toNat_true] at permits
      simp only [free, heldBy_cons_holding, Multiset.card_cons, Multiset.card_zero]
      omega
    · dsimp only
      rw [heldBy_cons_holding, Multiset.add_cons, Multiset.cons_add, placed]
  | @give rest r threads =>
    obtain ⟨permits, room, placed, once⟩ := sound
    rw [threads] at permits room placed
    refine ⟨?_, ?_, ?_, once⟩
    · simpa [Point.admitted] using permits
    · rw [heldBy_cons_none rfl]
      simp only [heldBy_cons_holding, Multiset.card_cons] at room ⊢
      omega
    · rw [heldBy_cons_holding, Multiset.add_cons] at placed
      rwa [heldBy_cons_none rfl, Multiset.cons_add]
  | @discard rest r threads =>
    obtain ⟨permits, room, placed, once⟩ := sound
    rw [threads] at permits room placed
    refine ⟨?_, ?_, ?_, once⟩
    · simpa [Point.admitted] using permits
    · dsimp only
      rw [heldBy_cons_none rfl]
      simp only [heldBy_cons_holding, Multiset.card_cons] at room
      omega
    · rw [heldBy_cons_holding, Multiset.add_cons, Multiset.cons_add] at placed
      dsimp only
      rwa [heldBy_cons_none rfl, Multiset.add_cons]
  | release threads =>
    refine sound.moveThread threads rfl rfl ?_
    simp [Point.admitted]

section

variable {t : Point Resource} {rest : Multiset (Point Resource)} {r : Resource}

/-- Not every permit is free while a thread is inside. -/
theorem Sound.below (sound : Sound size p) (threads : p.threads = t ::ₘ rest)
    (inside : t.admitted = true) : p.permits < size := by
  have counted := sound.permits
  rw [threads, admitted_cons, inside, Bool.toNat_true] at counted
  omega

/-- A thread's resource is nowhere else. -/
theorem Sound.nodup_cons (sound : Sound size p) (threads : p.threads = .holding r ::ₘ rest) :
    (r ::ₘ (p.free + heldBy rest + p.gone)).Nodup := by
  have once := sound.once
  rwa [← sound.placed, threads, heldBy_cons_holding, Multiset.add_cons, Multiset.cons_add] at once

theorem Sound.unfree (sound : Sound size p) (threads : p.threads = .holding r ::ₘ rest) :
    r ∉ p.free := by
  intro free
  have elsewhere := (Multiset.nodup_cons.mp (sound.nodup_cons threads)).1
  simp [Multiset.mem_add, free] at elsewhere

theorem Sound.alone (sound : Sound size p) (threads : p.threads = .holding r ::ₘ rest) :
    ∀ t' ∈ rest, t'.resource ≠ some r := by
  intro t' mem same
  have elsewhere := (Multiset.nodup_cons.mp (sound.nodup_cons threads)).1
  have held : r ∈ heldBy rest := (Multiset.mem_filterMap _ _).mpr ⟨t', mem, same⟩
  simp [Multiset.mem_add, held] at elsewhere

theorem Sound.held_made (sound : Sound size p) (threads : p.threads = .holding r ::ₘ rest) :
    r ∈ p.made := by
  rw [← sound.placed, threads, heldBy_cons_holding]
  simp

end

theorem sound_of_moves (moves : Relation.ReflTransGen Move p q) (sound : Sound size p) :
    Sound size q := by
  induction moves with
  | refl => exact sound
  | tail _ move ih => exact move.sound ih

/-! ## The threads of a list -/

section

variable {Thread : Type} {threads : List Thread} {i : Nat} {t : Thread}

def points (point : Thread → Point Resource) (threads : List Thread) : Multiset (Point Resource) :=
  Multiset.ofList (threads.map point)

/-- One thread and the others, before and after it moves. -/
theorem exists_rest (point : Thread → Point Resource) (at_ : threads[i]? = some t) :
    ∃ rest, points point threads = point t ::ₘ rest ∧
      (∀ t', points point (threads.set i t') = point t' ::ₘ rest) ∧
      ∀ (j : Nat) t', j ≠ i → threads[j]? = some t' → point t' ∈ rest := by
  obtain ⟨inside, own⟩ := List.getElem?_eq_some_iff.mp at_
  refine ⟨points point (threads.eraseIdx i), ?_, fun t' => ?_, fun j t' other at_ => ?_⟩
  · have perm := (List.getElem_cons_eraseIdx_perm inside).map point
    rw [own] at perm
    exact (Multiset.coe_eq_coe.mpr perm).symm
  · exact Multiset.coe_eq_coe.mpr ((List.set_perm_cons_eraseIdx inside t').map point)
  · exact Multiset.mem_coe.mpr
      (List.mem_map_of_mem (List.mem_eraseIdx_iff_getElem?.mpr ⟨j, other, at_⟩))

theorem points_append (point : Thread → Point Resource) (threads : List Thread) (t : Thread) :
    points point (threads ++ [t]) = point t ::ₘ points point threads := by
  refine Multiset.coe_eq_coe.mpr ?_
  rw [List.map_append]
  exact List.perm_append_singleton (point t) (threads.map point)

end

end Permits
