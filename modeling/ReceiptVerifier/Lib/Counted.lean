import Mathlib.Data.Multiset.UnionInter
import Mathlib.Logic.Function.Basic
import Mathlib.Logic.Relation
import ReceiptVerifier.Lib.Lease

/-!
# Pools with a counter

A pool that bounds how many resources it keeps by a counter beside the queue. A thread that gives a
resource back increments the counter first, then pushes, or takes the increment back when it went
past the bound; one that takes a resource pops first, then decrements. The counter and the queue
change in separate steps, so it is the threads between two of them that make up the difference.

`Counted.Sound` is kept by every step: the counter is the queue with those threads, the bound holds,
and every resource made is queued, with one thread, or gone.
-/

namespace Counted

/-- Where a thread is. A holder knows something of what was done with its resource. -/
inductive Point (Resource Use : Type)
  | outside
  /-- Popped, before the decrement. -/
  | popped (r : Resource)
  | holding (r : Resource) (knows : List Use → Prop)
  /-- Incremented to at most the bound, before the push. -/
  | reserved (r : Resource)
  /-- Incremented past the bound, before the decrement that takes it back. -/
  | overfull (r : Resource)

variable {Resource Use : Type}

namespace Point

def resource : Point Resource Use → Option Resource
  | outside => none
  | popped r => some r
  | holding r _ => some r
  | reserved r => some r
  | overfull r => some r

/-- The counter has one for the thread. -/
def counted : Point Resource Use → Bool
  | popped _ => true
  | reserved _ => true
  | overfull _ => true
  | _ => false

/-- The thread will push. -/
def pushes : Point Resource Use → Bool
  | reserved _ => true
  | _ => false

/-- What a thread relies on. -/
def Holds (Fit : List Use → Prop) (log : Resource → List Use) : Point Resource Use → Prop
  | outside => True
  | popped r => Fit (log r)
  | holding r knows => knows (log r)
  | reserved r => Fit (log r)
  | overfull r => Fit (log r)

end Point

structure Pool (Resource Use : Type) where
  queued : Multiset Resource
  count : Int
  threads : Multiset (Point Resource Use)
  log : Resource → List Use
  gone : Multiset Resource
  made : Multiset Resource

open Function (update)

/-- One step of one thread. -/
inductive Move [DecidableEq Resource] (Fit : List Use → Prop) (limit : Nat) :
    Pool Resource Use → Pool Resource Use → Prop
  | enter {p} : Move Fit limit p { p with threads := .outside ::ₘ p.threads }
  | make {p rest r} (threads : p.threads = .outside ::ₘ rest) (fresh : r ∉ p.made) :
      Move Fit limit p
        { p with threads := .holding r (· = []) ::ₘ rest, made := r ::ₘ p.made }
  | pop {p rest r left} (threads : p.threads = .outside ::ₘ rest) (queued : p.queued = r ::ₘ left) :
      Move Fit limit p { p with threads := .popped r ::ₘ rest, queued := left }
  | settle {p rest r} (threads : p.threads = .popped r ::ₘ rest) :
      Move Fit limit p { p with threads := .holding r Fit ::ₘ rest, count := p.count - 1 }
  | use {p rest r knows knows'} (threads : p.threads = .holding r knows ::ₘ rest) (u : Use)
      (learns : ∀ l, knows l → knows' (l ++ [u])) :
      Move Fit limit p
        { p with
          threads := .holding r knows' ::ₘ rest
          log := update p.log r (p.log r ++ [u]) }
  | learn {p rest r knows knows'} (threads : p.threads = .holding r knows ::ₘ rest)
      (learns : knows (p.log r) → knows' (p.log r)) :
      Move Fit limit p { p with threads := .holding r knows' ::ₘ rest }
  | reserve {p rest r knows} (threads : p.threads = .holding r knows ::ₘ rest)
      (fit : ∀ l, knows l → Fit l) (within : p.count + 1 ≤ (limit : Int)) :
      Move Fit limit p { p with threads := .reserved r ::ₘ rest, count := p.count + 1 }
  | overflow {p rest r knows} (threads : p.threads = .holding r knows ::ₘ rest)
      (fit : ∀ l, knows l → Fit l) :
      Move Fit limit p { p with threads := .overfull r ::ₘ rest, count := p.count + 1 }
  | push {p rest r} (threads : p.threads = .reserved r ::ₘ rest) :
      Move Fit limit p { p with threads := .outside ::ₘ rest, queued := r ::ₘ p.queued }
  | takeBack {p rest r} (threads : p.threads = .overfull r ::ₘ rest) :
      Move Fit limit p { p with threads := .holding r Fit ::ₘ rest, count := p.count - 1 }
  | discard {p rest r knows} (threads : p.threads = .holding r knows ::ₘ rest) :
      Move Fit limit p { p with threads := .outside ::ₘ rest, gone := r ::ₘ p.gone }

/-- What threads have. -/
def heldBy (threads : Multiset (Point Resource Use)) : Multiset Resource :=
  threads.filterMap Point.resource

/-- How many threads the counter has one for. -/
def counting (threads : Multiset (Point Resource Use)) : Nat :=
  threads.countP fun t => t.counted = true

def pushing (threads : Multiset (Point Resource Use)) : Nat :=
  threads.countP fun t => t.pushes = true

structure Sound (Fit : List Use → Prop) (limit : Nat) (p : Pool Resource Use) : Prop where
  count : p.count = p.queued.card + counting p.threads
  bound : p.queued.card + pushing p.threads ≤ limit
  placed : p.queued + heldBy p.threads + p.gone = p.made
  once : p.made.Nodup
  fit : ∀ r ∈ p.queued, Fit (p.log r)
  holds : ∀ t ∈ p.threads, t.Holds Fit p.log
  blank : ∀ r, r ∉ p.made → p.log r = []

variable {Fit : List Use → Prop} {limit : Nat} {p q : Pool Resource Use}

/-! ## Every step keeps it -/

@[simp]
theorem counting_cons (t : Point Resource Use) (rest : Multiset (Point Resource Use)) :
    counting (t ::ₘ rest) = counting rest + t.counted.toNat := by
  rw [counting, Multiset.countP_cons]
  cases t.counted <;> rfl

@[simp]
theorem pushing_cons (t : Point Resource Use) (rest : Multiset (Point Resource Use)) :
    pushing (t ::ₘ rest) = pushing rest + t.pushes.toNat := by
  rw [pushing, Multiset.countP_cons]
  cases t.pushes <;> rfl

@[simp]
theorem held_cons_outside (rest : Multiset (Point Resource Use)) :
    heldBy (.outside ::ₘ rest) = heldBy rest :=
  Multiset.filterMap_cons_none _ _ rfl

theorem held_cons {t : Point Resource Use} {r : Resource} (has : t.resource = some r)
    (rest : Multiset (Point Resource Use)) : heldBy (t ::ₘ rest) = r ::ₘ heldBy rest :=
  Multiset.filterMap_cons_some _ _ _ has

section

variable {rest : Multiset (Point Resource Use)} {t : Point Resource Use} {r : Resource}

/-- A thread's resource is nowhere else. -/
theorem Sound.nodup_cons (sound : Sound Fit limit p) (threads : p.threads = t ::ₘ rest)
    (has : t.resource = some r) : (r ::ₘ (p.queued + heldBy rest + p.gone)).Nodup := by
  have once := sound.once
  rwa [← sound.placed, threads, held_cons has, Multiset.add_cons, Multiset.cons_add] at once

theorem Sound.unqueued (sound : Sound Fit limit p) (threads : p.threads = t ::ₘ rest)
    (has : t.resource = some r) : r ∉ p.queued := by
  intro queued
  have elsewhere := (Multiset.nodup_cons.mp (sound.nodup_cons threads has)).1
  simp [Multiset.mem_add, queued] at elsewhere

theorem Sound.alone (sound : Sound Fit limit p) (threads : p.threads = t ::ₘ rest)
    (has : t.resource = some r) : ∀ t' ∈ rest, t'.resource ≠ some r := by
  intro t' mem same
  have elsewhere := (Multiset.nodup_cons.mp (sound.nodup_cons threads has)).1
  have held : r ∈ heldBy rest := (Multiset.mem_filterMap _ _).mpr ⟨t', mem, same⟩
  simp [Multiset.mem_add, held] at elsewhere

end

/-- Other resources' logs do not matter to a thread. -/
theorem Point.Holds.update [DecidableEq Resource] {log : Resource → List Use} {r : Resource}
    {l : List Use} {t : Point Resource Use} (holds : t.Holds Fit log)
    (other : t.resource ≠ some r) : t.Holds Fit (Function.update log r l) := by
  cases t with
  | outside => trivial
  | popped r' | reserved r' | overfull r' | holding r' knows =>
    have differ : r' ≠ r := fun same => other (congrArg some same)
    simpa [Point.Holds, differ] using holds

theorem Point.counted_of_pushes {t : Point Resource Use} (pushes : t.pushes = true) :
    t.counted = true := by
  cases t <;> first | rfl | cases pushes

theorem pushing_le (threads : Multiset (Point Resource Use)) :
    pushing threads ≤ counting threads := by
  rw [pushing, counting, Multiset.countP_eq_card_filter, Multiset.countP_eq_card_filter]
  exact Multiset.card_le_card
    (Multiset.monotone_filter_right _ fun t pushes => Point.counted_of_pushes pushes)

/-- A step that moves one thread and leaves the resources where they are. -/
theorem Sound.moveThread {t : Point Resource Use} {rest : Multiset (Point Resource Use)}
    (sound : Sound Fit limit p) (threads : p.threads = t ::ₘ rest) (t' : Point Resource Use)
    (has : t'.resource = t.resource) {count : Int}
    (counts : count + t.counted.toNat = p.count + t'.counted.toNat)
    (within : t'.pushes = true → count ≤ (limit : Int))
    (holds : t.Holds Fit p.log → t'.Holds Fit p.log) :
    Sound Fit limit { p with threads := t' ::ₘ rest, count := count } := by
  have counted := sound.count
  have bound := sound.bound
  have placed := sound.placed
  have relies := sound.holds
  rw [threads] at relies placed counted bound
  rw [Multiset.forall_mem_cons] at relies
  rw [counting_cons] at counted
  rw [pushing_cons] at bound
  have now : count = p.queued.card + counting (t' ::ₘ rest) := by
    rw [counting_cons]
    omega
  refine { sound with count := now, bound := ?_, placed := ?_, holds := ?_ }
  · cases pushes : t'.pushes with
    | true =>
      have kept := within pushes
      have fewer := pushing_le (t' ::ₘ rest)
      dsimp only
      omega
    | false =>
      simp only [pushing_cons, pushes, Bool.toNat_false]
      omega
  · cases own : t.resource with
    | none =>
      dsimp only [heldBy] at placed ⊢
      rwa [Multiset.filterMap_cons_none _ _ (has.trans own),
        ← Multiset.filterMap_cons_none (f := Point.resource) t rest own]
    | some r =>
      dsimp only
      rwa [held_cons (has.trans own), ← held_cons own]
  · exact Multiset.forall_mem_cons.mpr ⟨holds relies.1, relies.2⟩

/-- Every step keeps the counter exact, the bound, and each resource in one place. -/
theorem Move.sound [DecidableEq Resource] (move : Move Fit limit p q) (sound : Sound Fit limit p) :
    Sound Fit limit q := by
  cases move with
  | enter =>
    refine { sound with count := ?_, bound := ?_, placed := ?_, holds := ?_ }
    · simpa [Point.counted] using sound.count
    · simpa [Point.pushes] using sound.bound
    · simpa using sound.placed
    · exact Multiset.forall_mem_cons.mpr ⟨trivial, sound.holds⟩
  | @make rest r threads fresh =>
    obtain ⟨count, bound, placed, once, fit, holds, blank⟩ := sound
    rw [threads] at count bound placed holds
    rw [Multiset.forall_mem_cons] at holds
    refine ⟨?_, ?_, ?_, Multiset.nodup_cons.mpr ⟨fresh, once⟩, fit, ?_, ?_⟩
    · simpa [Point.counted] using count
    · simpa [Point.pushes] using bound
    · dsimp only
      rw [held_cons_outside] at placed
      rw [held_cons rfl, Multiset.add_cons, Multiset.cons_add, placed]
    · exact Multiset.forall_mem_cons.mpr ⟨blank r fresh, holds.2⟩
    · intro r' unmade
      exact blank r' fun made => unmade (Multiset.mem_cons_of_mem made)
  | @pop rest r left threads queued =>
    obtain ⟨count, bound, placed, once, fit, holds, blank⟩ := sound
    rw [queued] at count bound placed fit
    rw [threads] at count bound placed holds
    rw [Multiset.forall_mem_cons] at holds fit
    refine ⟨?_, ?_, ?_, once, fit.2, ?_, blank⟩
    · simp [Point.counted] at count ⊢
      omega
    · simp [Point.pushes] at bound ⊢
      omega
    · dsimp only
      rw [held_cons_outside, Multiset.cons_add] at placed
      rwa [held_cons rfl, Multiset.add_cons]
    · exact Multiset.forall_mem_cons.mpr ⟨fit.1, holds.2⟩
  | settle threads =>
    refine sound.moveThread threads (.holding _ Fit) rfl ?_ nofun id
    simp [Point.counted]
  | @use rest r knows knows' threads u learns =>
    have alone := sound.alone threads rfl
    have unqueued := sound.unqueued threads rfl
    obtain ⟨count, bound, placed, once, fit, holds, blank⟩ := sound
    rw [threads] at count bound placed holds
    rw [Multiset.forall_mem_cons] at holds
    have made : r ∈ p.made := by
      rw [← placed, held_cons rfl]
      simp
    refine ⟨?_, ?_, ?_, once, ?_, ?_, ?_⟩
    · simpa [Point.counted] using count
    · simpa [Point.pushes] using bound
    · rw [held_cons rfl] at placed ⊢
      exact placed
    · intro r' mem
      have other : r' ≠ r := fun same => unqueued (same ▸ mem)
      simpa [other] using fit r' mem
    · refine Multiset.forall_mem_cons.mpr ⟨?_, fun t mem => (holds.2 t mem).update (alone t mem)⟩
      simpa [Point.Holds] using learns _ holds.1
    · intro r' unmade
      have other : r' ≠ r := fun same => unmade (same ▸ made)
      simpa [other] using blank r' unmade
  | @learn rest r knows knows' threads learns =>
    exact sound.moveThread threads (.holding r knows') rfl rfl nofun learns
  | reserve threads fit within =>
    refine sound.moveThread threads (.reserved _) rfl ?_ (fun _ => within) (fit _)
    simp [Point.counted]
  | overflow threads fit =>
    refine sound.moveThread threads (.overfull _) rfl ?_ nofun (fit _)
    simp [Point.counted]
  | @push rest r threads =>
    obtain ⟨count, bound, placed, once, fit, holds, blank⟩ := sound
    rw [threads] at count bound placed holds
    rw [Multiset.forall_mem_cons] at holds
    refine ⟨?_, ?_, ?_, once, ?_, ?_, blank⟩
    · simp [Point.counted] at count ⊢
      omega
    · simp [Point.pushes] at bound ⊢
      omega
    · dsimp only
      rw [held_cons rfl, Multiset.add_cons] at placed
      rwa [held_cons_outside, Multiset.cons_add]
    · exact Multiset.forall_mem_cons.mpr ⟨holds.1, fit⟩
    · exact Multiset.forall_mem_cons.mpr ⟨trivial, holds.2⟩
  | takeBack threads =>
    refine sound.moveThread threads (.holding _ Fit) rfl ?_ nofun id
    simp [Point.counted]
  | @discard rest r knows threads =>
    obtain ⟨count, bound, placed, once, fit, holds, blank⟩ := sound
    rw [threads] at count bound placed holds
    rw [Multiset.forall_mem_cons] at holds
    refine ⟨?_, ?_, ?_, once, fit, ?_, blank⟩
    · simpa [Point.counted] using count
    · simpa [Point.pushes] using bound
    · dsimp only
      rw [held_cons rfl, Multiset.add_cons, Multiset.cons_add] at placed
      rwa [held_cons_outside, Multiset.add_cons]
    · exact Multiset.forall_mem_cons.mpr ⟨trivial, holds.2⟩

theorem sound_of_moves [DecidableEq Resource]
    (moves : Relation.ReflTransGen (Move Fit limit) p q) (sound : Sound Fit limit p) :
    Sound Fit limit q := by
  induction moves with
  | refl => exact sound
  | tail _ move ih => exact move.sound ih

/-- Nothing is made and no thread has come. -/
theorem sound_of_empty (queued : p.queued = 0) (count : p.count = 0) (threads : p.threads = 0)
    (gone : p.gone = 0) (made : p.made = 0) (log : ∀ r, p.log r = []) : Sound Fit limit p where
  count := by simp [queued, count, threads, counting]
  bound := by simp [queued, threads, pushing]
  placed := by simp [queued, threads, gone, made, heldBy]
  once := made ▸ Multiset.nodup_zero
  fit := by simp [queued]
  holds := by simp [threads]
  blank := fun r _ => log r

/-! ## What it says -/

namespace Sound

variable (sound : Sound Fit limit p)

include sound

theorem count_nonneg : 0 ≤ p.count := by
  rw [sound.count]
  omega

theorem queued_le : p.queued.card ≤ limit := Nat.le_of_add_right_le sound.bound

theorem nodup : (p.queued + heldBy p.threads + p.gone).Nodup := by
  rw [sound.placed]
  exact sound.once

theorem queued_nodup : p.queued.Nodup :=
  Multiset.nodup_of_le (Multiset.le_add_right _ _)
    (Multiset.nodup_of_le (Multiset.le_add_right _ _) sound.nodup)

theorem held_nodup : (heldBy p.threads).Nodup :=
  Multiset.nodup_of_le (Multiset.le_add_left _ _)
    (Multiset.nodup_of_le (Multiset.le_add_right _ _) sound.nodup)

theorem queued_unheld {r : Resource} (queued : r ∈ p.queued) : r ∉ heldBy p.threads :=
  Multiset.disjoint_left.mp
    (Multiset.disjoint_of_nodup_add (Multiset.nodup_of_le (Multiset.le_add_right _ _) sound.nodup))
    queued

/-- What is gone is nowhere else. -/
theorem gone_apart {r : Resource} (gone : r ∈ p.gone) :
    r ∉ p.queued ∧ r ∉ heldBy p.threads := by
  have elsewhere := Multiset.disjoint_right.mp (Multiset.disjoint_of_nodup_add sound.nodup) gone
  simpa [Multiset.mem_add] using elsewhere

theorem mem_made {r : Resource} :
    r ∈ p.made ↔ r ∈ p.queued ∨ r ∈ heldBy p.threads ∨ r ∈ p.gone := by
  rw [← sound.placed, Multiset.mem_add, Multiset.mem_add, or_assoc]

end Sound

/-! ## Threads in a list -/

section

variable {Thread : Type} {point : Thread → Point Resource Use} {threads : List Thread} {i : Nat}
  {t : Thread}

/-- The points of threads, in no order. -/
def points (point : Thread → Point Resource Use) (threads : List Thread) :
    Multiset (Point Resource Use) :=
  Multiset.ofList (threads.map point)

/-- One thread and the others, before and after it moves. -/
theorem exists_rest (point : Thread → Point Resource Use) (at_ : threads[i]? = some t) :
    ∃ rest, points point threads = point t ::ₘ rest ∧
      ∀ t', points point (threads.set i t') = point t' ::ₘ rest := by
  obtain ⟨inside, own⟩ := List.getElem?_eq_some_iff.mp at_
  refine ⟨points point (threads.eraseIdx i), ?_, fun t' => ?_⟩
  · have perm := (List.getElem_cons_eraseIdx_perm inside).map point
    rw [own] at perm
    exact (Multiset.coe_eq_coe.mpr perm).symm
  · exact Multiset.coe_eq_coe.mpr ((List.set_perm_cons_eraseIdx inside t').map point)

theorem points_append (point : Thread → Point Resource Use) (threads : List Thread) (t : Thread) :
    points point (threads ++ [t]) = point t ::ₘ points point threads := by
  refine Multiset.coe_eq_coe.mpr ?_
  rw [List.map_append]
  exact List.perm_append_singleton (point t) (threads.map point)

/-- The threads the counter has one for, told apart. -/
theorem counting_points {a b : Thread → Bool}
    (split : ∀ t, (point t).counted.toNat = (a t).toNat + (b t).toNat) (threads : List Thread) :
    counting (points point threads) = threads.countP a + threads.countP b := by
  induction threads with
  | nil => rfl
  | cons t threads ih =>
    have cons : points point (t :: threads) = point t ::ₘ points point threads := rfl
    have add : ∀ p : Thread → Bool, (t :: threads).countP p = threads.countP p + (p t).toNat := by
      intro p
      rw [List.countP_cons]
      cases p t <;> rfl
    rw [cons, counting_cons, ih, split, add, add]
    omega

theorem Sound.settled (sound : Sound Fit limit p) {threads : List Thread}
    (own : p.threads = points point threads) (quiet : ∀ t ∈ threads, (point t).counted = false) :
    p.count = p.queued.card := by
  have none : counting (points point threads) = 0 := by
    refine Multiset.countP_eq_zero.mpr fun t mem counted => ?_
    obtain ⟨thread, inside, rfl⟩ := List.mem_map.mp (Multiset.mem_coe.mp mem)
    rw [quiet thread inside] at counted
    cases counted
  rw [sound.count, own, none]
  rfl

theorem mem_heldBy {r : Resource} :
    r ∈ heldBy (points point threads) ↔ ∃ t ∈ threads, (point t).resource = some r := by
  simp [heldBy, points]

/-- Two threads have no resource in common. -/
theorem index_unique (once : (heldBy (points point threads)).Nodup) {j : Nat} {t' : Thread}
    {r : Resource} (at_ : threads[i]? = some t) (at' : threads[j]? = some t')
    (has : (point t).resource = some r) (has' : (point t').resource = some r) : i = j := by
  have distinct : (threads.filterMap fun t => (point t).resource).Nodup := by
    simpa [heldBy, points, Function.comp_def] using once
  have apart := List.pairwise_iff_getElem.mp (List.pairwise_filterMap.mp distinct)
  obtain ⟨inside, rfl⟩ := List.getElem?_eq_some_iff.mp at_
  obtain ⟨inside', rfl⟩ := List.getElem?_eq_some_iff.mp at'
  rcases Nat.lt_trichotomy i j with before | same | after
  · exact absurd rfl (apart i j inside inside' before r has r has')
  · exact same
  · exact absurd rfl (apart j i inside' inside after r has' r has)

end

/-! ## A machine as a counted pool -/

open Relation (ReflTransGen)

/-- How a machine with its threads in a list is a counted pool. Where one thread moves or another
one comes, the rest of the pool stays. -/
structure View (State Thread Resource Use : Type) where
  pool : State → Pool Resource Use
  threads : State → List Thread
  point : Thread → Point Resource Use
  holds : Thread → Option Resource
  move : State → Nat → Thread → State
  enter : State → Thread → State
  resource_point : ∀ t, (point t).resource = holds t
  threads_pool : ∀ s, (pool s).threads = points point (threads s)
  pool_move : ∀ s i t,
    pool (move s i t) = { pool s with threads := points point ((threads s).set i t) }
  pool_enter : ∀ s t,
    pool (enter s t) = { pool s with threads := points point (threads s ++ [t]) }

namespace View

variable {State Thread : Type} (v : View State Thread Resource Use) {s : State} {i : Nat}
  {t : Thread}

/-- A thread moves, and its move is steps of the pool. -/
theorem moves [DecidableEq Resource] (at_ : (v.threads s)[i]? = some t) (s' : State) (t' : Thread)
    (same : v.threads s' = v.threads s)
    (moved : ∀ {rest}, (v.pool s).threads = v.point t ::ₘ rest →
      ReflTransGen (Move Fit limit) (v.pool s)
        { v.pool s' with threads := v.point t' ::ₘ rest }) :
    ReflTransGen (Move Fit limit) (v.pool s) (v.pool (v.move s' i t')) := by
  obtain ⟨rest, before, after⟩ := exists_rest v.point at_
  rw [v.pool_move, same, after t']
  exact moved ((v.threads_pool s).trans before)

/-- A thread moves, and nothing changes of the pool. -/
theorem stay [DecidableEq Resource] (at_ : (v.threads s)[i]? = some t) (t' : Thread)
    (same : v.point t' = v.point t) :
    ReflTransGen (Move Fit limit) (v.pool s) (v.pool (v.move s i t')) := by
  refine v.moves at_ s t' rfl fun before => ?_
  rw [same, ← before]

theorem enters [DecidableEq Resource] (s : State) (t : Thread) (outside : v.point t = .outside) :
    ReflTransGen (Move Fit limit) (v.pool s) (v.pool (v.enter s t)) := by
  rw [v.pool_enter, points_append, outside, ← v.threads_pool]
  exact .single .enter

/-- A machine whose steps are steps of the pool. -/
theorem sound_run [DecidableEq Resource] {Event : Type} {step : State → Event → Option State}
    (steps : ∀ {s e s'}, step s e = some s' →
      ReflTransGen (Move Fit limit) (v.pool s) (v.pool s'))
    {start : State} (sound : Sound Fit limit (v.pool start)) {events : List Event}
    (run : events.foldlM step start = some s) : Sound Fit limit (v.pool s) := by
  have moves : ReflTransGen (Move Fit limit) (v.pool start) (v.pool s) :=
    rel_of_foldlM (R := fun s s' => ReflTransGen (Move Fit limit) (v.pool s) (v.pool s'))
      (fun _ => .refl) .trans steps run
  exact sound_of_moves moves sound

theorem mem_heldBy {r : Resource} :
    r ∈ heldBy (v.pool s).threads ↔ ∃ t ∈ v.threads s, v.holds t = some r := by
  simp only [← v.resource_point, v.threads_pool, Counted.mem_heldBy]

variable (sound : Sound Fit limit (v.pool s))

include sound

/-- What is queued is with no thread. -/
theorem apart {r : Resource} (queued : r ∈ (v.pool s).queued) :
    ∀ t ∈ v.threads s, v.holds t ≠ some r :=
  fun t mem has => sound.queued_unheld queued (v.mem_heldBy.mpr ⟨t, mem, has⟩)

/-- A resource is with one thread only. -/
theorem alone {j : Nat} {t' : Thread} {r : Resource} (at_ : (v.threads s)[i]? = some t)
    (at' : (v.threads s)[j]? = some t') (has : v.holds t = some r) (has' : v.holds t' = some r) :
    i = j := by
  have once := sound.held_nodup
  rw [v.threads_pool] at once
  exact index_unique once at_ at' ((v.resource_point t).trans has)
    ((v.resource_point t').trans has')

/-- What was made is queued, with a thread or gone. -/
theorem mem_made {r : Resource} : r ∈ (v.pool s).made ↔
    r ∈ (v.pool s).queued ∨ (∃ t ∈ v.threads s, v.holds t = some r) ∨ r ∈ (v.pool s).gone := by
  rw [sound.mem_made, v.mem_heldBy]

/-- What is gone is neither queued nor with a thread. -/
theorem gone_apart {r : Resource} (gone : r ∈ (v.pool s).gone) :
    r ∉ (v.pool s).queued ∧ ∀ t ∈ v.threads s, v.holds t ≠ some r := by
  obtain ⟨unqueued, unheld⟩ := sound.gone_apart gone
  exact ⟨unqueued, fun t mem has => unheld (v.mem_heldBy.mpr ⟨t, mem, has⟩)⟩

end View

end Counted
