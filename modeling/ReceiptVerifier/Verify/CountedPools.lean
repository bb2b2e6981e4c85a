import Mathlib.Data.Multiset.Range
import ReceiptVerifier.Dotnet.InstancePool
import ReceiptVerifier.JavaWasm.GuestPool
import ReceiptVerifier.Lib.Counted
import ReceiptVerifier.Lib.Lease

/-!
# The counted pools stay exact

Both hosts keep a counter beside their idle instances and change the two in separate steps. Each
machine moves as `Counted.Move` allows, so the counter is the queue with the threads in between, in
every state any number of threads reach.
-/

namespace ReceiptVerifier

open Counted (Move points)
open Relation (ReflTransGen)

namespace JavaWasm.GuestPool

/-- `init` was accepted, and no call failed since. -/
def Fit (uses : List Use) : Prop :=
  ∃ max calls, uses = .init (some max) :: calls ∧ ∀ use ∈ calls, ∃ given, use = .call given true

theorem Fit.call {uses : List Use} (fit : Fit uses) (given : Nat) :
    Fit (uses ++ [.call given true]) := by
  obtain ⟨max, calls, rfl, all⟩ := fit
  refine ⟨max, calls ++ [.call given true], rfl, ?_⟩
  simpa [or_imp, forall_and] using all

theorem fit_init {uses : List Use} {max : Nat} (fresh : uses = []) :
    Fit (uses ++ [.init (some max)]) :=
  ⟨max, [], by rw [fresh]; rfl, by simp⟩

namespace Thread

/-- Between the pop and the decrement. -/
def popped : Thread → Bool
  | .polled _ => true
  | _ => false

/-- Between the increment and the push, or the decrement that takes it back. -/
def counted : Thread → Bool
  | .offering _ => true
  | .overfull _ => true
  | _ => false

/-- Inside an operation. -/
def inside : Thread → Bool
  | .returned => false
  | .threw => false
  | _ => true

/-- The instance a thread has. -/
def holds : Thread → Option Nat
  | .polled guest => some guest
  | .initialising _ guest => some guest
  | .calling guest => some guest
  | .releasing guest => some guest
  | .offering guest => some guest
  | .overfull guest => some guest
  | _ => none

def point : Thread → Counted.Point Nat Use
  | .polled guest => .popped guest
  | .initialising _ guest => .holding guest (· = [])
  | .calling guest => .holding guest Fit
  | .releasing guest => .holding guest Fit
  | .offering guest => .reserved guest
  | .overfull guest => .overfull guest
  | _ => .outside

theorem resource_point (t : Thread) : t.point.resource = t.holds := by cases t <;> rfl

theorem counted_point (t : Thread) :
    t.point.counted.toNat = t.counted.toNat + t.popped.toNat := by
  cases t <;> rfl

theorem counted_of_inside (t : Thread) (outside : t.inside = false) : t.point.counted = false := by
  cases t <;> first | rfl | cases outside

end Thread

namespace State

def pool (s : State) : Counted.Pool Nat Use where
  queued := Multiset.ofList s.idle
  count := s.idleCount
  threads := points Thread.point s.threads
  log := s.log
  gone := Multiset.ofList s.dropped
  made := Multiset.range s.created

end State

/-- The machine as a counted pool. -/
def view : Counted.View State Thread Nat Use where
  pool := State.pool
  threads := State.threads
  point := Thread.point
  holds := Thread.holds
  move := State.move
  enter s t := { s with threads := s.threads ++ [t] }
  resource_point := Thread.resource_point
  threads_pool _ := rfl
  pool_move _ _ _ := rfl
  pool_enter _ _ := rfl

/-- Every step is steps of a counted pool. -/
theorem moves_of_step {maxIdle : Nat} {s s' : State} {e : Event} (h : s.step maxIdle e = some s') :
    ReflTransGen (Move Fit maxIdle) s.pool s'.pool := by
  cases e with
  | call =>
    cases h
    exact view.enters s .polling rfl
  | prime =>
    cases h
    exact view.enters s (.making .prime) rfl
  | pollFirst i =>
    simp only [State.step] at h
    split at h
    · next guest idle at_ queued =>
      cases h
      refine view.moves at_ { s with idle := idle } (.polled guest) rfl fun before => ?_
      have head : s.pool.queued = guest ::ₘ Multiset.ofList idle := congrArg Multiset.ofList queued
      exact .single (.pop before head)
    · next at_ _ =>
      cases h
      exact view.stay at_ (.making .call) rfl
    · cases h
  | decrementAndGet i =>
    simp only [State.step] at h
    split at h
    · next guest at_ =>
      cases h
      refine view.moves at_ { s with idleCount := s.idleCount - 1 } (.calling guest) rfl
        fun before => ?_
      exact .single (.settle before)
    · next guest at_ =>
      cases h
      refine view.moves at_ { s with idleCount := s.idleCount - 1, dropped := guest :: s.dropped }
        .returned rfl fun before => ?_
      exact .tail (.single (.takeBack before)) (.discard rfl)
    · cases h
  | newGuest i made =>
    simp only [State.step] at h
    split at h
    · next purpose at_ =>
      split at h
      · cases h
        refine view.moves at_ { s with created := s.created + 1 }
          (.initialising purpose s.created) rfl fun before => ?_
        have fresh : s.created ∉ s.pool.made := Multiset.notMem_range_self
        have made : Multiset.range (s.created + 1) = s.created ::ₘ s.pool.made :=
          Multiset.range_succ s.created
        have step : Move Fit maxIdle s.pool _ := .make before fresh
        rw [← made] at step
        exact .single step
      · cases h
        exact view.stay at_ .threw rfl
    · cases h
  | init i answer =>
    simp only [State.step] at h
    split at h
    · next purpose guest at_ =>
      cases answer with
      | none =>
        cases h
        refine view.moves at_ { s.record guest (.init none) with dropped := guest :: s.dropped }
          .threw rfl fun {rest} before => ?_
        have used : Move Fit maxIdle s.pool
            { s.pool with
              threads := .holding guest (fun _ => True) ::ₘ rest
              log := (s.record guest (.init none)).log } := .use before _ fun _ _ => trivial
        exact .tail (.single used) (.discard rfl)
      | some max =>
        cases h
        refine view.moves at_ { s.record guest (.init (some max)) with maxInputBytes := max }
          (purpose.next guest) rfl fun before => ?_
        have used : Move Fit maxIdle s.pool _ := .use before (.init (some max)) fun _ => fit_init
        cases purpose <;> exact .single used
    · cases h
  | run i returned =>
    simp only [State.step] at h
    split at h
    · next guest at_ =>
      cases returned with
      | true =>
        cases h
        refine view.moves at_ (s.record guest (.call s.maxInputBytes true)) (.releasing guest) rfl
          fun before => ?_
        have used : Move Fit maxIdle s.pool _ := .use before _ fun _ fit => fit.call s.maxInputBytes
        exact .single used
      | false =>
        cases h
        refine view.moves at_
          { s.record guest (.call s.maxInputBytes false) with dropped := guest :: s.dropped }
          .threw rfl fun {rest} before => ?_
        have used : Move Fit maxIdle s.pool
            { s.pool with
              threads := .holding guest (fun _ => True) ::ₘ rest
              log := (s.record guest (.call s.maxInputBytes false)).log } :=
          .use before _ fun _ _ => trivial
        exact .tail (.single used) (.discard rfl)
    · cases h
  | incrementAndGet i =>
    simp only [State.step] at h
    split at h
    · next guest at_ =>
      cases h
      by_cases within : s.idleCount + 1 ≤ (maxIdle : Int)
      · rw [if_pos within]
        refine view.moves at_ { s with idleCount := s.idleCount + 1 } (.offering guest) rfl
          fun before => ?_
        exact .single (.reserve before (fun _ => id) within)
      · rw [if_neg within]
        refine view.moves at_ { s with idleCount := s.idleCount + 1 } (.overfull guest) rfl
          fun before => ?_
        exact .single (.overflow before fun _ => id)
    · cases h
  | offerFirst i =>
    simp only [State.step] at h
    split at h
    · next guest at_ =>
      cases h
      refine view.moves at_ { s with idle := guest :: s.idle } .returned rfl fun before => ?_
      exact .single (.push before)
    · cases h

theorem sound_run {maxIdle : Nat} {events : List Event} {s : State}
    (run : State.run maxIdle events = some s) : Counted.Sound Fit maxIdle s.pool :=
  view.sound_run moves_of_step (Counted.sound_of_empty rfl rfl rfl rfl rfl fun _ => rfl) run

/-- What the pool promises of a state. -/
structure State.Exact (maxIdle : Nat) (s : State) : Prop where
  count : s.idleCount =
    s.idle.length + (s.threads.countP Thread.counted + s.threads.countP Thread.popped : Nat)
  nonneg : 0 ≤ s.idleCount
  bound : s.idle.length ≤ maxIdle
  settled : (∀ t ∈ s.threads, t.inside = false) → s.idleCount = s.idle.length
  once : s.idle.Nodup
  apart : ∀ guest ∈ s.idle, ∀ t ∈ s.threads, t.holds ≠ some guest
  alone : ∀ (i j : Nat) (t t' : Thread) guest, s.threads[i]? = some t → s.threads[j]? = some t' →
    t.holds = some guest → t'.holds = some guest → i = j
  fit : ∀ guest ∈ s.idle, Fit (s.log guest)

theorem exact_of_sound {maxIdle : Nat} {s : State} (sound : Counted.Sound Fit maxIdle s.pool) :
    s.Exact maxIdle := by
  have count : s.idleCount =
      s.idle.length + (s.threads.countP Thread.counted + s.threads.countP Thread.popped : Nat) := by
    rw [← Counted.counting_points Thread.counted_point]
    exact sound.count
  exact {
    count
    nonneg := sound.count_nonneg
    bound := sound.queued_le
    settled outside := sound.settled rfl fun t mem => t.counted_of_inside (outside t mem)
    once := sound.queued_nodup
    apart _ := view.apart sound
    alone _ _ _ _ _ := view.alone sound
    fit := sound.fit }

end JavaWasm.GuestPool

namespace Dotnet.InstancePool

/-- `init` was accepted, and no call failed since. -/
def Fit (uses : List Use) : Prop :=
  ∃ max calls, uses = .start (some max) :: calls ∧ ∀ use ∈ calls, use = .call true

theorem Fit.call {uses : List Use} (fit : Fit uses) : Fit (uses ++ [.call true]) := by
  obtain ⟨max, calls, rfl, all⟩ := fit
  refine ⟨max, calls ++ [.call true], rfl, ?_⟩
  simpa [or_imp, forall_and] using all

theorem fit_start {uses : List Use} {max : Nat} (fresh : uses = []) :
    Fit (uses ++ [.start (some max)]) :=
  ⟨max, [], by rw [fresh]; rfl, by simp⟩

namespace Thread

/-- Between the pop and the decrement. -/
def isPopped : Thread → Bool
  | .popped _ => true
  | _ => false

/-- Between the increment and the push, or the decrement that takes it back. -/
def counted : Thread → Bool
  | .pushing _ => true
  | .overfull _ => true
  | _ => false

/-- Inside an operation. -/
def inside : Thread → Bool
  | .returned => false
  | .threw => false
  | _ => true

/-- The instance a thread has. -/
def holds : Thread → Option Nat
  | .popped inst => some inst
  | .starting _ inst => some inst
  | .calling inst => some inst
  | .returning inst => some inst
  | .counting inst => some inst
  | .pushing inst => some inst
  | .overfull inst => some inst
  | .disposing inst _ => some inst
  | _ => none

def point : Thread → Counted.Point Nat Use
  | .popped inst => .popped inst
  | .starting _ inst => .holding inst (· = [])
  | .calling inst => .holding inst Fit
  | .returning inst => .holding inst Fit
  | .counting inst => .holding inst Fit
  | .pushing inst => .reserved inst
  | .overfull inst => .overfull inst
  | .disposing inst _ => .holding inst fun _ => True
  | _ => .outside

theorem resource_point (t : Thread) : t.point.resource = t.holds := by cases t <;> rfl

theorem counted_point (t : Thread) :
    t.point.counted.toNat = t.counted.toNat + t.isPopped.toNat := by
  cases t <;> rfl

theorem counted_of_inside (t : Thread) (outside : t.inside = false) : t.point.counted = false := by
  cases t <;> first | rfl | cases outside

end Thread

namespace State

def pool (s : State) : Counted.Pool Nat Use where
  queued := Multiset.ofList s.idle
  count := s.idleCount
  threads := points Thread.point s.threads
  log := s.log
  gone := Multiset.ofList s.disposed
  made := Multiset.range s.created

end State

/-- The machine as a counted pool. -/
def view : Counted.View State Thread Nat Use where
  pool := State.pool
  threads := State.threads
  point := Thread.point
  holds := Thread.holds
  move := State.move
  enter s t := { s with threads := s.threads ++ [t] }
  resource_point := Thread.resource_point
  threads_pool _ := rfl
  pool_move _ _ _ := rfl
  pool_enter _ _ := rfl

/-- Every step is steps of a counted pool. -/
theorem moves_of_step {processors : Nat} {s s' : State} {e : Event}
    (h : s.step processors e = some s') :
    ReflTransGen (Move Fit (maxIdle processors)) s.pool s'.pool := by
  cases e with
  | rent =>
    simp only [State.step] at h
    split at h
    · cases h
      exact view.enters s .renting rfl
    · cases h
  | tryPop i =>
    simp only [State.step] at h
    split at h
    · next inst idle at_ queued =>
      cases h
      refine view.moves at_ { s with idle := idle } (.popped inst) rfl fun before => ?_
      have head : s.pool.queued = inst ::ₘ Multiset.ofList idle := congrArg Multiset.ofList queued
      exact .single (.pop before head)
    · next at_ _ =>
      cases h
      exact view.stay at_ (.creating .rent) rfl
    · cases h
  | decrement i =>
    simp only [State.step] at h
    split at h
    · next inst at_ =>
      cases h
      refine view.moves at_ { s with idleCount := s.idleCount - 1 } (.calling inst) rfl
        fun before => ?_
      exact .single (.settle before)
    · next inst at_ =>
      cases h
      refine view.moves at_ { s with idleCount := s.idleCount - 1 } (.disposing inst false) rfl
        fun before => ?_
      exact .tail (.single (.takeBack before)) (.learn rfl fun _ => trivial)
    · cases h
  | new i made =>
    simp only [State.step] at h
    split at h
    · next purpose at_ =>
      split at h
      · cases h
        refine view.moves at_ { s with created := s.created + 1 } (.starting purpose s.created) rfl
          fun before => ?_
        have fresh : s.created ∉ s.pool.made := Multiset.notMem_range_self
        have made : Multiset.range (s.created + 1) = s.created ::ₘ s.pool.made :=
          Multiset.range_succ s.created
        have step : Move Fit (maxIdle processors) s.pool _ := .make before fresh
        rw [← made] at step
        exact .single step
      · cases h
        exact view.stay at_ .threw rfl
    · cases h
  | start i maxInputBytes =>
    simp only [State.step] at h
    split at h
    · next purpose inst at_ =>
      cases maxInputBytes with
      | none =>
        cases h
        refine view.moves at_ (s.record inst (.start none)) (.disposing inst true) rfl
          fun before => ?_
        exact .single (.use before _ fun _ _ => trivial)
      | some max =>
        cases h
        refine view.moves at_ (s.record inst (.start (some max))) (purpose.next inst) rfl
          fun before => ?_
        have used : Move Fit (maxIdle processors) s.pool _ :=
          .use before (.start (some max)) fun _ => fit_start
        cases purpose <;> exact .single used
    · cases h
  | call i returned =>
    simp only [State.step] at h
    split at h
    · next inst at_ =>
      cases returned with
      | true =>
        cases h
        refine view.moves at_ (s.record inst (.call true)) (.returning inst) rfl fun before => ?_
        exact .single (.use before _ fun _ => Fit.call)
      | false =>
        cases h
        refine view.moves at_ (s.record inst (.call false)) (.disposing inst false) rfl
          fun before => ?_
        exact .single (.use before _ fun _ _ => trivial)
    · cases h
  | memoryBytes i bytes =>
    simp only [State.step] at h
    split at h
    · next inst at_ =>
      cases h
      split
      · exact view.stay at_ (.counting inst) rfl
      · refine view.moves at_ s (.disposing inst false) rfl fun before => ?_
        exact .single (.learn before fun _ => trivial)
    · cases h
  | increment i =>
    simp only [State.step] at h
    split at h
    · next inst at_ =>
      cases h
      by_cases within : s.idleCount + 1 ≤ (maxIdle processors : Int)
      · rw [if_pos within]
        refine view.moves at_ { s with idleCount := s.idleCount + 1 } (.pushing inst) rfl
          fun before => ?_
        exact .single (.reserve before (fun _ => id) within)
      · rw [if_neg within]
        refine view.moves at_ { s with idleCount := s.idleCount + 1 } (.overfull inst) rfl
          fun before => ?_
        exact .single (.overflow before fun _ => id)
    · cases h
  | push i =>
    simp only [State.step] at h
    split at h
    · next inst at_ =>
      cases h
      refine view.moves at_ { s with idle := inst :: s.idle } .returned rfl fun before => ?_
      exact .single (.push before)
    · cases h
  | dispose i =>
    simp only [State.step] at h
    split at h
    · next inst throws at_ =>
      cases h
      refine view.moves at_ { s with disposed := inst :: s.disposed }
        (if throws then .threw else .returned) rfl fun before => ?_
      cases throws <;> exact .single (.discard before)
    · cases h

theorem sound_run {processors : Nat} {events : List Event} {s : State}
    (run : State.run processors events = some s) :
    Counted.Sound Fit (maxIdle processors) s.pool := by
  -- the constructor is the one thread at the start
  have empty : Counted.Sound Fit (maxIdle processors) { ({} : State).pool with threads := 0 } :=
    Counted.sound_of_empty rfl rfl rfl rfl rfl fun _ => rfl
  exact view.sound_run moves_of_step (Move.sound .enter empty) run

/-- What the pool promises of a state. -/
structure State.Exact (processors : Nat) (s : State) : Prop where
  count : s.idleCount =
    s.idle.length + (s.threads.countP Thread.counted + s.threads.countP Thread.isPopped : Nat)
  nonneg : 0 ≤ s.idleCount
  bound : s.idle.length ≤ maxIdle processors
  settled : (∀ t ∈ s.threads, t.inside = false) → s.idleCount = s.idle.length
  once : s.idle.Nodup
  apart : ∀ inst ∈ s.idle, ∀ t ∈ s.threads, t.holds ≠ some inst
  alone : ∀ (i j : Nat) (t t' : Thread) inst, s.threads[i]? = some t → s.threads[j]? = some t' →
    t.holds = some inst → t'.holds = some inst → i = j
  fit : ∀ inst ∈ s.idle, Fit (s.log inst)
  placed : ∀ inst, inst < s.created ↔
    inst ∈ s.idle ∨ (∃ t ∈ s.threads, t.holds = some inst) ∨ inst ∈ s.disposed
  disposed : ∀ inst ∈ s.disposed, inst ∉ s.idle ∧ ∀ t ∈ s.threads, t.holds ≠ some inst

theorem exact_of_sound {processors : Nat} {s : State}
    (sound : Counted.Sound Fit (maxIdle processors) s.pool) : s.Exact processors := by
  have count : s.idleCount =
      s.idle.length +
        (s.threads.countP Thread.counted + s.threads.countP Thread.isPopped : Nat) := by
    rw [← Counted.counting_points Thread.counted_point]
    exact sound.count
  exact {
    count
    nonneg := sound.count_nonneg
    bound := sound.queued_le
    settled outside := sound.settled rfl fun t mem => t.counted_of_inside (outside t mem)
    once := sound.queued_nodup
    apart _ := view.apart sound
    alone _ _ _ _ _ := view.alone sound
    fit := sound.fit
    placed inst := by
      rw [← Multiset.mem_range]
      exact view.mem_made sound
    disposed _ := view.gone_apart sound }

end Dotnet.InstancePool

/-- **The counted pools stay exact.** In every state that any number of threads reach in any order
of steps, the counter is the number of idle instances with the threads between an increment and its
push or decrement and those between a pop and its decrement; at most the bound are idle; an instance
is idle once, or with one thread; and an idle one had an accepted `init` and no failed call. In .NET
every instance is idle, held or disposed, and never two of these. -/
theorem countedPools_exact (idle processors : Nat) :
    (∀ events s, JavaWasm.GuestPool.State.run idle events = some s → s.Exact idle) ∧
    (∀ events s, Dotnet.InstancePool.State.run processors events = some s → s.Exact processors) :=
  ⟨fun _ _ run => JavaWasm.GuestPool.exact_of_sound (JavaWasm.GuestPool.sound_run run),
    fun _ _ run => Dotnet.InstancePool.exact_of_sound (Dotnet.InstancePool.sound_run run)⟩

/-- Two threads release at once with room for one: for a moment the counter is past the bound. In
.NET the instance of the constructor is on its way to a second thread. -/
theorem countedPools_exact_race :
    (∃ s, JavaWasm.GuestPool.State.run 1 [.prime, .prime, .newGuest 0 true, .newGuest 1 true,
        .init 0 (some 10), .init 1 (some 10), .incrementAndGet 0, .incrementAndGet 1,
        .offerFirst 0] = some s ∧ s.idle = [0] ∧ s.idleCount = 2 ∧ s.Exact 1) ∧
    (∃ s, Dotnet.InstancePool.State.run 1 [.new 0 true, .start 0 (some 10), .memoryBytes 0 100,
        .increment 0, .push 0, .rent, .tryPop 1] = some s ∧
      s.idle = [] ∧ s.idleCount = 1 ∧ s.Exact 1) := by
  constructor
  · have reached : ∃ s, JavaWasm.GuestPool.State.run 1 [.prime, .prime, .newGuest 0 true,
        .newGuest 1 true, .init 0 (some 10), .init 1 (some 10), .incrementAndGet 0,
        .incrementAndGet 1, .offerFirst 0] = some s ∧ s.idle = [0] ∧ s.idleCount = 2 :=
      ⟨_, rfl, rfl, rfl⟩
    obtain ⟨s, run, idle, count⟩ := reached
    exact ⟨s, run, idle, count, (countedPools_exact 1 1).1 _ s run⟩
  · have reached : ∃ s, Dotnet.InstancePool.State.run 1 [.new 0 true, .start 0 (some 10),
        .memoryBytes 0 100, .increment 0, .push 0, .rent, .tryPop 1] = some s ∧
        s.idle = [] ∧ s.idleCount = 1 := ⟨_, rfl, rfl, rfl⟩
    obtain ⟨s, run, idle, count⟩ := reached
    exact ⟨s, run, idle, count, (countedPools_exact 1 1).2 _ s run⟩

end ReceiptVerifier
