import Mathlib.Data.Multiset.Range
import ReceiptVerifier.JavaWasm.ServerConnection
import ReceiptVerifier.Lib.Counted
import ReceiptVerifier.Lib.Lease

/-!
# No connection outlives `close`

The idle connections are a counted pool (`Counted`), so each open one is idle or with one thread.
What `close` adds is a flag and a drain: once a `close` has drained the queue, whatever is added
later is drained by the `send` that added it, since it reads the flag after the add.
-/

namespace ReceiptVerifier.JavaWasm.ServerConnection

open Counted (Move points)
open Relation (ReflTransGen)

/-- Its last exchange left it reusable. -/
def Fit (uses : List Use) : Prop := uses.getLast? = some (.answered false)

/-- Opened for a target, and fresh or left reusable. -/
def Ready (target : Target) (uses : List Use) : Prop :=
  HttpConn.target uses = some target ∧ (uses = [.opened target] ∨ Fit uses)

/-- Its last exchange returned. -/
def Answered (uses : List Use) : Prop := ∃ close, uses.getLast? = some (.answered close)

theorem Answered.fit {uses : List Use} (answered : Answered uses)
    (reusable : HttpConn.reusable uses = true) : Fit uses := by
  obtain ⟨close, last⟩ := answered
  rw [HttpConn.reusable, last] at reusable
  cases close with
  | true => cases reusable
  | false => exact last

namespace Thread

/-- The connection a thread has. -/
def holds : Thread → Option Nat
  | .taken _ _ conn => some conn
  | .stale _ _ conn => some conn
  | .exchanging _ _ conn => some conn
  | .answered conn => some conn
  | .counting conn => some conn
  | .adding conn => some conn
  | .overfull conn => some conn
  | .closing conn => some conn
  | .failing _ conn => some conn
  | .drained _ conn => some conn
  | .discarding _ conn => some conn
  | _ => none

def point : Thread → Counted.Point Nat Use
  | .taken _ _ conn => .popped conn
  | .stale _ _ conn => .holding conn fun _ => True
  | .exchanging _ target conn => .holding conn (Ready target)
  | .answered conn => .holding conn Answered
  | .counting conn => .holding conn Fit
  | .adding conn => .reserved conn
  | .overfull conn => .overfull conn
  | .closing conn => .holding conn fun _ => True
  | .failing _ conn => .holding conn fun _ => True
  | .drained _ conn => .popped conn
  | .discarding _ conn => .holding conn fun _ => True
  | _ => .outside

theorem resource_point (t : Thread) : t.point.resource = t.holds := by cases t <;> rfl

theorem retry_point (attempt : Nat) : (retry attempt).point = .outside := by
  unfold retry
  split <;> rfl

end Thread

theorem Drain.done_point (drain : Drain) : drain.done.point = .outside := by cases drain <;> rfl

namespace State

def pool (s : State) : Counted.Pool Nat Use where
  queued := Multiset.ofList s.idle
  count := s.idleCount
  threads := points Thread.point s.threads
  log := s.uses
  gone := Multiset.ofList s.closedConns
  made := Multiset.range s.opened

end State

/-- The machine as a counted pool. -/
def view : Counted.View State Thread Nat Use where
  pool := State.pool
  threads := State.threads
  point := Thread.point
  holds := Thread.holds
  move := State.move
  enter s t := { s with threads := s.threads ++ [t] }
  resource_point := Thread.resource_point
  threads_pool _ := rfl
  pool_move _ _ _ := rfl
  pool_enter _ _ := rfl

/-! ## Each step -/

section

variable {fixed : Option Target} {maxIdle i : Nat} {s s' : State}

theorem moves_readClosed (h : s.step fixed maxIdle (.readClosed i) = some s') :
    ReflTransGen (Move Fit maxIdle) s.pool s'.pool := by
  simp only [State.step] at h
  split at h
  · next at_ =>
    cases h
    exact view.stay at_ _ (by split <;> rfl)
  · next conn at_ =>
    cases h
    split
    · refine view.moves at_ s (.closing conn) rfl fun before => ?_
      exact .single (.learn before fun _ => trivial)
    · next kept =>
      have reusable : HttpConn.reusable (s.uses conn) = true := by
        simp only [Bool.or_eq_true, not_or, Bool.not_eq_true', Bool.not_eq_false] at kept
        exact kept.1
      refine view.moves at_ s (.counting conn) rfl fun before => ?_
      exact .single (.learn before fun answered => answered.fit reusable)
  · next at_ =>
    cases h
    exact view.stay at_ _ (by split <;> rfl)
  · cases h

theorem moves_target {answer : Option Target}
    (h : s.step fixed maxIdle (.target i answer) = some s') :
    ReflTransGen (Move Fit maxIdle) s.pool s'.pool := by
  simp only [State.step] at h
  split at h
  · next at_ =>
    split at h <;>
      (cases h
       exact view.stay at_ _ rfl)
  · cases h

theorem moves_poll (h : s.step fixed maxIdle (.poll i) = some s') :
    ReflTransGen (Move Fit maxIdle) s.pool s'.pool := by
  simp only [State.step] at h
  split at h
  · next attempt target conn idle at_ queued =>
    cases h
    refine view.moves at_ { s with idle := idle } (.taken attempt target conn) rfl fun before => ?_
    exact .single (.pop before (congrArg Multiset.ofList queued))
  · next attempt target at_ _ =>
    cases h
    exact view.stay at_ (.opening attempt target) rfl
  · next drain conn idle at_ queued =>
    cases h
    refine view.moves at_ { s with idle := idle } (.drained drain conn) rfl fun before => ?_
    exact .single (.pop before (congrArg Multiset.ofList queued))
  · next drain at_ _ =>
    cases h
    exact view.stay at_ _ drain.done_point
  · cases h

theorem moves_decrementAndGet (h : s.step fixed maxIdle (.decrementAndGet i) = some s') :
    ReflTransGen (Move Fit maxIdle) s.pool s'.pool := by
  simp only [State.step] at h
  split at h
  · next attempt target conn at_ =>
    cases h
    split
    · next same =>
      refine view.moves at_ { s with idleCount := s.idleCount - 1 }
        (.exchanging attempt target conn) rfl fun before => ?_
      exact .tail (.single (.settle before)) (.learn rfl fun fit => ⟨same, .inr fit⟩)
    · refine view.moves at_ { s with idleCount := s.idleCount - 1 } (.stale attempt target conn) rfl
        fun before => ?_
      exact .tail (.single (.settle before)) (.learn rfl fun _ => trivial)
  · next conn at_ =>
    cases h
    refine view.moves at_ { s with idleCount := s.idleCount - 1 } (.closing conn) rfl
      fun before => ?_
    exact .tail (.single (.takeBack before)) (.learn rfl fun _ => trivial)
  · next drain conn at_ =>
    cases h
    refine view.moves at_ { s with idleCount := s.idleCount - 1 } (.discarding drain conn) rfl
      fun before => ?_
    exact .tail (.single (.settle before)) (.learn rfl fun _ => trivial)
  · cases h

theorem moves_incrementAndGet (h : s.step fixed maxIdle (.incrementAndGet i) = some s') :
    ReflTransGen (Move Fit maxIdle) s.pool s'.pool := by
  simp only [State.step] at h
  split at h
  · next conn at_ =>
    cases h
    by_cases within : s.idleCount + 1 ≤ (maxIdle : Int)
    · rw [if_pos within]
      refine view.moves at_ { s with idleCount := s.idleCount + 1 } (.adding conn) rfl
        fun before => ?_
      exact .single (.reserve before (fun _ => id) within)
    · rw [if_neg within]
      refine view.moves at_ { s with idleCount := s.idleCount + 1 } (.overfull conn) rfl
        fun before => ?_
      exact .single (.overflow before fun _ => id)
  · cases h

theorem moves_add (h : s.step fixed maxIdle (.add i) = some s') :
    ReflTransGen (Move Fit maxIdle) s.pool s'.pool := by
  simp only [State.step] at h
  split at h
  · next conn at_ =>
    cases h
    refine view.moves at_ { s with idle := s.idle ++ [conn] } .added rfl fun before => ?_
    have last : Multiset.ofList (s.idle ++ [conn]) = conn ::ₘ s.pool.queued :=
      Multiset.coe_eq_coe.mpr (List.perm_append_singleton conn s.idle)
    have pushed : Move Fit maxIdle s.pool _ := .push before
    rw [← last] at pushed
    exact .single pushed
  · cases h

theorem moves_open {returned : Bool} (h : s.step fixed maxIdle (.open_ i returned) = some s') :
    ReflTransGen (Move Fit maxIdle) s.pool s'.pool := by
  simp only [State.step] at h
  split at h
  · next attempt target at_ =>
    split at h
    · cases h
      refine view.moves at_ { s.record s.opened (.opened target) with opened := s.opened + 1 }
        (.exchanging attempt target s.opened) rfl fun before => ?_
      have fresh : s.opened ∉ s.pool.made := Multiset.notMem_range_self
      have made : Multiset.range (s.opened + 1) = s.opened ::ₘ s.pool.made :=
        Multiset.range_succ s.opened
      have step : Move Fit maxIdle s.pool _ := .make before fresh
      rw [← made] at step
      have ready : ∀ l : List Use, l = [] → Ready target (l ++ [.opened target]) := by
        rintro l rfl
        exact ⟨rfl, .inl rfl⟩
      exact .tail (.single step) (.use rfl _ ready)
    · cases h
      exact view.stay at_ (.recovering attempt) rfl
  · cases h

theorem moves_exchange {answer : Option Bool}
    (h : s.step fixed maxIdle (.exchange i answer) = some s') :
    ReflTransGen (Move Fit maxIdle) s.pool s'.pool := by
  simp only [State.step] at h
  split at h
  · next attempt target conn at_ =>
    cases answer with
    | some close =>
      cases h
      refine view.moves at_ (s.record conn (.answered close)) (.answered conn) rfl fun before => ?_
      exact .single (.use before _ fun l _ => ⟨close, List.getLast?_concat⟩)
    | none =>
      cases h
      refine view.moves at_ (s.record conn .failed) (.failing attempt conn) rfl fun before => ?_
      exact .single (.use before _ fun _ _ => trivial)
  · cases h

theorem moves_closeConn (h : s.step fixed maxIdle (.closeConn i) = some s') :
    ReflTransGen (Move Fit maxIdle) s.pool s'.pool := by
  simp only [State.step] at h
  split at h
  · next attempt target conn at_ =>
    cases h
    refine view.moves at_ (s.closeConn conn) (.taking attempt target) rfl fun before => ?_
    exact .single (.discard before)
  · next conn at_ =>
    cases h
    refine view.moves at_ (s.closeConn conn) .returned rfl fun before => ?_
    exact .single (.discard before)
  · next attempt conn at_ =>
    cases h
    refine view.moves at_ (s.closeConn conn) (.recovering attempt) rfl fun before => ?_
    exact .single (.discard before)
  · next drain conn at_ =>
    cases h
    refine view.moves at_ (s.closeConn conn) (.draining drain) rfl fun before => ?_
    exact .single (.discard before)
  · cases h

end

/-- Every step is steps of a counted pool. -/
theorem moves_of_step {fixed : Option Target} {maxIdle : Nat} {s s' : State} {e : Event}
    (h : s.step fixed maxIdle e = some s') :
    ReflTransGen (Move Fit maxIdle) s.pool s'.pool := by
  cases e with
  | send =>
    cases h
    exact view.enters s (.checking 0) rfl
  | close =>
    cases h
    exact view.enters s .shutting rfl
  | readClosed i => exact moves_readClosed h
  | target i answer => exact moves_target h
  | poll i => exact moves_poll h
  | decrementAndGet i => exact moves_decrementAndGet h
  | incrementAndGet i => exact moves_incrementAndGet h
  | add i => exact moves_add h
  | open_ i returned => exact moves_open h
  | exchange i answer => exact moves_exchange h
  | closeConn i => exact moves_closeConn h
  | recover i =>
    simp only [State.step] at h
    split at h
    · next attempt at_ =>
      cases h
      exact view.stay at_ _ (Thread.retry_point attempt)
    · cases h
  | writeClosed i =>
    simp only [State.step] at h
    split at h
    · next at_ =>
      cases h
      exact view.stay at_ (.draining .close) rfl
    · cases h
  | stop i =>
    simp only [State.step] at h
    split at h
    · next at_ =>
      cases h
      exact view.stay at_ .shut rfl
    · cases h

theorem sound_run {fixed : Option Target} {maxIdle : Nat} {events : List Event} {s : State}
    (run : State.run fixed maxIdle events = some s) : Counted.Sound Fit maxIdle s.pool :=
  view.sound_run moves_of_step (Counted.sound_of_empty rfl rfl rfl rfl rfl fun _ => rfl) run

/-! ## Who drains -/

namespace Thread

/-- A `close` that has written `closed`. -/
def flagged : Thread → Bool
  | .draining .close => true
  | .drained .close _ => true
  | .discarding .close _ => true
  | .stopping => true
  | .shut => true
  | _ => false

/-- A `close` that found the queue empty. -/
def emptied : Thread → Bool
  | .stopping => true
  | .shut => true
  | _ => false

/-- A `send` that added a connection and reads `closed` next, or drains. -/
def drains : Thread → Bool
  | .added => true
  | .draining .send => true
  | .drained .send _ => true
  | .discarding .send _ => true
  | _ => false

theorem flagged_of_emptied (t : Thread) (emptied : t.emptied = true) : t.flagged = true := by
  cases t <;> first | rfl | cases emptied

end Thread

/-- The flag is up once a `close` is past it, and what came after a `close` emptied the queue has a
`send` that drains it. -/
structure Closing (s : State) : Prop where
  flag : s.threads.any Thread.flagged = true → s.closed = true
  drain : s.threads.any Thread.emptied = true → s.idle ≠ [] → s.threads.any Thread.drains = true

section

variable {s s' : State} {i : Nat} {t t' : Thread}

/-- What holds of some thread, before and after one of them moves. -/
theorem exists_others {threads : List Thread} (at_ : threads[i]? = some t) :
    ∃ rest : List Thread, ∀ p : Thread → Bool, threads.any p = (p t || rest.any p) ∧
      ∀ t', (threads.set i t').any p = (p t' || rest.any p) := by
  obtain ⟨inside, own⟩ := List.getElem?_eq_some_iff.mp at_
  refine ⟨threads.eraseIdx i, fun p => ⟨?_, fun t' => ?_⟩⟩
  · rw [← (List.getElem_cons_eraseIdx_perm inside).any_eq, List.any_cons, own]
  · rw [(List.set_perm_cons_eraseIdx inside t').any_eq, List.any_cons]

/-- A thread that neither starts nor stops to drain. -/
theorem Closing.move (inv : Closing s) (at_ : s.threads[i]? = some t)
    (threads : s'.threads = s.threads.set i t') (closed : s'.closed = s.closed)
    (idle : s'.idle ≠ [] → s.idle ≠ []) (flagged : t'.flagged = t.flagged)
    (emptied : t'.emptied = t.emptied) (drains : t'.drains = t.drains) : Closing s' := by
  obtain ⟨rest, others⟩ := exists_others at_
  have same : ∀ p : Thread → Bool, p t' = p t → s'.threads.any p = s.threads.any p := by
    intro p own
    rw [threads, (others p).2, (others p).1, own]
  constructor
  · rw [same _ flagged, closed]
    exact inv.flag
  · rw [same _ emptied, same _ drains]
    exact fun any some => inv.drain any (idle some)

/-- A thread that drains from now on. -/
theorem Closing.start (inv : Closing s) (at_ : s.threads[i]? = some t)
    (threads : s'.threads = s.threads.set i t')
    (closed : s'.closed = s.closed) (flagged : t'.flagged = t.flagged)
    (drains : t'.drains = true) : Closing s' := by
  obtain ⟨rest, others⟩ := exists_others at_
  constructor
  · rw [threads, (others _).2, flagged, ← (others _).1, closed]
    exact inv.flag
  · intro _ _
    rw [threads, (others _).2, drains, Bool.true_or]

/-- A thread that found the queue empty. -/
theorem Closing.stop (inv : Closing s) (at_ : s.threads[i]? = some t)
    (threads : s'.threads = s.threads.set i t') (closed : s'.closed = s.closed)
    (flagged : t'.flagged = t.flagged) (empty : s'.idle = []) : Closing s' := by
  obtain ⟨rest, others⟩ := exists_others at_
  constructor
  · rw [threads, (others _).2, flagged, ← (others _).1, closed]
    exact inv.flag
  · exact fun _ some => absurd empty some

/-- A thread that read the flag down: had a `close` emptied the queue, it would have been up. -/
theorem Closing.leave (inv : Closing s) (at_ : s.threads[i]? = some t)
    (threads : s'.threads = s.threads.set i t')
    (down : s.closed = false) (flagged : t'.flagged = false) (emptied : t'.emptied = false) :
    Closing s' := by
  obtain ⟨rest, others⟩ := exists_others at_
  have unflagged : rest.any Thread.flagged = false := by
    cases any : rest.any Thread.flagged with
    | false => rfl
    | true =>
      have up := inv.flag (by rw [(others _).1, any, Bool.or_true])
      rw [down] at up
      cases up
  constructor
  · rw [threads, (others _).2, flagged, unflagged]
    rintro ⟨⟩
  · rw [threads, (others _).2, emptied, Bool.false_or]
    intro any
    obtain ⟨t, mem, own⟩ := List.any_eq_true.mp any
    have some := List.any_eq_true.mpr ⟨t, mem, t.flagged_of_emptied own⟩
    rw [unflagged] at some
    cases some

/-- The thread that raises the flag. -/
theorem Closing.raise (inv : Closing s) (at_ : s.threads[i]? = some t)
    (threads : s'.threads = s.threads.set i t') (closed : s'.closed = true)
    (idle : s'.idle = s.idle) (emptied : t'.emptied = t.emptied) (drains : t'.drains = t.drains) :
    Closing s' := by
  obtain ⟨rest, others⟩ := exists_others at_
  refine ⟨fun _ => closed, ?_⟩
  rw [threads, idle, (others _).2, (others _).2, emptied, drains, ← (others _).1, ← (others _).1]
  exact inv.drain

theorem Closing.enter (inv : Closing s) (threads : s'.threads = s.threads ++ [t])
    (closed : s'.closed = s.closed) (idle : s'.idle = s.idle) (flagged : t.flagged = false)
    (emptied : t.emptied = false) (drains : t.drains = false) : Closing s' := by
  have same : ∀ p : Thread → Bool, p t = false → s'.threads.any p = s.threads.any p := by
    intro p own
    simp [threads, own]
  constructor
  · rw [same _ flagged, closed]
    exact inv.flag
  · rw [same _ emptied, same _ drains, idle]
    exact inv.drain

end

theorem closing_step {fixed : Option Target} {maxIdle : Nat} {s s' : State} {e : Event}
    (h : s.step fixed maxIdle e = some s') (inv : Closing s) : Closing s' := by
  cases e with
  | send =>
    cases h
    exact inv.enter rfl rfl rfl rfl rfl rfl
  | close =>
    cases h
    exact inv.enter rfl rfl rfl rfl rfl rfl
  | readClosed i =>
    simp only [State.step] at h
    split at h
    · next at_ =>
      cases h
      split <;> exact inv.move at_ rfl rfl id rfl rfl rfl
    · next at_ =>
      cases h
      split <;> exact inv.move at_ rfl rfl id rfl rfl rfl
    · next at_ =>
      cases h
      split
      · exact inv.move at_ rfl rfl id rfl rfl rfl
      · next unflagged =>
        exact inv.leave at_ rfl (Bool.eq_false_iff.mpr unflagged) rfl rfl
    · cases h
  | target i answer =>
    simp only [State.step] at h
    split at h
    · next at_ => split at h <;> (cases h; exact inv.move at_ rfl rfl id rfl rfl rfl)
    · cases h
  | poll i =>
    simp only [State.step] at h
    split at h
    · next at_ queued =>
      cases h
      exact inv.move at_ rfl rfl (fun _ => by simp [queued]) rfl rfl rfl
    · next at_ _ =>
      cases h
      exact inv.move at_ rfl rfl id rfl rfl rfl
    · next drain conn idle at_ queued =>
      cases h
      cases drain <;> exact inv.move at_ rfl rfl (fun _ => by simp [queued]) rfl rfl rfl
    · next drain at_ empty =>
      cases h
      cases drain <;> exact inv.stop at_ rfl rfl rfl empty
    · cases h
  | decrementAndGet i =>
    simp only [State.step] at h
    split at h
    · next at_ =>
      cases h
      split <;> exact inv.move at_ rfl rfl id rfl rfl rfl
    · next at_ =>
      cases h
      exact inv.move at_ rfl rfl id rfl rfl rfl
    · next drain conn at_ =>
      cases h
      cases drain <;> exact inv.move at_ rfl rfl id rfl rfl rfl
    · cases h
  | incrementAndGet i =>
    simp only [State.step] at h
    split at h
    · next at_ =>
      cases h
      split <;> exact inv.move at_ rfl rfl id rfl rfl rfl
    · cases h
  | add i =>
    simp only [State.step] at h
    split at h
    · next at_ =>
      cases h
      exact inv.start at_ rfl rfl rfl rfl
    · cases h
  | open_ i returned =>
    simp only [State.step] at h
    split at h
    · next at_ => split at h <;> (cases h; exact inv.move at_ rfl rfl id rfl rfl rfl)
    · cases h
  | exchange i answer =>
    simp only [State.step] at h
    split at h
    · next at_ => split at h <;> (cases h; exact inv.move at_ rfl rfl id rfl rfl rfl)
    · cases h
  | closeConn i =>
    simp only [State.step] at h
    split at h
    · next at_ =>
      cases h
      exact inv.move at_ rfl rfl id rfl rfl rfl
    · next at_ =>
      cases h
      exact inv.move at_ rfl rfl id rfl rfl rfl
    · next at_ =>
      cases h
      exact inv.move at_ rfl rfl id rfl rfl rfl
    · next drain conn at_ =>
      cases h
      cases drain <;> exact inv.move at_ rfl rfl id rfl rfl rfl
    · cases h
  | recover i =>
    simp only [State.step] at h
    split at h
    · next attempt at_ =>
      cases h
      unfold Thread.retry
      split <;> exact inv.move at_ rfl rfl id rfl rfl rfl
    · cases h
  | writeClosed i =>
    simp only [State.step] at h
    split at h
    · next at_ =>
      cases h
      exact inv.raise at_ rfl rfl rfl rfl rfl
    · cases h
  | stop i =>
    simp only [State.step] at h
    split at h
    · next at_ =>
      cases h
      exact inv.move at_ rfl rfl id rfl rfl rfl
    · cases h

theorem closing_run {fixed : Option Target} {maxIdle : Nat} {events : List Event} {s : State}
    (run : State.run fixed maxIdle events = some s) : Closing s :=
  rel_of_foldlM (R := fun s s' => Closing s → Closing s') (fun _ => id)
    (fun first second inv => second (first inv)) closing_step run ⟨nofun, nofun⟩

/-! ## What is promised -/

namespace Thread

/-- In a `close` that has not returned. -/
def shuttingDown : Thread → Bool
  | .shutting => true
  | .draining .close => true
  | .drained .close _ => true
  | .discarding .close _ => true
  | .stopping => true
  | _ => false

/-- Returned or threw. -/
def ended : Thread → Bool
  | .returned => true
  | .threw => true
  | .shut => true
  | _ => false

/-- In a `send` that has not returned. -/
def sending (t : Thread) : Bool := !t.ended && !t.shuttingDown

theorem sending_of_drains (t : Thread) (drains : t.drains = true) : t.sending = true := by
  cases t with
  | added => rfl
  | draining drain | drained drain _ | discarding drain _ =>
    cases drain
    · rfl
    · cases drains
  | _ => cases drains

theorem holds_of_ended (t : Thread) (ended : t.ended = true) : t.holds = none := by
  cases t <;> first | rfl | cases ended

theorem counted_of_ended (t : Thread) (ended : t.ended = true) : t.point.counted = false := by
  cases t <;> first | rfl | cases ended

end Thread

/-- What holds of the connections in every state. -/
structure State.Safe (maxIdle : Nat) (s : State) : Prop where
  bound : s.idle.length ≤ maxIdle
  once : s.idle.Nodup
  /-- An open connection is idle or with a thread. -/
  placed : ∀ conn, conn < s.opened ∧ conn ∉ s.closedConns ↔
    conn ∈ s.idle ∨ ∃ t ∈ s.threads, t.holds = some conn
  apart : ∀ conn ∈ s.idle, ∀ t ∈ s.threads, t.holds ≠ some conn
  alone : ∀ (i j : Nat) (t t' : Thread) conn, s.threads[i]? = some t → s.threads[j]? = some t' →
    t.holds = some conn → t'.holds = some conn → i = j
  /-- A request goes out on a connection to its attempt's target, new or left reusable. -/
  ready : ∀ attempt target conn, .exchanging attempt target conn ∈ s.threads →
    HttpConn.target (s.uses conn) = some target ∧
      (s.uses conn = [.opened target] ∨ (s.uses conn).getLast? = some (.answered false))

section

variable {maxIdle : Nat} {s : State}

theorem safe_of_sound (sound : Counted.Sound Fit maxIdle s.pool) : s.Safe maxIdle := by
  have placed : ∀ conn, conn < s.opened ∧ conn ∉ s.closedConns ↔
      conn ∈ s.idle ∨ ∃ t ∈ s.threads, t.holds = some conn := by
    intro conn
    have made := view.mem_made sound (r := conn)
    constructor
    · rintro ⟨opened, unclosed⟩
      rcases made.mp (Multiset.mem_range.mpr opened) with idle | held | gone
      · exact .inl idle
      · exact .inr held
      · exact absurd gone unclosed
    · intro somewhere
      refine ⟨Multiset.mem_range.mp (made.mpr (somewhere.imp id .inl)), fun gone => ?_⟩
      obtain ⟨unqueued, unheld⟩ := view.gone_apart sound gone
      rcases somewhere with idle | ⟨t, mem, has⟩
      · exact unqueued idle
      · exact unheld t mem has
  exact {
    bound := sound.queued_le
    once := sound.queued_nodup
    placed
    apart _ := view.apart sound
    alone _ _ _ _ _ := view.alone sound
    ready _ _ _ mem := sound.holds _ (List.mem_map_of_mem mem) }

theorem idle_eq_nil (closing : Closing s) (shut : .shut ∈ s.threads)
    (sent : ∀ t ∈ s.threads, t.sending = false) : s.idle = [] := by
  by_contra some
  have emptied : s.threads.any Thread.emptied = true := List.any_eq_true.mpr ⟨_, shut, rfl⟩
  obtain ⟨t, mem, drains⟩ := List.any_eq_true.mp (closing.drain emptied some)
  have sending := t.sending_of_drains drains
  rw [sent t mem] at sending
  cases sending

end

/-- **No connection outlives `close`.** In every state that any number of threads in `send` and
`close` reach, an open connection is idle once or with one thread, at most the bound are idle, and a
request goes out on a connection to the target of its attempt, new or left reusable. Once a `close`
has returned and every `send` is over, nothing is idle and a connection still open is with another
`close`; when that is over too, every connection is closed and the counter is 0. -/
theorem connections_closed (fixed : Option Target) (maxIdle : Nat) (events : List Event) (s : State)
    (run : State.run fixed maxIdle events = some s) :
    s.Safe maxIdle ∧
    (.shut ∈ s.threads → (∀ t ∈ s.threads, t.sending = false) →
      s.idle = [] ∧
      (∀ conn < s.opened, conn ∈ s.closedConns ∨
        ∃ t ∈ s.threads, t.shuttingDown = true ∧ t.holds = some conn) ∧
      ((∀ t ∈ s.threads, t.shuttingDown = false) →
        (∀ conn < s.opened, conn ∈ s.closedConns) ∧ s.idleCount = 0)) := by
  have sound := sound_run run
  have safe := safe_of_sound sound
  refine ⟨safe, fun shut sent => ?_⟩
  have empty := idle_eq_nil (closing_run run) shut sent
  have left : ∀ conn < s.opened, conn ∈ s.closedConns ∨
      ∃ t ∈ s.threads, t.shuttingDown = true ∧ t.holds = some conn := by
    intro conn opened
    by_contra lost
    obtain ⟨unclosed, unheld⟩ := not_or.mp lost
    rcases (safe.placed conn).mp ⟨opened, unclosed⟩ with idle | ⟨t, mem, has⟩
    · rw [empty] at idle
      cases idle
    · have idled := sent t mem
      cases down : t.shuttingDown with
      | true => exact unheld ⟨t, mem, down, has⟩
      | false =>
        have ended : t.ended = true := by simpa [Thread.sending, down] using idled
        rw [t.holds_of_ended ended] at has
        cases has
  refine ⟨empty, left, fun alone => ⟨fun conn opened => ?_, ?_⟩⟩
  · rcases left conn opened with gone | ⟨t, mem, down, -⟩
    · exact gone
    · rw [alone t mem] at down
      cases down
  · have ended : ∀ t ∈ s.threads, t.ended = true := by
      intro t mem
      simpa [Thread.sending, alone t mem] using sent t mem
    have count : s.idleCount = s.idle.length :=
      sound.settled rfl fun t mem => t.counted_of_ended (ended t mem)
    rw [count, empty]
    rfl

/-- A `send` whose connection stays idle, then two calls of `close`: the second has returned while
the first has the connection in hand. -/
def overlapping : List Event :=
  [.send, .readClosed 0, .target 0 none, .poll 0, .open_ 0 true, .exchange 0 (some false),
    .readClosed 0, .incrementAndGet 0, .add 0, .readClosed 0,
    .close, .writeClosed 1, .poll 1, .close, .writeClosed 2, .poll 2, .stop 2]

theorem connections_closed_overlapping :
    ∃ s, State.run (some 7) 2 overlapping = some s ∧
      .shut ∈ s.threads ∧ (∀ t ∈ s.threads, t.sending = false) ∧
      s.opened = 1 ∧ s.closedConns = [] ∧ s.idleCount = 1 :=
  ⟨_, rfl, by decide, by decide, rfl, rfl, rfl⟩

/-- The first `close` goes on: its connection is closed. -/
theorem connections_closed_both :
    ∃ s, State.run (some 7) 2
      (overlapping ++ [.decrementAndGet 1, .closeConn 1, .poll 1, .stop 1]) =
        some s ∧
      s.closedConns = [0] ∧ (∀ conn < s.opened, conn ∈ s.closedConns) ∧ s.idleCount = 0 := by
  have reached : ∃ s, State.run (some 7) 2
      (overlapping ++ [.decrementAndGet 1, .closeConn 1, .poll 1, .stop 1]) = some s ∧
      s.closedConns = [0] ∧ .shut ∈ s.threads ∧ (∀ t ∈ s.threads, t.sending = false) ∧
      ∀ t ∈ s.threads, t.shuttingDown = false := ⟨_, rfl, rfl, by decide, by decide, by decide⟩
  obtain ⟨s, run, closed, shut, sent, alone⟩ := reached
  exact ⟨s, run, closed, ((connections_closed _ _ _ s run).2 shut sent).2.2 alone⟩

end ReceiptVerifier.JavaWasm.ServerConnection
