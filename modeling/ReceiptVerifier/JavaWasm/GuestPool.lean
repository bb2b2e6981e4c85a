import Mathlib.Logic.Function.Basic

/-!
# The java-wasm host's instances

`GuestPool.java`: instances of the module, kept on a deque beside a counter that bounds it. The
state is moved by any number of threads, one deque operation, one counter operation or one use of an
instance at a time. Instances are pointers.
-/

namespace ReceiptVerifier

namespace JavaWasm

namespace GuestPool

/-- What was done with an instance. -/
inductive Use
  /-- `init` and the reading of its answer: the length it stated, or a failure. -/
  | init (answer : Option Nat)
  /-- `call.run`, with the `maxInputBytes` it was handed, and whether it returned. -/
  | call (maxInputBytes : Nat) (returned : Bool)
deriving DecidableEq, Repr

/-- What asked for a fresh instance. -/
inductive Purpose
  | call
  | prime
deriving DecidableEq, Repr

/-- Where a thread is, in `call` or in `prime`. -/
inductive Thread
  /-- In `acquire`, before `idle.pollFirst()`. -/
  | polling
  /-- In `acquire`, before `idleCount.decrementAndGet()`. -/
  | polled (guest : Nat)
  /-- In `fresh`, before `factory.newGuest()`. -/
  | making (purpose : Purpose)
  /-- In `fresh`, before `guest.init(configJson)`. -/
  | initialising (purpose : Purpose) (guest : Nat)
  /-- In `call`, before `call.run`. -/
  | calling (guest : Nat)
  /-- In `release`, before `idleCount.incrementAndGet()`. -/
  | releasing (guest : Nat)
  /-- In `release`, before `idle.offerFirst(guest)`. -/
  | offering (guest : Nat)
  /-- In `release`, before `idleCount.decrementAndGet()`. -/
  | overfull (guest : Nat)
  | returned
  | threw
deriving DecidableEq, Repr

structure State where
  idle : List Nat := []
  idleCount : Int := 0
  created : Nat := 0
  maxInputBytes : Nat := 0
  threads : List Thread := []
  /-- For the record: what was done with each instance. -/
  log : Nat → List Use := fun _ => []
  /-- For the record: the instances nobody has a reference to any more. -/
  dropped : List Nat := []

namespace State

def move (s : State) (thread : Nat) (t : Thread) : State :=
  { s with threads := s.threads.set thread t }

def record (s : State) (guest : Nat) (use : Use) : State :=
  { s with log := Function.update s.log guest (s.log guest ++ [use]) }

/-- An exception leaves the method, and the instance with it. -/
def throw (s : State) (thread guest : Nat) : State :=
  { s.move thread .threw with dropped := guest :: s.dropped }

end State

/-- What a fresh instance is for. -/
def Purpose.next (guest : Nat) : Purpose → Thread
  | .call => .calling guest
  | .prime => .releasing guest

/-- What happens next, and what the module did. -/
inductive Event
  | call
  | prime
  | pollFirst (thread : Nat)
  | decrementAndGet (thread : Nat)
  | newGuest (thread : Nat) (made : Bool)
  | init (thread : Nat) (answer : Option Nat)
  | run (thread : Nat) (returned : Bool)
  | incrementAndGet (thread : Nat)
  | offerFirst (thread : Nat)

/-- One step of one thread; `none` where it cannot happen. -/
def State.step (maxIdle : Nat) (s : State) : Event → Option State
  | .call => some { s with threads := s.threads ++ [.polling] }
  | .prime => some { s with threads := s.threads ++ [.making .prime] }
  | .pollFirst i =>
    match s.threads[i]?, s.idle with
    | some .polling, guest :: idle => some { s.move i (.polled guest) with idle := idle }
    | some .polling, [] => some (s.move i (.making .call))
    | _, _ => none
  | .decrementAndGet i =>
    match s.threads[i]? with
    | some (.polled guest) =>
      some { s.move i (.calling guest) with idleCount := s.idleCount - 1 }
    | some (.overfull guest) =>
      some { s.move i .returned with
        idleCount := s.idleCount - 1, dropped := guest :: s.dropped }
    | _ => none
  | .newGuest i made =>
    match s.threads[i]? with
    | some (.making purpose) =>
      if made then
        some { s.move i (.initialising purpose s.created) with created := s.created + 1 }
      else some (s.move i .threw)
    | _ => none
  | .init i answer =>
    match s.threads[i]? with
    | some (.initialising purpose guest) =>
      let s := s.record guest (.init answer)
      match answer with
      | none => some (s.throw i guest)
      | some max => some { s.move i (purpose.next guest) with maxInputBytes := max }
    | _ => none
  | .run i returned =>
    match s.threads[i]? with
    | some (.calling guest) =>
      let s := s.record guest (.call s.maxInputBytes returned)
      if returned then some (s.move i (.releasing guest)) else some (s.throw i guest)
    | _ => none
  | .incrementAndGet i =>
    match s.threads[i]? with
    | some (.releasing guest) =>
      let count := s.idleCount + 1
      some { s.move i (if count ≤ (maxIdle : Int) then .offering guest else .overfull guest) with
        idleCount := count }
    | _ => none
  | .offerFirst i =>
    match s.threads[i]? with
    | some (.offering guest) => some { s.move i .returned with idle := guest :: s.idle }
    | _ => none

/-- The states any number of threads reach from the empty pool. -/
def State.run (maxIdle : Nat) (events : List Event) : Option State :=
  events.foldlM (State.step maxIdle) {}

end GuestPool

end JavaWasm

end ReceiptVerifier
