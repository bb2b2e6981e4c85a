import Mathlib.Logic.Function.Basic

/-!
# The .NET host's instances

`InstancePool.cs`, and what `VerifierImpl.Run` does with an instance it rents: a stack beside a
counter that bounds it, moved by any number of threads, one stack operation, one counter operation
or one use of an instance at a time. The constructor of the pool is the first thread, and nobody
rents before it has returned.

An `OutOfMemoryException` is not caught: a thread it takes away makes no further step and keeps the
instance it rented.
-/

namespace ReceiptVerifier

namespace Dotnet

namespace InstancePool

/-- An instance that grew past this much memory is not kept. -/
def retainMemoryBytes : Nat := 64 * 1024 * 1024

/-- `Math.Max(2, Environment.ProcessorCount)`. -/
def maxIdle (processors : Nat) : Nat := if processors ≤ 2 then 2 else processors

/-- What was done with an instance. -/
inductive Use
  /-- `Start`: the length `init` stated, or a failure. -/
  | start (maxInputBytes : Option Nat)
  /-- A call and the reading of its answer, and whether both went well. -/
  | call (returned : Bool)
deriving DecidableEq, Repr

/-- What asked for a new instance. -/
inductive Purpose
  | pool
  | rent
deriving DecidableEq, Repr

/-- Where a thread is, in the constructor or in `Run`. -/
inductive Thread
  /-- In `Rent`, before `_idle.TryPop`. -/
  | renting
  /-- In `Rent`, before `Interlocked.Decrement`. -/
  | popped (inst : Nat)
  /-- In `Create`, before `new AprvInstance`. -/
  | creating (purpose : Purpose)
  /-- In `Create`, before `instance.Start`. -/
  | starting (purpose : Purpose) (inst : Nat)
  /-- In `Run`, before the call. -/
  | calling (inst : Nat)
  /-- In `Return`, before `instance.MemoryBytes`. -/
  | returning (inst : Nat)
  /-- In `Return`, before `Interlocked.Increment`. -/
  | counting (inst : Nat)
  /-- In `Return`, before `_idle.Push`. -/
  | pushing (inst : Nat)
  /-- In `Return`, before `Interlocked.Decrement`. -/
  | overfull (inst : Nat)
  /-- Before `instance.Dispose()`, which `Create` follows by a `throw`, and `Return` and `Discard`
  by a return. -/
  | disposing (inst : Nat) (throws : Bool)
  | returned
  | threw
deriving DecidableEq, Repr

structure State where
  idle : List Nat := []
  idleCount : Int := 0
  threads : List Thread := [.creating .pool]
  disposed : List Nat := []
  /-- How many instances were created. -/
  created : Nat := 0
  /-- For the record: what was done with each instance. -/
  log : Nat → List Use := fun _ => []

namespace State

def move (s : State) (thread : Nat) (t : Thread) : State :=
  { s with threads := s.threads.set thread t }

def record (s : State) (inst : Nat) (use : Use) : State :=
  { s with log := Function.update s.log inst (s.log inst ++ [use]) }

end State

/-- What a new instance is for. -/
def Purpose.next (inst : Nat) : Purpose → Thread
  | .pool => .returning inst
  | .rent => .calling inst

/-- What happens next, and what the module did. -/
inductive Event
  | rent
  | tryPop (thread : Nat)
  | decrement (thread : Nat)
  | new (thread : Nat) (made : Bool)
  | start (thread : Nat) (maxInputBytes : Option Nat)
  | call (thread : Nat) (returned : Bool)
  | memoryBytes (thread : Nat) (bytes : Nat)
  | increment (thread : Nat)
  | push (thread : Nat)
  | dispose (thread : Nat)

/-- One step of one thread; `none` where it cannot happen. -/
def State.step (processors : Nat) (s : State) : Event → Option State
  | .rent =>
    if s.threads[0]? = some .returned then some { s with threads := s.threads ++ [.renting] }
    else none
  | .tryPop i =>
    match s.threads[i]?, s.idle with
    | some .renting, inst :: idle => some { s.move i (.popped inst) with idle := idle }
    | some .renting, [] => some (s.move i (.creating .rent))
    | _, _ => none
  | .decrement i =>
    match s.threads[i]? with
    | some (.popped inst) =>
      some { s.move i (.calling inst) with idleCount := s.idleCount - 1 }
    | some (.overfull inst) =>
      some { s.move i (.disposing inst false) with idleCount := s.idleCount - 1 }
    | _ => none
  | .new i made =>
    match s.threads[i]? with
    | some (.creating purpose) =>
      if made then
        some { s.move i (.starting purpose s.created) with created := s.created + 1 }
      else some (s.move i .threw)
    | _ => none
  | .start i maxInputBytes =>
    match s.threads[i]? with
    | some (.starting purpose inst) =>
      let s := s.record inst (.start maxInputBytes)
      match maxInputBytes with
      | none => some (s.move i (.disposing inst true))
      | some _ => some (s.move i (purpose.next inst))
    | _ => none
  | .call i returned =>
    match s.threads[i]? with
    | some (.calling inst) =>
      let s := s.record inst (.call returned)
      some (s.move i (if returned then .returning inst else .disposing inst false))
    | _ => none
  | .memoryBytes i bytes =>
    match s.threads[i]? with
    | some (.returning inst) =>
      some (s.move i
        (if bytes ≤ retainMemoryBytes then .counting inst else .disposing inst false))
    | _ => none
  | .increment i =>
    match s.threads[i]? with
    | some (.counting inst) =>
      let count := s.idleCount + 1
      some { s.move i (if count ≤ (maxIdle processors : Int) then .pushing inst
        else .overfull inst) with idleCount := count }
    | _ => none
  | .push i =>
    match s.threads[i]? with
    | some (.pushing inst) => some { s.move i .returned with idle := inst :: s.idle }
    | _ => none
  | .dispose i =>
    match s.threads[i]? with
    | some (.disposing inst throws) =>
      some { s.move i (if throws then .threw else .returned) with disposed := inst :: s.disposed }
    | _ => none

/-- The states any number of threads reach from the start of the constructor. -/
def State.run (processors : Nat) (events : List Event) : Option State :=
  events.foldlM (State.step processors) {}

end InstancePool

end Dotnet

end ReceiptVerifier
