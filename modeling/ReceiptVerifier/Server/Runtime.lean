import Mathlib.Logic.Function.Basic
import ReceiptVerifier.Server.Http

/-!
# The server's instances

`rust/server/src/runtime.rs`: instances of the component, made for each call or kept between calls.
The guest is outside: a call returns any text or any error. The pool is a state that any number of
callers move, one step of one caller at a time.
-/

namespace ReceiptVerifier

namespace Server

open Function (update)

/-- `Display` of `InvokeError`. -/
def InvokeError.display : InvokeError → String
  | .trap message => "Wasm trap: " ++ message
  | .abi message => "ABI error: " ++ message
  | .internal message => "internal error: " ++ message

/-- `Op`, one of the four WIT operations: `init`, or one of the three that verify. -/
inductive InstanceOp where
  | init
  | verify (op : Op)
deriving DecidableEq, Repr

/-- One `Instance::call` that ended. -/
structure Call where
  op : InstanceOp
  input : Bytes
  result : Except InvokeError String

inductive Lifecycle where
  /-- A fresh instance for each call. -/
  | fresh
  /-- Instances kept between calls; the last one in is the first one out. -/
  | pool (instances : List Nat)

/-- Why an instance is made: by `Verifier::new`, or by `fresh` for `invoke`. -/
inductive Task where
  | new (pool : Bool)
  | invoke (op : InstanceOp) (input : Bytes)

/-- Where a caller is, in `Verifier::new` or in `invoke`. -/
inductive Caller where
  | absent
  /-- Before the pool is locked to `pop`. -/
  | popping (op : InstanceOp) (input : Bytes)
  /-- In `ready_instance`, before `instantiate`. -/
  | instantiating (task : Task)
  /-- In `ready_instance`, before the call of `init`. -/
  | initialising (task : Task) (i : Nat)
  | calling (i : Nat) (op : InstanceOp) (input : Bytes)
  /-- Before the pool is locked to `push`. -/
  | pushing (i : Nat) (out : String)
  | returned (result : Except InvokeError String)
  /-- `Verifier::new` returned, with the error that made no verifier. -/
  | started (err : Option String)

/-- The instance a caller owns. -/
def Caller.holds : Caller → Option Nat
  | .initialising _ i => some i
  | .calling i _ _ => some i
  | .pushing i _ => some i
  | _ => none

structure Runtime where
  /-- `none` before `Verifier::new` returned a verifier. -/
  lifecycle : Option Lifecycle
  maxInputBytes : Nat
  /-- For the record, the calls that ended on each instance. -/
  calls : Nat → List Call
  /-- How many instances were made. -/
  made : Nat
  callers : Nat → Caller
  /-- How many callers there were. -/
  entered : Nat

/-- Before `Verifier::new`, which the first caller runs. -/
def Runtime.init (pool : Bool) : Runtime where
  lifecycle := none
  maxInputBytes := 0
  calls _ := []
  made := 0
  callers := update (fun _ => .absent) 0 (.instantiating (.new pool))
  entered := 1

def Runtime.move (s : Runtime) (c : Nat) (caller : Caller) : Runtime :=
  { s with callers := update s.callers c caller }

def Runtime.record (s : Runtime) (i : Nat) (call : Call) : Runtime :=
  { s with calls := update s.calls i (s.calls i ++ [call]) }

/-- No instance is ready. -/
def Task.fail (e : InvokeError) : Task → Caller
  | .new _ => .started (some ("the component failed its first init: " ++ e.display))
  | .invoke _ _ => .returned (.error e)

/-- `init` refused the configuration. -/
def Task.refused (answer : String) : Task → Caller
  | .new _ => .started (some ("the component refused the roots configuration: " ++ answer))
  | .invoke _ _ =>
    .returned (.error (.abi ("init refused the configuration accepted at start: " ++ answer)))

/-- What `Verifier::new` or `invoke` does with an instance that is ready. -/
def Runtime.ready (s : Runtime) (c i max : Nat) : Task → Runtime
  | .new pool =>
    { s.move c (.started none) with
      lifecycle := some (if pool then .pool [i] else .fresh)
      maxInputBytes := max }
  | .invoke op input => s.move c (.calling i op input)

/-- The rest of `ready_instance`, after `init` answered. -/
def Runtime.initialised (json : SerdeJson) (s : Runtime) (c i : Nat) (task : Task) :
    Except InvokeError String → Runtime
  | .error e => s.move c (task.fail e)
  | .ok answer =>
    match Server.maxInputBytes json answer with
    | .error e => s.move c (task.fail e)
    | .ok none => s.move c (task.refused answer)
    | .ok (some max) => s.ready c i max task

/-- What happens next, and what the guest chose. -/
inductive Event where
  | enter (op : InstanceOp) (input : Bytes)
  | pop (c : Nat)
  | instantiate (c : Nat) (failure : Option InvokeError)
  | call (c : Nat) (result : Except InvokeError String)
  | push (c : Nat)

/-- One step of one caller; `none` where it cannot happen. -/
def Runtime.step (config : Bytes) (json : SerdeJson) (s : Runtime) : Event → Option Runtime
  | .enter op input =>
    match s.lifecycle with
    | none => none
    | some .fresh =>
      some { s.move s.entered (.instantiating (.invoke op input)) with entered := s.entered + 1 }
    | some (.pool _) =>
      some { s.move s.entered (.popping op input) with entered := s.entered + 1 }
  | .pop c =>
    match s.callers c, s.lifecycle with
    | .popping op input, some (.pool instances) =>
      match instances.getLast? with
      | some i =>
        some { s.move c (.calling i op input) with lifecycle := some (.pool instances.dropLast) }
      | none => some (s.move c (.instantiating (.invoke op input)))
    | _, _ => none
  | .instantiate c failure =>
    match s.callers c, failure with
    | .instantiating task, some e => some (s.move c (task.fail e))
    | .instantiating task, none =>
      some { s.move c (.initialising task s.made) with made := s.made + 1 }
    | _, _ => none
  | .call c result =>
    match s.callers c with
    | .initialising task i =>
      some ((s.record i ⟨.init, config, result⟩).initialised json c i task result)
    | .calling i op input =>
      let s := s.record i ⟨op, input, result⟩
      match result, s.lifecycle with
      -- On an error the instance is dropped.
      | .ok out, some (.pool _) => some (s.move c (.pushing i out))
      | _, _ => some (s.move c (.returned result))
    | _ => none
  | .push c =>
    match s.callers c, s.lifecycle with
    | .pushing i out, some (.pool instances) =>
      some { s.move c (.returned (.ok out)) with lifecycle := some (.pool (instances ++ [i])) }
    | _, _ => none

/-- A run of the server, from any state. -/
def Runtime.run (config : Bytes) (json : SerdeJson) (s : Runtime) (events : List Event) :
    Option Runtime :=
  events.foldlM (·.step config json) s

end Server

end ReceiptVerifier
