import ReceiptVerifier.Lib.Program
import ReceiptVerifier.Python.Wire

/-!
# The Python host

`python/apple_purchase_receipt_verifier/_host.py`: `Instance`, and the `Pool` over it. wasmtime is
outside: whatever it is asked it answers, or raises. What a thread does with an instance is a
program that asks and goes on from whatever came; the pool is a state that any number of threads
move, one step of one thread at a time.
-/

namespace ReceiptVerifier

namespace Python

/-- `Fault`, by its message. -/
abbrev Fault := String

/-! ## One instance -/

/-- What an `Instance` asks of wasmtime. -/
inductive Request
  /-- All of `Instance.__init__`. -/
  | instantiate
  | realloc (length : Nat)
  | dataLen
  | write (data : Bytes) (pointer : Nat)
  /-- An export of the interface, by its name in the WIT, on its scalars and the input. -/
  | invoke (fn : String) (scalars : List Int) (pointer length : Nat)
  | read (start stop : Nat)
  | post (fn : String) (area : Nat)
deriving DecidableEq

/-- What comes back where nothing is raised. An export answers an `i32`. -/
abbrev Answer : Request → Type
  | .instantiate => Unit
  | .realloc _ => Int
  | .dataLen => Nat
  | .write _ _ => Unit
  | .invoke _ _ _ _ => Int
  | .read _ _ => Bytes
  | .post _ _ => Unit

/-- An answer, or an exception by the name of its type. -/
abbrev Response (r : Request) : Type := Except String (Answer r)

instance : (r : Request) → DecidableEq (Answer r)
  | .instantiate | .write _ _ | .post _ _ => inferInstanceAs (DecidableEq Unit)
  | .realloc _ | .invoke _ _ _ _ => inferInstanceAs (DecidableEq Int)
  | .dataLen => inferInstanceAs (DecidableEq Nat)
  | .read _ _ => inferInstanceAs (DecidableEq Bytes)

instance (r : Request) : DecidableEq (Response r) := inferInstance

abbrev Trace := List (Exchange Request Response)

abbrev Call := ExceptT Fault (Program Request Response)

/-- The fault an exception of a request becomes. -/
def Request.fault (r : Request) (type : String) : Fault :=
  match r with
  | .instantiate => s!"the Wasm instance could not be created: {type}"
  | _ => s!"the Wasm instance failed: {type}"

def ask (r : Request) : Call (Answer r) :=
  ExceptT.mk do
    let response ← Program.request r
    pure (response.mapError r.fault)

/-- `value & 0xFFFFFFFF`. -/
def unsigned (value : Int) : Nat := (value % 2 ^ 32).toNat

/-- Past the limit one byte over the core's cap is all it needs to answer `TOO_LARGE`. -/
def cut (maxInput : Option Nat) (fn : String) (data : Bytes) : Bytes :=
  match maxInput with
  | none => data
  | some limit => if fn ≠ "init" ∧ limit < data.length then data.take limit else data

/-- Copies the input into the guest's buffer. -/
def place (data : Bytes) (pointer : Nat) : Call Unit :=
  if data.length = 0 then pure ()
  else do
    let size ← ask .dataLen
    if size < pointer + data.length then throw "cabi_realloc returned a buffer outside memory"
    else ask (.write data pointer)

/-- A little-endian word. -/
def word (a b c d : UInt8) : Nat :=
  (a.toUInt32 ||| b.toUInt32 <<< 8 ||| c.toUInt32 <<< 16 ||| d.toUInt32 <<< 24).toNat

/-- `struct.unpack("<II", …)`. -/
def unpack : Bytes → Option (Nat × Nat)
  | [a, b, c, d, e, f, g, h] => some (word a b c d, word e f g h)
  | _ => none

/-- Reads the answer through the return area and lets the guest free it. -/
def answer (fn : String) (area : Nat) : Call String := do
  let size ← ask .dataLen
  if size < area + 8 then throw "the return area is outside memory"
  else do
    let fields ← ask (.read area (area + 8))
    match unpack fields with
    | none => throw "the Wasm instance failed: error"
    | some (address, count) =>
      if size < address + count then throw "the result is outside memory"
      else do
        let answer ← ask (.read address (address + count))
        let _ ← ask (.post fn area)
        match fromUtf8 answer with
        | none => throw "the Wasm instance failed: UnicodeDecodeError"
        | some text => pure text

/-- `Instance.call`, with the `max_input` of the instance. -/
def call (maxInput : Option Nat) (fn : String) (scalars : List Int) (data : Bytes) :
    Call String := do
  let data := cut maxInput fn data
  let buffer ← ask (.realloc data.length)
  let pointer := unsigned buffer
  place data pointer
  let area ← ask (.invoke fn scalars pointer data.length)
  answer fn (unsigned area)

/-! ## The pool -/

/-- An `Instance`: which store it is, and `max_input`. -/
structure Instance where
  store : Nat
  maxInput : Option Nat

/-- The arguments of `Pool.run`. -/
structure Job (T : Type) where
  fn : String
  scalars : List Int
  data : Bytes
  parse : String → Except ShapeError T

section

variable (config : Bytes) (accepts : String → Option Nat)

/-- `_create`: what `init` answered, and the `max_input` it states. -/
def create : Call (Option Nat × String) := do
  let _ ← ask .instantiate
  let answer ← call none "init" [] config
  pure (accepts answer, answer)

/-- Linear memory past which an instance is dropped instead of pooled. -/
def retireAbove : Nat := 64 * 1024 * 1024

variable {T : Type}

/-- The instance for a call: the one that was free, or a new one. -/
def borrowed : Option (Option Nat) → Call (Option Nat)
  | some maxInput => pure maxInput
  | none => do
    let (maxInput, _) ← create config accepts
    if maxInput.isNone then throw "init refused a configuration it accepted before"
    else pure maxInput

/-- The result of an answer, and whether its instance is kept. -/
def finish (job : Job T) (maxInput : Option Nat) (answer : String) :
    Call (Option Nat × T × Bool) :=
  match job.parse answer with
  | .error _ => throw "the answer of the Wasm module could not be read"
  | .ok result => do
    let size ← ask .dataLen
    pure (maxInput, result, decide (size ≤ retireAbove))

/-- What `run` does between taking an instance and giving it back. -/
def serve (job : Job T) (found : Option (Option Nat)) : Call (Option Nat × T × Bool) := do
  let maxInput ← borrowed config accepts found
  let answer ← call maxInput job.fn job.scalars job.data
  finish job maxInput answer

end

/-- What leaves `run`: a `Fault`, or the `ValueError` of a semaphore released too often. -/
inductive Raised
  | fault (fault : Fault)
  | valueError
deriving DecidableEq

/-- Where a thread is in `run`. -/
inductive Point (T : Type)
  /-- Before `self._slots.acquire()`. -/
  | waiting
  /-- Before the free list is looked at. -/
  | taking
  /-- With an instance, and the rest of what it does with it. -/
  | serving (store : Nat) (rest : Program Request Response (Except Fault (Option Nat × T × Bool)))
  /-- Before `self._free.append(instance)`. -/
  | giving (inst : Instance) (result : T)
  /-- Before `self._slots.release()`. -/
  | releasing (outcome : Except Fault T)
  | returned (outcome : Except Raised T)

structure Thread (T : Type) where
  job : Job T
  point : Point T

structure Pool (T : Type) where
  /-- The value of `_slots`. -/
  permits : Nat
  /-- `_free`, its last element first. -/
  free : List Instance
  threads : List (Thread T)
  /-- How many instances were made. -/
  made : Nat
  /-- The instances dropped, for the record. -/
  gone : List Nat
  /-- What every instance was asked, for the record. -/
  history : Nat → Trace

open Function (update)

namespace Pool

variable {T : Type}

/-- `Pool.__init__`: the pool, whether its first instance was accepted, and what `init` answered.
There is none while wasmtime has not answered. -/
def new (config : Bytes) (accepts : String → Option Nat) (size : Nat)
    (answers : List ((r : Request) → Response r)) :
    Option (Except Fault (Pool T × Bool × String)) :=
  match (create config accepts).run.feed answers with
  | (_, .ask _ _) => none
  | (_, .done (.error fault)) => some (.error fault)
  | (trace, .done (.ok (maxInput, answer))) =>
    let accepted := maxInput.isSome
    let pool := {
      permits := size
      free := if accepted then [⟨0, maxInput⟩] else []
      threads := []
      made := 1
      gone := if accepted then [] else [0]
      history := update (fun _ => []) 0 trace }
    some (.ok (pool, accepted, answer))

def move (p : Pool T) (c : Nat) (thread : Thread T) (point : Point T) : Pool T :=
  { p with threads := p.threads.set c { thread with point := point } }

def record (p : Pool T) (store : Nat) (e : Exchange Request Response) : Pool T :=
  { p with history := update p.history store (p.history store ++ [e]) }

/-- The end of what a thread does with an instance. -/
def served (p : Pool T) (c : Nat) (thread : Thread T) (store : Nat) :
    Except Fault (Option Nat × T × Bool) → Pool T
  | .error fault => { p.move c thread (.releasing (.error fault)) with gone := store :: p.gone }
  | .ok (maxInput, result, true) => p.move c thread (.giving ⟨store, maxInput⟩ result)
  | .ok (_, result, false) =>
    { p.move c thread (.releasing (.ok result)) with gone := store :: p.gone }

inductive Event (T : Type)
  /-- A thread calls `run`. -/
  | enter (job : Job T)
  /-- The next step of a thread; if it asks wasmtime something, with what comes back. -/
  | step (c : Nat) (answers : (r : Request) → Response r)

/-- One step of one thread; `none` where it cannot happen. -/
def step (config : Bytes) (accepts : String → Option Nat) (size : Nat) (p : Pool T) :
    Event T → Option (Pool T)
  | .enter job => some { p with threads := p.threads ++ [⟨job, .waiting⟩] }
  | .step c answers =>
    match p.threads[c]? with
    | none => none
    | some thread =>
      match thread.point with
      | .waiting =>
        if p.permits = 0 then none
        else some { p.move c thread .taking with permits := p.permits - 1 }
      | .taking =>
        match p.free with
        | inst :: free =>
          some { p.move c thread (.serving inst.store
              (serve config accepts thread.job (some inst.maxInput)).run) with free := free }
        | [] =>
          some { p.move c thread (.serving p.made (serve config accepts thread.job none).run) with
            made := p.made + 1 }
      | .serving store (.done outcome) => some (p.served c thread store outcome)
      | .serving store (.ask r next) =>
        some ((p.record store ⟨r, answers r⟩).move c thread (.serving store (next (answers r))))
      | .giving inst result =>
        some { p.move c thread (.releasing (.ok result)) with free := inst :: p.free }
      | .releasing outcome =>
        -- a `BoundedSemaphore` refuses to go past where it started
        if size ≤ p.permits then some (p.move c thread (.returned (.error .valueError)))
        else some { p.move c thread (.returned (outcome.mapError .fault)) with
          permits := p.permits + 1 }
      | .returned _ => none

/-- A run of the pool, from any state. -/
def run (config : Bytes) (accepts : String → Option Nat) (size : Nat) (p : Pool T)
    (events : List (Event T)) : Option (Pool T) :=
  events.foldlM (·.step config accepts size) p

end Pool

end Python

end ReceiptVerifier
