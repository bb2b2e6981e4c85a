import Mathlib.Logic.Function.Basic
import ReceiptVerifier.Lib.Program
import ReceiptVerifier.Wire

/-!
# The Go host

`go/internal/host`: instances of the module, pooled. The guest is outside: an export returns
anything, traps, or answers outside memory, so `call` is a program that asks and goes on from
whatever came. The pool is a state that any number of callers move, one step of one caller at a
time.
-/

namespace ReceiptVerifier

namespace Go

/-- The length an input is cut to: what `init` stated, nothing before it did. -/
def cut (maxInput n : Nat) : Nat := if 0 < maxInput ∧ maxInput < n then maxInput else n

/-! ## Errors -/

inductive Error
  /-- An error of wazero or of the standard library, by its text. -/
  | text (message : String)
  | trap (fn : String) (err : Error)
  | result (fn detail : String)
  | initRefused (message : String) (answer : Bytes)
  | usage (detail : String)
  /-- `fmt.Errorf("instantiating aprv.wasm: %w", err)`. -/
  | instantiating (err : Error)

/-- `errors.As(err, &usage)`, through the errors that wrap another. -/
def Error.isUsage : Error → Bool
  | .usage _ => true
  | .trap _ err => err.isUsage
  | .instantiating err => err.isUsage
  | _ => false

def Error.isResult : Error → Bool
  | .result _ _ => true
  | .trap _ err => err.isResult
  | .instantiating err => err.isResult
  | _ => false

/-! ## One instance -/

/-- What a `Guest` asks: of its own fields, and of its instance of the module. -/
inductive Request
  | dead
  | maxInput
  | realloc (n : Nat)
  | write (ptr : UInt32) (bytes : Bytes)
  /-- An export of the interface, by its name in the WIT. -/
  | invoke (fn : String) (core : List UInt64)
  | readUint32Le (offset : UInt32)
  /-- A view of the memory, which a later export may change. -/
  | read (ptr n : UInt32)
  /-- The bytes of a view, copied out. -/
  | copy (ptr n : UInt32)
  | postReturn (fn : String) (rp : UInt32)
  | close

/-- An export that fails has the text of its error; a memory access says whether it is inside. -/
abbrev Response : Request → Type
  | .dead => Bool
  | .maxInput => UInt32
  | .realloc _ => Except String UInt64
  | .write _ _ => Bool
  | .invoke _ _ => Except String UInt64
  | .readUint32Le _ => Option UInt32
  | .read _ _ => Bool
  | .copy _ _ => Bytes
  | .postReturn _ _ => Except String Unit
  | .close => Unit

abbrev Asks := Program Request Response

abbrev Trace := List (Exchange Request Response)

def ask (r : Request) : Asks (Response r) := Program.request r

/-- A Go `any` as an argument. -/
inductive Value
  | uint32 (v : UInt32)
  | uint64 (v : UInt64)
  | string (v : Bytes)
  | bytes (v : Bytes)
  | other (type : String)

/-- `%T`. -/
def Value.type : Value → String
  | .uint32 _ => "uint32"
  | .uint64 _ => "uint64"
  | .string _ => "string"
  | .bytes _ => "[]uint8"
  | .other type => type

/-- An argument of the type its WIT parameter has. -/
inductive Argument
  | scalar (v : UInt64)
  | list (v : Bytes)

/-- The argument, if its type is the parameter's: `w` an enum, `d` an s64, `b` a list of bytes. -/
def Value.argument : Value → Char → Option Argument
  | .uint32 v, 'w' => some (.scalar v.toUInt64)
  | .uint64 v, 'd' => some (.scalar v)
  | .string v, 'b' => some (.list v)
  | .bytes v, 'b' => some (.list v)
  | _, _ => none

/-- Each export's WIT parameters. -/
def sigs : List (String × List Char) := [
  ("init", ['b']),
  ("verify-receipt", ['d', 'b']),
  ("verify-signed-data", ['d', 'b']),
  ("verify-receipt-endpoint", ['w', 'd', 'b'])]

/-- The first argument of a wrong type is refused. -/
def arguments (fn : String) : Nat → List Char → List Value → Except Error (List Argument)
  | i, wit :: sig, a :: args =>
    match a.argument wit with
    | none =>
      let type := a.type
      .error (.usage s!"{fn}: argument {i} is {type}, the WIT type is {wit}")
    | some argument => (arguments fn (i + 1) sig args).map (argument :: ·)
  | _, _, _ => .ok []

/-- Copies each list into a buffer of the guest's, in order. -/
def lowerArguments (fn : String) : Nat → List Argument → List UInt64 →
    Asks (Except Error (List UInt64))
  | _, [], out => pure (.ok out)
  | i, .scalar v :: args, out => lowerArguments fn (i + 1) args (out ++ [v])
  | i, .list v :: args, out => do
    let maxInput ← ask .maxInput
    let v := v.take (cut maxInput.toNat v.length)
    let res ← ask (.realloc v.length)
    match res with
    | .error err => pure (.error (.text err))
    | .ok res => do
      let ptr := res.toUInt32
      let inside ← ask (.write ptr v)
      if inside then
        lowerArguments fn (i + 1) args (out ++ [ptr.toUInt64, .ofNat v.length])
      else
        pure (.error (.result fn
          s!"cabi_realloc returned a buffer outside memory for argument {i}"))

def lower (fn : String) (args : List Value) : Asks (Except Error (List UInt64)) :=
  let refused := Error.usage s!"{fn}: unknown export or wrong argument count"
  match sigs.lookup fn with
  | none => pure (.error refused)
  | some sig =>
    if sig.length ≠ args.length then pure (.error refused)
    else
      match arguments fn 0 sig args with
      | .error err => pure (.error err)
      | .ok args => lowerArguments fn 0 args []

/-- Classifies an error and, unless it is a usage error, discards the instance. -/
def fail (fn : String) (err : Error) : Asks (Except Error Bytes) :=
  if err.isUsage then pure (.error err)
  else do
    let _ ← ask .close
    if err.isResult then pure (.error err) else pure (.error (.trap fn err))

/-- Reads the answer through the return area, copies it out and lets the guest free it. -/
def answer (fn : String) (rp : UInt32) : Asks (Except Error Bytes) := do
  let ptr ← ask (.readUint32Le rp)
  let n ← ask (.readUint32Le (rp + 4))
  match ptr, n with
  | some ptr, some n =>
    if 0xffffffff - 8 < rp then
      fail fn (.result fn "the return area is outside memory")
    else do
      let inside ← ask (.read ptr n)
      if inside then do
        let out ← ask (.copy ptr n)
        let freed ← ask (.postReturn fn rp)
        match freed with
        | .error err => fail fn (.text err)
        | .ok () => pure (.ok out)
      else
        fail fn (.result fn s!"the result ({ptr}, {n}) is outside memory")
  | _, _ => fail fn (.result fn "the return area is outside memory")

/-- `Guest.Call`: lower the arguments, call the export, read its answer. -/
def call (fn : String) (args : List Value) : Asks (Except Error Bytes) := do
  let dead ← ask .dead
  if dead then
    pure (.error (.trap fn (.text "the instance was discarded after an earlier failure")))
  else do
    let core ← lower fn args
    match core with
    | .error err => fail fn err
    | .ok core => do
      let ret ← ask (.invoke fn core)
      match ret with
      | .error err => fail fn (.text err)
      | .ok ret => answer fn ret.toUInt32

/-- What `encoding/json` reads of `init`'s answer. -/
structure InitReply where
  ok : Option Bool
  message : String
  maxInputBytes : Option UInt32

/-- The length an accepting answer of `init` states. -/
def initAnswer (unmarshal : Bytes → Option InitReply) (answer : Bytes) : Except Error UInt32 :=
  match unmarshal answer with
  | none => .error (.result "init" "the answer is not \x7b\"ok\":...\x7d")
  | some reply =>
    match reply.ok with
    | none => .error (.result "init" "the answer is not \x7b\"ok\":...\x7d")
    | some false => .error (.initRefused reply.message answer)
    | some true =>
      match reply.maxInputBytes with
      | none => .error (.result "init" "the answer states no max_input_bytes")
      | some max =>
        if max = 0 then .error (.result "init" "the answer states no max_input_bytes") else .ok max

/-! ## The pool -/

/-- One `Guest.Call` that ended, with what it asked. -/
structure Call where
  fn : String
  args : List Value
  trace : Trace
  result : Except Error Bytes

/-- A `Guest`: its fields, and for the record what was asked of it and which calls ended. -/
structure Guest where
  dead : Bool := false
  maxInput : UInt32 := 0
  history : Trace := []
  calls : List Call := []

/-- The fields answer for themselves; the rest is the instance's answer. -/
def Guest.respond (guest : Guest) (answers : (r : Request) → Response r) :
    (r : Request) → Response r
  | .dead => guest.dead
  | .maxInput => guest.maxInput
  | r => answers r

def Guest.record (guest : Guest) (e : Exchange Request Response) : Guest :=
  { guest with
    history := guest.history ++ [e]
    dead := match e.request with
      | .close => true
      | _ => guest.dead }

/-- `g.close()`. -/
def Guest.close (guest : Guest) : Guest := guest.record ⟨.close, ()⟩

/-- A `Guest.Call` under way: what it asked so far, and what is left of it. -/
structure Run where
  fn : String
  args : List Value
  trace : Trace
  rest : Asks (Except Error Bytes)

def Run.start (fn : String) (args : List Value) : Run := ⟨fn, args, [], call fn args⟩

/-- Why an instance is made. -/
inductive Task
  | newPool
  | call (fn : String) (args : List Value)

/-- Where a caller is, in `newPool` or in `Pool.call`. Instances are pointers. -/
inductive Caller
  | absent
  /-- Before `p.pool.Get()`. -/
  | getting (fn : String) (args : List Value)
  /-- In `newGuest`, before `InstantiateModule`. -/
  | instantiating (task : Task)
  /-- In `newGuest`, in the call of `init`. -/
  | initialising (task : Task) (g : Nat) (run : Run)
  | calling (g : Nat) (run : Run)
  /-- Before `p.put(g)`. -/
  | putting (g : Nat) (result : Except Error Bytes)
  | returned (result : Except Error Bytes)
  /-- `newPool` returned, with the error that made no pool. -/
  | opened (err : Option Error)

/-- The instance a caller has a pointer to and may still use. -/
def Caller.holds : Caller → Option Nat
  | .initialising _ g _ => some g
  | .calling g _ => some g
  | .putting g _ => some g
  | _ => none

structure Host where
  /-- `newPool` returned a pool. -/
  opened : Bool
  pool : List Nat
  guests : Nat → Guest
  /-- How many instances were made. -/
  made : Nat
  callers : Nat → Caller
  /-- How many callers there were. -/
  entered : Nat

open Function (update)

/-- Before `newPool`, which the first caller runs. -/
def Host.init : Host where
  opened := false
  pool := []
  guests _ := {}
  made := 0
  callers := update (fun _ => .absent) 0 (.instantiating .newPool)
  entered := 1

def Host.move (s : Host) (c : Nat) (caller : Caller) : Host :=
  { s with callers := update s.callers c caller }

def Host.change (s : Host) (g : Nat) (guest : Guest) : Host :=
  { s with guests := update s.guests g guest }

/-- `newPool` and `Pool.get` return the error of `newGuest`. -/
def Task.fail (err : Error) : Task → Caller
  | .newPool => .opened (some err)
  | .call _ _ => .returned (.error err)

/-- One request of a call under way. -/
def Host.exchange (s : Host) (c g : Nat) (run : Run) (resume : Run → Caller)
    (answers : (r : Request) → Response r) : Option Host :=
  match run.rest with
  | .done _ => none
  | .ask r next =>
    let response := (s.guests g).respond answers r
    some ((s.change g ((s.guests g).record ⟨r, response⟩)).move c
      (resume { run with trace := run.trace ++ [⟨r, response⟩], rest := next response }))

/-- The end of a call. -/
def Guest.ended (guest : Guest) (run : Run) (result : Except Error Bytes) : Guest :=
  { guest with calls := guest.calls ++ [⟨run.fn, run.args, run.trace, result⟩] }

/-- The rest of `newGuest`, and what its caller does with the instance. -/
def Host.initialised (unmarshal : Bytes → Option InitReply) (s : Host) (c g : Nat) (task : Task) :
    Except Error Bytes → Host
  | .error err => s.move c (task.fail err)
  | .ok answer =>
    match initAnswer unmarshal answer with
    | .error err => (s.change g (s.guests g).close).move c (task.fail err)
    | .ok max =>
      let s := s.change g { s.guests g with maxInput := max }
      match task with
      | .newPool => { s.move c (.opened none) with opened := true, pool := g :: s.pool }
      | .call fn args => s.move c (.calling g (.start fn args))

/-- The largest linear memory an instance may have and still be reused. -/
def maxPooledMemory : UInt32 := (64 : UInt32) <<< 20

/-- `p.put(g)`, where the instance's memory has some size. -/
def Host.put (s : Host) (g : Nat) (size : UInt32) : Host :=
  if (s.guests g).dead then s
  else if maxPooledMemory < size then s.change g (s.guests g).close
  else { s with pool := g :: s.pool }

/-- Nothing refers to an instance. -/
def Host.unreferenced (s : Host) (g : Nat) : Prop :=
  g ∉ s.pool ∧ ∀ c < s.entered, (s.callers c).holds ≠ some g

instance (s : Host) (g : Nat) : Decidable (s.unreferenced g) :=
  inferInstanceAs (Decidable (_ ∧ _))

/-- What happens next, and what the guest, `sync.Pool` or the collector chose. -/
inductive Event
  | enter (fn : String) (args : List Value)
  | get (c : Nat) (taken : Option Nat)
  | instantiate (c : Nat) (failure : Option String)
  | reply (c : Nat) (answers : (r : Request) → Response r)
  | finish (c : Nat)
  | put (c : Nat) (size : UInt32)
  /-- `sync.Pool` may drop an item at any time. -/
  | collect (g : Nat)
  /-- The finalizer of an instance that is not closed. -/
  | finalize (g : Nat)

/-- One step of one caller, or of the collector; `none` where it cannot happen. -/
def Host.step (config : Bytes) (unmarshal : Bytes → Option InitReply) (s : Host) :
    Event → Option Host
  | .enter fn args =>
    if s.opened then some { s.move s.entered (.getting fn args) with entered := s.entered + 1 }
    else none
  | .get c taken =>
    match s.callers c, taken with
    | .getting fn args, some g =>
      if g ∈ s.pool then
        some { s.move c (.calling g (.start fn args)) with pool := s.pool.erase g }
      else none
    | .getting fn args, none => some (s.move c (.instantiating (.call fn args)))
    | _, _ => none
  | .instantiate c failure =>
    match s.callers c, failure with
    | .instantiating task, some err => some (s.move c (task.fail (.instantiating (.text err))))
    | .instantiating task, none =>
      some { s.move c (.initialising task s.made (.start "init" [.bytes config])) with
        made := s.made + 1 }
    | _, _ => none
  | .reply c answers =>
    match s.callers c with
    | .initialising task g run => s.exchange c g run (.initialising task g) answers
    | .calling g run => s.exchange c g run (.calling g) answers
    | _ => none
  | .finish c =>
    match s.callers c with
    | .initialising task g run =>
      match run.rest with
      | .done result =>
        some ((s.change g ((s.guests g).ended run result)).initialised unmarshal c g task result)
      | .ask _ _ => none
    | .calling g run =>
      match run.rest with
      | .done result =>
        some ((s.change g ((s.guests g).ended run result)).move c (.putting g result))
      | .ask _ _ => none
    | _ => none
  | .put c size =>
    match s.callers c with
    | .putting g result => some ((s.put g size).move c (.returned result))
    | _ => none
  | .collect g => if g ∈ s.pool then some { s with pool := s.pool.erase g } else none
  | .finalize g =>
    if g < s.made ∧ s.unreferenced g ∧ (s.guests g).dead = false then
      some (s.change g (s.guests g).close)
    else none

/-- A run of the host, from any state. -/
def Host.run (config : Bytes) (unmarshal : Bytes → Option InitReply) (s : Host)
    (events : List Event) : Option Host :=
  events.foldlM (·.step config unmarshal) s

end Go

end ReceiptVerifier
