import Mathlib.Algebra.Ring.Nat
import ReceiptVerifier.Lib.Window

/-!
# The java-wasm host's supervised server

`ServerProcess.java`: a child process that is started on demand, not too often, and stopped. Its
methods are `synchronized`, so one call runs at a time; a child may die between any two of its
steps. Children are pointers, the operating system and the child's answers are in the events.
-/

namespace ReceiptVerifier

namespace JavaWasm

/-- `HttpConn.Target`. -/
structure Target where
  host : String
  port : Int
  tls : Bool
  basePath : String
  token : Option String
  generation : Nat
deriving DecidableEq, Repr

namespace ServerProcess

def maxStartsPerMinute : Nat := 10

def minuteNanos : Int := 60000000000

def listen : List Char := "APRV_LISTEN=127.0.0.1:".toList

/-! ## The port -/

/-- `String.trim`. -/
def trim (text : List Char) : List Char :=
  let blank (c : Char) : Bool := decide (c.val ≤ 0x20)
  ((text.dropWhile blank).reverse.dropWhile blank).reverse

def digit (c : Char) : Option Nat :=
  if 0x30 ≤ c.val ∧ c.val ≤ 0x39 then some (c.val.toNat - 0x30) else none

def digits (text : List Char) (value : Nat) : Option Nat :=
  match text with
  | [] => some value
  | c :: text => (digit c).bind fun d => digits text (10 * value + d)

/-- `Integer.parseInt`, on the ASCII text the child's line is read as. -/
def parseInt (text : List Char) : Option Int :=
  let signed (negative : Bool) (text : List Char) : Option Int :=
    if text.isEmpty then none
    else
      (digits text 0).bind fun value =>
        if negative then if value ≤ 2 ^ 31 then some (-(value : Int)) else none
        else if value < 2 ^ 31 then some (value : Int) else none
  match text with
  | '-' :: text => signed true text
  | '+' :: text => signed false text
  | text => signed false text

/-- What follows the prefix of the line a child reports, if it is one. -/
def listening : Option (List Char) → Option (List Char)
  | none => none
  | some line => if listen.isPrefixOf line then some (line.drop listen.length) else none

/-- The port a child's line names. -/
def portOf (line : Option (List Char)) : Option Int :=
  (listening line).bind fun rest => parseInt (trim rest)

/-! ## The state -/

/-- A child: the token it was handed, the first line it answered, and what became of it. -/
structure Child where
  token : String
  line : Option (List Char) := none
  alive : Bool := true
  /-- `destroyForcibly` was called. -/
  destroyed : Bool := false
deriving DecidableEq, Repr

/-- Where the call that has the lock is, or how the last one ended. -/
inductive Call
  | free
  /-- In `start`, before `System.nanoTime()`. -/
  | timing
  /-- Before `ServerBinary.verifyBeforeStart`. -/
  | verifying
  /-- Before `ServerBinary.noexec`. -/
  | mounting
  /-- Before `ProcessBuilder.start()`. -/
  | spawning
  /-- The handshake: the two lines written, the child's first line awaited. -/
  | handshaking (child : Nat)
  /-- Before `rootsRefusal`. -/
  | refusing (child : Nat)
  /-- In `recover`, in `process.waitFor`. -/
  | waiting
  /-- In `stop`, after the fields are cleared. -/
  | ending (child : Nat)
  | returned (target : Target)
  | threw (message : String)
  /-- `recover` or `stop` returned. -/
  | done
deriving DecidableEq, Repr

/-- The constructor's arguments. -/
structure Config where
  executable : String
  pinnedSha256 : Option String

structure State where
  process : Option Nat := none
  target : Option Target := none
  generation : Nat := 0
  stopped : Bool := false
  stoppedBecause : Option String := none
  recentStarts : List Int := []
  restarts : Nat := 0
  call : Call := .free
  children : List Child := []
  /-- The last `System.nanoTime()`. -/
  nanoTime : Int
  /-- For the record: when a start was attempted. -/
  attempts : List Int := []
  /-- For the record: each handshake that completed. -/
  completed : List (Nat × Target) := []

namespace State

/-- The lock is free. -/
def unlocked (s : State) : Bool :=
  match s.call with
  | .free => true
  | .returned _ => true
  | .threw _ => true
  | .done => true
  | _ => false

/-- `isAlive`. -/
def isAlive (s : State) (child : Nat) : Bool :=
  match s.children[child]? with
  | some c => c.alive
  | none => false

def destroyForcibly (s : State) (child : Nat) : State :=
  { s with children := s.children.modify child fun c => { c with destroyed := true } }

end State

/-! ## The steps -/

inductive Event
  | target
  | recover (failedGeneration : Nat)
  | stop
  | nanoTime (now : Int)
  /-- `verifyBeforeStart` returned, or threw with a message. -/
  | verifyBeforeStart (failure : Option String)
  /-- The mount refuses execution, with the advice of the message. -/
  | noexec (advice : Option String)
  /-- A fresh token, and the child started, or the explanation of the `IOException`. -/
  | spawn (token : String) (failure : Option String)
  /-- The handshake failed with a text, timed out, or brought a line. -/
  | firstLine (answer : Except String (Option (List Char)))
  /-- The refusal on the stderr of a child that exited with 2, or what is known of it otherwise. -/
  | rootsRefusal (answer : Except String String)
  /-- The wait of `recover` is over. -/
  | waited
  /-- The waits of `stop` are over: the child exited, or it is destroyed. -/
  | ended (exited : Bool)
  /-- A child dies. -/
  | dies (child : Nat)

def closedMessage : String := "the server engine was closed"

def tooManyStarts : String :=
  "aprv-server died " ++ toString maxStartsPerMinute ++
    " times within a minute and is not started again; create the verifier again to retry"

/-- The first part of `start`, up to the attempt. -/
def State.attempt (s : State) (now : Int) : State :=
  let recent := Window.prune minuteNanos now s.recentStarts
  if maxStartsPerMinute ≤ recent.length then
    { s with
      nanoTime := now, recentStarts := recent, stopped := true,
      stoppedBecause := some tooManyStarts, call := .threw tooManyStarts }
  else
    let s := { s with
      nanoTime := now, recentStarts := recent ++ [now], attempts := s.attempts ++ [now],
      call := .verifying }
    match s.process with
    | some child => { s.destroyForcibly child with restarts := s.restarts + 1 }
    | none => s

/-- The child reported its port: it replaces the one before. -/
def State.complete (s : State) (child : Nat) (token : String) (port : Int) : State :=
  let target : Target := ⟨"127.0.0.1", port, false, "", some token, s.generation + 1⟩
  { s with
    process := some child, generation := s.generation + 1, target := some target,
    completed := s.completed ++ [(child, target)], call := .returned target }

/-- The child is destroyed and the call throws. -/
def State.reject (s : State) (child : Nat) (message : String) : State :=
  { s.destroyForcibly child with call := .threw message }

/-- One step of the call that has the lock, a call that takes it, or a death; `none` where it cannot
happen. -/
def State.step (config : Config) (s : State) : Event → Option State
  | .target =>
    if !s.unlocked then none
    else if s.stopped then some { s with call := .threw (s.stoppedBecause.getD closedMessage) }
    else
      match s.process, s.target with
      | some child, some target =>
        some { s with call := if s.isAlive child then .returned target else .timing }
      | _, _ => some { s with call := .timing }
  | .recover failedGeneration =>
    if !s.unlocked then none
    else if s.stopped || failedGeneration != s.generation || s.process.isNone then
      some { s with call := .done }
    else some { s with call := .waiting }
  | .stop =>
    if !s.unlocked then none
    else
      some { s with
        stopped := true, process := none, target := none,
        call := match s.process with
          | some child => .ending child
          | none => .done }
  | .nanoTime now =>
    match s.call with
    | .timing => if s.nanoTime ≤ now then some (s.attempt now) else none
    | _ => none
  | .verifyBeforeStart failure =>
    match s.call with
    | .verifying =>
      match config.pinnedSha256, failure with
      | some _, some message => some { s with call := .threw message }
      | _, _ => some { s with call := .mounting }
    | _ => none
  | .noexec advice =>
    match s.call with
    | .mounting =>
      match advice with
      | some advice =>
        some { s with call := .threw ("cannot start " ++ config.executable ++ ". " ++ advice) }
      | none => some { s with call := .spawning }
    | _ => none
  | .spawn token failure =>
    match s.call with
    | .spawning =>
      match failure with
      | some message => some { s with call := .threw message }
      | none =>
        some { s with
          children := s.children ++ [{ token := token }],
          call := .handshaking s.children.length }
    | _ => none
  | .firstLine answer =>
    match s.call with
    | .handshaking child =>
      match answer with
      | .error e => some (s.reject child ("aprv-server did not take the handshake: " ++ e))
      | .ok line =>
        let s := { s with children := s.children.modify child fun c => { c with line := line } }
        match listening line with
        | none => some { s with call := .refusing child }
        | some rest =>
          match parseInt (trim rest), s.children[child]? with
          | some port, some own => some (s.complete child own.token port)
          | none, _ =>
            some (s.reject child "aprv-server reported a port that is not a number")
          | _, none => none
    | _ => none
  | .rootsRefusal answer =>
    match s.call with
    | .refusing child =>
      match answer with
      | .error message =>
        -- only of a child that has exited
        if s.isAlive child then none else some { s with call := .threw message }
      | .ok known => some (s.reject child ("aprv-server did not report its port" ++ known))
    | _ => none
  | .waited =>
    match s.call, s.process with
    | .waiting, some child =>
      some { s with target := if s.isAlive child then s.target else none, call := .done }
    | _, _ => none
  | .ended exited =>
    match s.call with
    | .ending child =>
      if exited then if s.isAlive child then none else some { s with call := .done }
      else some { s.destroyForcibly child with call := .done }
    | _ => none
  | .dies child =>
    some { s with children := s.children.modify child fun c => { c with alive := false } }

def State.runFrom (config : Config) (s : State) (events : List Event) : Option State :=
  events.foldlM (State.step config) s

/-- The states reached from a new `ServerProcess`, made at some time. -/
def State.run (config : Config) (nanoTime : Int) (events : List Event) : Option State :=
  State.runFrom config { nanoTime := nanoTime } events

end ServerProcess

end JavaWasm

end ReceiptVerifier
