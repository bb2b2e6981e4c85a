import Mathlib.Logic.Function.Basic

/-!
# The java-wasm host's connections

`ServerConnection.java`, with what it relies on of `HttpConn.java`: requests to one server on idle
connections kept on a queue beside a counter. The state is moved by any number of threads in `send`
and in `close`, one read or write of `closed`, one queue or counter operation, or one opening,
exchange or closing of a connection at a time. Connections and targets are references.
-/

namespace ReceiptVerifier

namespace JavaWasm

namespace ServerConnection

/-- An `HttpConn.Target`, by its identity. -/
abbrev Target := Nat

def attempts : Nat := 3

/-! ## A connection -/

/-- What was done with a connection, which decides its fields. -/
inductive Use
  /-- `new HttpConn(target, ..)`. -/
  | opened (target : Target)
  /-- `exchange` returned, and whether the answer closes the connection. -/
  | answered (close : Bool)
  /-- `exchange` threw an `IOException`. -/
  | failed
deriving DecidableEq, Repr

namespace HttpConn

/-- The field `target`. -/
def target : List Use → Option Target
  | .opened target :: _ => some target
  | _ => none

/-- The field `reusable`: true at first, false from the start of an exchange, and then what its
answer says. -/
def reusable (uses : List Use) : Bool :=
  match uses.getLast? with
  | some (.answered close) => !close
  | some .failed => false
  | _ => true

end HttpConn

/-! ## The threads -/

/-- Who runs `closeIdle`. -/
inductive Drain
  | send
  | close
deriving DecidableEq, Repr

/-- Where a thread is. -/
inductive Thread
  /-- In `send`, before it reads `closed`. -/
  | checking (attempt : Nat)
  /-- Before `process.target()`. -/
  | targeting (attempt : Nat)
  /-- In `takeIdle`, before `idle.poll()`. -/
  | taking (attempt : Nat) (target : Target)
  /-- In `takeIdle`, before `idleCount.decrementAndGet()`. -/
  | taken (attempt : Nat) (target : Target) (conn : Nat)
  /-- Before it closes a connection to another target. -/
  | stale (attempt : Nat) (target : Target) (conn : Nat)
  /-- Before `new HttpConn`. -/
  | opening (attempt : Nat) (target : Target)
  | exchanging (attempt : Nat) (target : Target) (conn : Nat)
  /-- Before `!conn.reusable() || closed`. -/
  | answered (conn : Nat)
  /-- In `keepIdle`, before `idleCount.incrementAndGet()`. -/
  | counting (conn : Nat)
  /-- In `keepIdle`, before `idle.add(conn)`. -/
  | adding (conn : Nat)
  /-- In `keepIdle`, before it reads `closed` again. -/
  | added
  /-- In `keepIdle`, before `idleCount.decrementAndGet()`. -/
  | overfull (conn : Nat)
  /-- Before it closes the connection of its answer. -/
  | closing (conn : Nat)
  /-- Before it closes the connection of a failed exchange. -/
  | failing (attempt : Nat) (conn : Nat)
  /-- Before `process.recover(..)`. -/
  | recovering (attempt : Nat)
  | returned
  | threw
  /-- In `close`, before `closed = true`. -/
  | shutting
  /-- In `closeIdle`, before `idle.poll()`. -/
  | draining (drain : Drain)
  /-- In `closeIdle`, before `idleCount.decrementAndGet()`. -/
  | drained (drain : Drain) (conn : Nat)
  /-- In `closeIdle`, before `conn.close()`. -/
  | discarding (drain : Drain) (conn : Nat)
  /-- In `close`, before `process.stop()`. -/
  | stopping
  /-- `close` returned. -/
  | shut
deriving DecidableEq, Repr

/-- The next attempt, or the failure after the last one. -/
def Thread.retry (attempt : Nat) : Thread :=
  if attempt + 1 < attempts then .checking (attempt + 1) else .threw

/-- What follows `closeIdle`. -/
def Drain.done : Drain → Thread
  | .send => .returned
  | .close => .stopping

structure State where
  closed : Bool := false
  idle : List Nat := []
  idleCount : Int := 0
  threads : List Thread := []
  /-- How many connections were opened. -/
  opened : Nat := 0
  uses : Nat → List Use := fun _ => []
  /-- The connections that are closed. -/
  closedConns : List Nat := []

namespace State

def move (s : State) (thread : Nat) (t : Thread) : State :=
  { s with threads := s.threads.set thread t }

def record (s : State) (conn : Nat) (use : Use) : State :=
  { s with uses := Function.update s.uses conn (s.uses conn ++ [use]) }

/-- `conn.close()`. -/
def closeConn (s : State) (conn : Nat) : State :=
  { s with closedConns := conn :: s.closedConns }

end State

/-- What happens next, and what the server and the supervised child did. -/
inductive Event
  | send
  | close
  | readClosed (thread : Nat)
  /-- `process.target()` returns a target or throws. -/
  | target (thread : Nat) (answer : Option Target)
  | poll (thread : Nat)
  | decrementAndGet (thread : Nat)
  | incrementAndGet (thread : Nat)
  | add (thread : Nat)
  /-- `new HttpConn` returns or throws. -/
  | open_ (thread : Nat) (returned : Bool)
  /-- `exchange` returns, and whether the answer closes the connection, or throws. -/
  | exchange (thread : Nat) (answer : Option Bool)
  | closeConn (thread : Nat)
  | recover (thread : Nat)
  | writeClosed (thread : Nat)
  | stop (thread : Nat)

/-- One step of one thread; `none` where it cannot happen. `fixed` is the one target of a server the
caller runs. -/
def State.step (fixed : Option Target) (maxIdle : Nat) (s : State) : Event → Option State
  | .send => some { s with threads := s.threads ++ [.checking 0] }
  | .close => some { s with threads := s.threads ++ [.shutting] }
  | .readClosed i =>
    match s.threads[i]? with
    | some (.checking attempt) =>
      some (s.move i (if s.closed then .threw else .targeting attempt))
    | some (.answered conn) =>
      some (s.move i (if !HttpConn.reusable (s.uses conn) || s.closed then .closing conn
        else .counting conn))
    | some .added => some (s.move i (if s.closed then .draining .send else .returned))
    | _ => none
  | .target i answer =>
    match s.threads[i]? with
    | some (.targeting attempt) =>
      match fixed.or answer with
      | some target => some (s.move i (.taking attempt target))
      | none => some (s.move i .threw)
    | _ => none
  | .poll i =>
    match s.threads[i]?, s.idle with
    | some (.taking attempt target), conn :: idle =>
      some { s.move i (.taken attempt target conn) with idle := idle }
    | some (.taking attempt target), [] => some (s.move i (.opening attempt target))
    | some (.draining drain), conn :: idle =>
      some { s.move i (.drained drain conn) with idle := idle }
    | some (.draining drain), [] => some (s.move i drain.done)
    | _, _ => none
  | .decrementAndGet i =>
    match s.threads[i]? with
    | some (.taken attempt target conn) =>
      -- `conn.target != target` compares references
      let next := if HttpConn.target (s.uses conn) = some target then
        .exchanging attempt target conn else .stale attempt target conn
      some { s.move i next with idleCount := s.idleCount - 1 }
    | some (.overfull conn) =>
      some { s.move i (.closing conn) with idleCount := s.idleCount - 1 }
    | some (.drained drain conn) =>
      some { s.move i (.discarding drain conn) with idleCount := s.idleCount - 1 }
    | _ => none
  | .incrementAndGet i =>
    match s.threads[i]? with
    | some (.counting conn) =>
      let count := s.idleCount + 1
      some { s.move i (if count ≤ (maxIdle : Int) then .adding conn else .overfull conn) with
        idleCount := count }
    | _ => none
  | .add i =>
    match s.threads[i]? with
    | some (.adding conn) => some { s.move i .added with idle := s.idle ++ [conn] }
    | _ => none
  | .open_ i returned =>
    match s.threads[i]? with
    | some (.opening attempt target) =>
      if returned then
        some { (s.record s.opened (.opened target)).move i
          (.exchanging attempt target s.opened) with
          opened := s.opened + 1 }
      else some (s.move i (.recovering attempt))
    | _ => none
  | .exchange i answer =>
    match s.threads[i]? with
    | some (.exchanging attempt _ conn) =>
      match answer with
      | some close => some ((s.record conn (.answered close)).move i (.answered conn))
      | none => some ((s.record conn .failed).move i (.failing attempt conn))
    | _ => none
  | .closeConn i =>
    match s.threads[i]? with
    | some (.stale attempt target conn) => some ((s.closeConn conn).move i (.taking attempt target))
    | some (.closing conn) => some ((s.closeConn conn).move i .returned)
    | some (.failing attempt conn) => some ((s.closeConn conn).move i (.recovering attempt))
    | some (.discarding drain conn) => some ((s.closeConn conn).move i (.draining drain))
    | _ => none
  | .recover i =>
    match s.threads[i]? with
    | some (.recovering attempt) => some (s.move i (.retry attempt))
    | _ => none
  | .writeClosed i =>
    match s.threads[i]? with
    | some .shutting => some { s.move i (.draining .close) with closed := true }
    | _ => none
  | .stop i =>
    match s.threads[i]? with
    | some .stopping => some (s.move i .shut)
    | _ => none

/-- The states any number of threads reach from a new connection pool. -/
def State.run (fixed : Option Target) (maxIdle : Nat) (events : List Event) : Option State :=
  events.foldlM (State.step fixed maxIdle) {}

end ServerConnection

end JavaWasm

end ReceiptVerifier
