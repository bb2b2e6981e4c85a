import ReceiptVerifier.Server.Http

/-!
# The serving loop

`serve` and `run` of `rust/server/src/http.rs` as its tasks run at once: the loop that accepts
connections, a task for each connection with the request it is at, and a blocking task for each call
of a worker. They share three semaphores. The order of the steps is any, and a client may stall or
go away at any of them.
-/

namespace ReceiptVerifier

namespace Server

open Openssl

namespace Serve

/-- Request bodies admitted per worker. -/
def uploadsPerWorker : Nat := 4

/-! ## A request -/

/-- What the router makes of a method and a path. -/
inductive Route
  | verifyReceipt
  | verifySignedData
  | endpointProduction
  | endpointSandbox
  | info
  | healthz
  | readyz
  | openapi
  | notFound
  | methodNotAllowed
deriving DecidableEq, Repr

/-- The routes of `/v1/`, which `require_token` guards. -/
def Route.guarded : Route → Bool
  | verifyReceipt | verifySignedData | endpointProduction | endpointSandbox | info => true
  | _ => false

/-- A request head. -/
structure Head where
  route : Route
  token : Option Bytes
  now : Option Bytes
  contentLength : Option Bytes

/-- A request, and the server's clock when its head was read. -/
structure Request where
  head : Head
  clockMs : Int

/-- What is sent: a page that takes no body, or what `run` answers. -/
inductive Reply
  | page (text : String)
  | response (response : Response)

def Reply.close : Reply → Bool
  | page _ => false
  | response (.answer _ _ close) | response (.problem _ close) => close

/-- A server: its bounds and its pages, and what its calls come to. -/
structure Machine where
  maxConnections : Nat
  workers : Nat
  /-- The module's `max_input_bytes`. -/
  keep : Nat
  bodyTimeoutMs : Nat
  token : Option Bytes
  sha256 : Bytes → Bytes
  info : String
  openapi : String
  /-- What call `k` of a worker comes to; a trap may be the time limit. -/
  invoke : Nat → Op → Bytes → Except InvokeError String
  /-- Whether the worker of call `k` is lost. -/
  lost : Nat → Option String

namespace Machine

variable (m : Machine)

/-- The application as one request sees it. -/
def app (clockMs : Int) (call : Nat) (bodyInTime : Bool) : App where
  keep := m.keep
  clockMs := clockMs
  admitsUploads := true
  bodyTimeoutMs := m.bodyTimeoutMs
  bodyInTime := bodyInTime
  admitsCalls := true
  invoke := m.invoke call
  workerLost := m.lost call

/-- `require_token`: the tokens are compared by their digests. -/
def authorizes (head : Head) : Bool :=
  match m.token with
  | some want => !head.route.guarded || m.sha256 (head.token.getD []) == m.sha256 want
  | none => true

def unauthorized : Problem :=
  ⟨401, "UNAUTHORIZED", "Unauthorized", "missing or wrong X-Aprv-Token"⟩

/-- The operation of a route, or its page. -/
def handler : Route → (Int → Op) ⊕ Reply
  | .verifyReceipt => .inl .verifyReceipt
  | .verifySignedData => .inl .verifySignedData
  | .endpointProduction => .inl (.endpoint .production)
  | .endpointSandbox => .inl (.endpoint .sandbox)
  | .info => .inr (.page m.info)
  | .healthz => .inr (.page "ok")
  | .readyz => .inr (.page "ready")
  | .openapi => .inr (.page m.openapi)
  | .notFound => .inr (.response (.problem ⟨404, "NOT_FOUND", "Not Found",
      "no such route; GET /openapi.json lists them"⟩ false))
  | .methodNotAllowed => .inr (.response (.problem ⟨405, "METHOD_NOT_ALLOWED",
      "Method Not Allowed",
      "this route does not take that method; GET /openapi.json lists the routes"⟩ false))

/-- What a head asks for: an operation at an instant, or what is sent without reading the body. -/
def route (request : Request) : Op ⊕ Reply :=
  if !m.authorizes request.head then .inr (.response (.problem unauthorized false))
  else
    match m.handler request.head.route with
    | .inr page => .inr page
    | .inl op =>
      match nowMs (m.app request.clockMs 0 true) request.head.now with
      | .ok now => .inl (op now)
      | .error problem => .inr (.response (.problem problem false))

def requestTimeout : Problem :=
  ⟨408, "REQUEST_TIMEOUT", "Request Timeout",
    "the body did not arrive within " ++ toString m.bodyTimeoutMs ++ " ms"⟩

end Machine

/-- Announced past the drain limit. -/
def Head.announcedBig (head : Head) : Bool := (announced head.contentLength).any (maxDrain < ·)

/-- One turn of the loop of `read_capped`: the bytes kept and read so far, or the body. -/
def readFrame (keep : Nat) (announcedBig : Bool) (frame : Except String Frame) (buf : Bytes)
    (total : Nat) : Except ReadError (Bytes × Nat ⊕ Capped) :=
  match frame with
  | .error err => .error (.problem ⟨400, "BAD_REQUEST", "Bad Request", "reading the body: " ++ err⟩)
  | .ok .trailers => .ok (.inl (buf, total))
  | .ok (.data data) =>
    let total := min (total + data.length) usizeMax
    if keep < buf.length then .error .underflow
    else
      let room := keep - buf.length
      let buf := buf ++ data.take (min data.length room)
      if (announcedBig && keep ≤ total) || maxDrain < total then
        .ok (.inr { bytes := buf, overCap := keep ≤ total, close := true })
      else .ok (.inl (buf, total))

/-! ## The state -/

/-- Where the accepting loop is. -/
inductive Acceptor
  /-- Before `acquire_owned` of a place. -/
  | acquiring
  /-- Before `accept`, with a place. -/
  | accepting
  /-- In `accept_failed`, before it sleeps no more; the place is held. -/
  | failing
  /-- The listener is dropped; before `graceful.shutdown` ends. -/
  | draining
  | returned
deriving DecidableEq, Repr

/-- The loop holds a place. -/
def Acceptor.places : Acceptor → Nat
  | accepting | failing => 1
  | _ => 0

/-- The listener is there. -/
def Acceptor.listens : Acceptor → Bool
  | draining | returned => false
  | _ => true

/-- Where a connection is, with its request and the frames of the body that were read. -/
inductive Point
  /-- Before a whole request head arrived. -/
  | idle
  /-- Before `acquire_owned` of an upload. -/
  | admitting (request : Request) (op : Op)
  /-- Before `body.frame()`. -/
  | reading (request : Request) (op : Op) (frames : List (Except String Frame)) (buf : Bytes)
      (total : Nat)
  /-- Before `acquire_owned` of a worker. -/
  | queued (request : Request) (op : Op) (frames : List (Except String Frame)) (body : Capped)
  /-- Before the call ends. -/
  | calling (request : Request) (op : Op) (frames : List (Except String Frame)) (body : Capped)
      (call : Nat)
  /-- Before the response is written. -/
  | answering (request : Request) (frames : List (Except String Frame)) (reply : Reply)
  | closed

namespace Point

/-- The connection has a place. -/
def places : Point → Nat
  | closed => 0
  | _ => 1

/-- The uploads the request holds. -/
def uploads : Point → Nat
  | reading .. | queued .. => 1
  | _ => 0

/-- The bytes of the body that are held for the request. -/
def held : Point → Nat
  | reading _ _ _ buf _ => buf.length
  | queued _ _ _ body => body.bytes.length
  | _ => 0

end Point

/-- A blocking task: one call of a worker. -/
structure Task where
  op : Op
  input : Bytes
  running : Bool

/-- The permits a task holds. -/
def Task.permits (task : Task) : Nat := if task.running then 1 else 0

/-- The bytes a task holds. -/
def Task.held (task : Task) : Nat := if task.running then task.input.length else 0

/-- The permits that are free, and the tasks. -/
structure State where
  places : Nat
  uploads : Nat
  permits : Nat
  acceptor : Acceptor := .acquiring
  /-- The signal to shut down was given. -/
  signalled : Bool := false
  connections : List Point := []
  tasks : List Task := []

def Machine.start (m : Machine) : State where
  places := m.maxConnections
  uploads := m.workers * uploadsPerWorker
  permits := m.workers

/-- What happens next. -/
inductive Event
  | signal
  /-- The loop acquires a place. -/
  | acquire
  | accept
  /-- `accept` fails; the connection is skipped, or the loop sleeps. -/
  | acceptFailed (skipped : Bool)
  | woke
  /-- The loop sees the signal. -/
  | stop
  /-- Every connection ended. -/
  | drained
  | head (connection : Nat) (request : Request)
  /-- The request acquires an upload. -/
  | admitted (connection : Nat)
  | frame (connection : Nat) (frame : Except String Frame)
  /-- The body has no further frame. -/
  | ended (connection : Nat)
  /-- The body's deadline passes. -/
  | timeout (connection : Nat)
  /-- The request acquires a worker. -/
  | call (connection : Nat)
  /-- A worker's call ends. -/
  | finish (task : Nat)
  /-- The request sees that its call ended. -/
  | join (connection : Nat)
  /-- The response is written, and the client keeps the connection or not. -/
  | written (connection : Nat) (keepAlive : Bool)
  /-- The head's deadline or that of a write passes, or a shutdown finds the connection idle. -/
  | deadline (connection : Nat)
  /-- The client resets or leaves the connection. -/
  | gone (connection : Nat)

/-! ## The steps -/

namespace State

def move (s : State) (c : Nat) (point : Point) : State :=
  { s with connections := s.connections.set c point }

/-- The task of a connection ends where it is, and gives back what it holds. -/
def drop (s : State) (c : Nat) (point : Point) : State :=
  { s.move c .closed with places := s.places + 1, uploads := s.uploads + point.uploads }

end State

variable (m : Machine)

/-- The answer of `run` to a body that was read, after its call. -/
def Machine.reply (request : Request) (op : Op) (body : Capped) (call : Nat) : Reply :=
  .response (respondTo (m.app request.clockMs call true) body op)

/-- One step of one task; `none` where it cannot happen. -/
def State.step (s : State) : Event → Option State
  | .signal => some { s with signalled := true }
  | .acquire =>
    match s.acceptor, s.places with
    | .acquiring, places + 1 => some { s with acceptor := .accepting, places := places }
    | _, _ => none
  | .accept =>
    match s.acceptor with
    -- the place goes to the connection
    | .accepting => some { s with acceptor := .acquiring, connections := s.connections ++ [.idle] }
    | _ => none
  | .acceptFailed skipped =>
    match s.acceptor, skipped with
    | .accepting, true => some { s with acceptor := .acquiring, places := s.places + 1 }
    | .accepting, false => some { s with acceptor := .failing }
    | _, _ => none
  | .woke =>
    match s.acceptor with
    | .failing => some { s with acceptor := .acquiring, places := s.places + 1 }
    | _ => none
  | .stop =>
    match s.signalled, s.acceptor with
    | true, .acquiring => some { s with acceptor := .draining }
    | true, .accepting => some { s with acceptor := .draining, places := s.places + 1 }
    | _, _ => none
  | .drained =>
    match s.acceptor with
    | .draining =>
      if s.connections.all fun point => point.places == 0 then
        some { s with acceptor := .returned }
      else none
    | _ => none
  | .head c request =>
    match s.connections[c]? with
    | some .idle =>
      match m.route request with
      | .inl op => some (s.move c (.admitting request op))
      | .inr reply => some (s.move c (.answering request [] reply))
    | _ => none
  | .admitted c =>
    match s.connections[c]?, s.uploads with
    | some (.admitting request op), uploads + 1 =>
      some { s.move c (.reading request op [] [] 0) with uploads := uploads }
    | _, _ => none
  | .frame c frame =>
    match s.connections[c]? with
    | some point@(.reading request op frames buf total) =>
      let frames := frames ++ [frame]
      match readFrame m.keep request.head.announcedBig frame buf total with
      | .ok (.inl (buf, total)) => some (s.move c (.reading request op frames buf total))
      | .ok (.inr body) => some (s.move c (.queued request op frames body))
      | .error (.problem problem) =>
        some { s.move c (.answering request frames (.response (.problem problem false))) with
          uploads := s.uploads + 1 }
      -- a panic takes the connection's task with it
      | .error .underflow => some (s.drop c point)
    | _ => none
  | .ended c =>
    match s.connections[c]? with
    | some (.reading request op frames buf total) =>
      some (s.move c (.queued request op frames
        { bytes := buf, overCap := m.keep ≤ total, close := false }))
    | _ => none
  | .timeout c =>
    match s.connections[c]? with
    | some (.reading request _ frames _ _) =>
      some { s.move c (.answering request frames (.response (.problem m.requestTimeout true))) with
        uploads := s.uploads + 1 }
    | _ => none
  | .call c =>
    match s.connections[c]?, s.permits with
    | some (.queued request op frames body), permits + 1 =>
      some { s.move c (.calling request op frames body s.tasks.length) with
        permits := permits
        uploads := s.uploads + 1
        tasks := s.tasks ++ [{ op, input := body.bytes, running := true }] }
    | _, _ => none
  | .finish k =>
    match s.tasks[k]? with
    | some task =>
      if task.running then
        some { s with
          permits := s.permits + 1
          tasks := s.tasks.set k { task with running := false } }
      else none
    | none => none
  | .join c =>
    match s.connections[c]? with
    | some (.calling request op frames body call) =>
      match s.tasks[call]? with
      | some task =>
        if task.running then none
        else some (s.move c (.answering request frames (m.reply request op body call)))
      | none => none
    | _ => none
  | .written c keepAlive =>
    match s.connections[c]? with
    | some point@(.answering _ _ reply) =>
      if keepAlive && !reply.close && s.acceptor.listens then some (s.move c .idle)
      else some (s.drop c point)
    | _ => none
  | .deadline c =>
    match s.connections[c]? with
    | some .idle => some (s.drop c .idle)
    | some point@(.answering ..) => some (s.drop c point)
    | _ => none
  | .gone c =>
    match s.connections[c]? with
    | some .closed => none
    | some point => some (s.drop c point)
    | none => none

/-- The states a server reaches. -/
def State.run (events : List Event) : Option State := events.foldlM (State.step m) m.start

end Serve

end Server

end ReceiptVerifier
