import ReceiptVerifier.Server.Roots
import ReceiptVerifier.Wire

/-!
# The HTTP server

`rust/server/src/http.rs`: a request body read no further than the module needs and handed to it,
and `max_input_bytes` of `rust/server/src/runtime.rs`, which reads off the module's `init` answer
how far that is.
-/

namespace ReceiptVerifier

namespace Server

open Openssl

/-- Past the cap the server keeps reading, and discards, up to this many bytes before it answers. -/
def maxDrain : Nat := 16 * 2 ^ 20

/-! ## The length the module states -/

/-- A failure that is not a verification result. -/
inductive InvokeError where
  | trap (message : String)
  | abi (message : String)
  | internal (message : String)
deriving DecidableEq, Repr

/-- `Value::as_u64`. -/
def asU64 : JsonValue → Option Nat
  | .number value => if 0 ≤ value ∧ value < 2 ^ 64 then some value.toNat else none
  | _ => none

/-- The length an `init` answer states; `none` when it is a refusal. An accepting answer without a
usable length breaks the interface, and so does a length over the drain limit. -/
def maxInputBytes (json : SerdeJson) (answer : String) : Except InvokeError (Option Nat) :=
  let broken := InvokeError.abi
    ("init accepted the configuration but states no max_input_bytes: " ++ answer)
  match json.value answer with
  | .ok (.object members) =>
    match members.lookup "ok" with
    | some (.bool true) =>
      match ((members.lookup "max_input_bytes").bind asU64).filter (0 < ·) with
      | none => .error broken
      | some max =>
        if members.length ≠ 2 then .error broken
        else if max > maxDrain then
          .error (.abi ("init states max_input_bytes " ++ toString max ++ ", over the " ++
            toString maxDrain ++ " bytes the server reads of a request body: " ++ answer))
        else .ok (some max)
    | _ => .ok none
  | _ => .ok none

/-! ## The body -/

/-- A frame of a request body. -/
inductive Frame where
  | data (bytes : Bytes)
  | trailers
deriving DecidableEq, Repr

/-- The bytes of a frame that the body is made of. -/
def Frame.bytes : Frame → Bytes
  | .data bytes => bytes
  | .trailers => []

/-- A request body as the module gets it. -/
structure Capped where
  bytes : Bytes
  /-- The body was `keep` or longer, over the module's cap: the answer is 413. -/
  overCap : Bool
  /-- Part of the body was left unread: the connection is closed. -/
  close : Bool
deriving DecidableEq, Repr

/-- A response that is not a verification result. -/
structure Problem where
  status : Nat
  code : String
  title : String
  detail : String
deriving DecidableEq, Repr

/-- How the body's read can end otherwise: the problem to send, or `keep - buf.len()` below zero. -/
inductive ReadError where
  | problem (problem : Problem)
  | underflow
deriving DecidableEq, Repr

/-- `HeaderValue::to_str`. -/
def headerText (value : Bytes) : Option (List Char) :=
  if value.all fun byte => (0x20 ≤ byte && byte < 0x7f) || byte == 0x09 then
    some (value.map fun byte => Char.ofNat byte.toNat)
  else none

/-- The value of decimal digits, when there is one at least and nothing else. -/
def digitsValue (digits : List Char) : Option Nat :=
  if digits.isEmpty || !digits.all Char.isDigit then none
  else some (digits.foldl (fun value c => value * 10 + (c.toNat - 0x30)) 0)

/-- `str::parse::<u64>`: digits, after a `+` or not, within 64 bits. -/
def parseU64 (text : List Char) : Option Nat :=
  let digits := match text with
    | '+' :: digits => digits
    | digits => digits
  (digitsValue digits).filter (· < 2 ^ 64)

/-- What the `Content-Length` header announces. -/
def announced (contentLength : Option Bytes) : Option Nat :=
  (contentLength.bind headerText).bind parseU64

/-- The loop of `readCapped`: the frames to come, the bytes kept and the bytes read. -/
def readFrames (keep : Nat) (announcedBig : Bool) :
    List (Except String Frame) → Bytes → Nat → Except ReadError Capped
  | [], buf, total => .ok { bytes := buf, overCap := keep ≤ total, close := false }
  | .error err :: _, _, _ =>
    .error (.problem ⟨400, "BAD_REQUEST", "Bad Request", "reading the body: " ++ err⟩)
  | .ok .trailers :: frames, buf, total => readFrames keep announcedBig frames buf total
  | .ok (.data data) :: frames, buf, total =>
    let total := min (total + data.length) usizeMax
    if keep < buf.length then .error .underflow
    else
      let room := keep - buf.length
      let buf := buf ++ data.take (min data.length room)
      if (announcedBig && keep ≤ total) || maxDrain < total then
        .ok { bytes := buf, overCap := keep ≤ total, close := true }
      else readFrames keep announcedBig frames buf total

/-- Reads the request body, keeping at most `keep` bytes. -/
def readCapped (contentLength : Option Bytes) (body : List (Except String Frame)) (keep : Nat) :
    Except ReadError Capped :=
  -- announced past the drain limit: read what the module needs and stop
  let announcedBig := (announced contentLength).any (maxDrain < ·)
  readFrames keep announcedBig body [] 0

/-! ## A request -/

/-- A response: the module's answer, or a problem. -/
inductive Response where
  | answer (status : Nat) (json : String) (close : Bool)
  | problem (problem : Problem) (close : Bool)
deriving DecidableEq, Repr

def internalError (detail : String) : Problem :=
  ⟨500, "INTERNAL_ERROR", "Internal Server Error", detail⟩

/-- What comes of a request besides its headers and frames: whether the server still admits bodies
and calls, whether the body arrived in time, and what the workers answer; `none` is a worker
lost. -/
structure App where
  keep : Nat
  clockMs : Int
  admitsUploads : Bool
  bodyTimeoutMs : Nat
  bodyInTime : Bool
  admitsCalls : Bool
  invoke : Op → Bytes → Except InvokeError String
  workerLost : Option String

def firstLine (text : String) : String := String.ofList ((linesFrom text.toList []).headD [])

/-- The instant of the `X-Aprv-Now-Ms` header, or the server's clock. -/
def nowMs (app : App) (header : Option Bytes) : Except Problem Int :=
  match header with
  | none => .ok app.clockMs
  | some value =>
    let text := (headerText value).getD []
    match (digitsValue text).filter fun n => text.length ≤ 20 && n < 2 ^ 63 with
    | some n => .ok n
    | none => .error ⟨400, "BAD_REQUEST", "Bad Request",
        "X-Aprv-Now-Ms must be an integer from 0 to 9223372036854775807 in decimal " ++
          "(milliseconds since the Unix epoch)"⟩

/-- The response for what a worker answered to a body. -/
def respondTo (app : App) (body : Capped) (op : Op) : Response :=
  match app.workerLost with
  | some err => .problem (internalError ("the worker was lost: " ++ err)) body.close
  | none =>
    match app.invoke op body.bytes with
    | .ok json => .answer (if body.overCap then 413 else 200) json body.close
    | .error (.trap m) => .problem ⟨500, "WASM_TRAP", "Wasm Trap", firstLine m⟩ body.close
    | .error (.abi m) => .problem ⟨500, "ABI_ERROR", "ABI Error", firstLine m⟩ body.close
    | .error (.internal m) => .problem (internalError (firstLine m)) body.close

/-- One request, from its headers and its body to its response. -/
def run (app : App) (nowHeader contentLength : Option Bytes) (body : List (Except String Frame))
    (op : Int → Op) : Except ReadError Response :=
  match nowMs app nowHeader with
  | .error problem => .ok (.problem problem false)
  | .ok now =>
    if !app.admitsUploads then .ok (.problem (internalError "shutting down") false)
    else if !app.bodyInTime then
      .ok (.problem ⟨408, "REQUEST_TIMEOUT", "Request Timeout",
        "the body did not arrive within " ++ toString app.bodyTimeoutMs ++ " ms"⟩ true)
    else
      match readCapped contentLength body app.keep with
      | .error (.problem problem) => .ok (.problem problem false)
      | .error .underflow => .error .underflow
      | .ok read =>
        if !app.admitsCalls then .ok (.problem (internalError "shutting down") false)
        else .ok (respondTo app read (op now))

end Server

end ReceiptVerifier
