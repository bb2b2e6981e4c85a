import Mathlib.Data.List.Infix
import ReceiptVerifier.Basic
import ReceiptVerifier.JavaWasm.ServerProcess
import ReceiptVerifier.Lib.Reader

/-!
# The java-wasm host's HTTP connection

`HttpConn.java`: one keep-alive connection, a request written in one piece and its response read off
the socket's stream. The stream is what the server will send, byte by byte, with whatever a read may
throw in between. A line is a string of one Latin-1 character a byte, so it is kept as its bytes.
-/

namespace ReceiptVerifier

namespace JavaWasm

namespace HttpConn

open StreamReader (Turn next throw loop Shrinks Forward)

/-- What `in` still has to give. -/
abbrev Input := List (Except String UInt8)

/-- What reads the stream: it may throw what a read throws, or its own complaint. -/
abbrev InputStream (α : Type) := StreamReader String UInt8 α

/-- `MAX_RESPONSE`: larger than any answer the module writes. -/
def maxResponse : Nat := 64 <<< 20

/-- `MAX_LINE`. -/
def maxLine : Nat := 16 <<< 10

/-- `MAX_HEADERS`. -/
def maxHeaders : Nat := 100

/-! ## Strings -/

/-- `getBytes(US_ASCII)`. -/
def ascii (text : String) : Bytes :=
  text.toList.map fun c => if c.val < 0x80 then c.val.toUInt8 else 0x3F

/-- The characters of a line. -/
def latin1 (text : Bytes) : List Char := text.map fun b => Char.ofNat b.toNat

/-- `toLowerCase(Locale.ROOT)`, on Latin-1. -/
def toLowerCase (text : Bytes) : Bytes :=
  text.map fun b =>
    if (0x41 ≤ b ∧ b ≤ 0x5A) ∨ (0xC0 ≤ b ∧ b ≤ 0xDE ∧ b ≠ 0xD7) then b + 0x20 else b

/-- `String.trim`: what is at most a space goes from both ends. -/
def trim (text : Bytes) : Bytes :=
  let blank (b : UInt8) : Bool := decide (b ≤ 0x20)
  ((text.dropWhile blank).reverse.dropWhile blank).reverse

/-- A space or a tab. -/
def blank (b : UInt8) : Bool := b == 0x20 || b == 0x09

def isDigit (b : UInt8) : Bool := decide (0x30 ≤ b ∧ b ≤ 0x39)

def isHexDigit (b : UInt8) : Bool :=
  decide (0x30 ≤ b ∧ b ≤ 0x39 ∨ 0x41 ≤ b ∧ b ≤ 0x46 ∨ 0x61 ≤ b ∧ b ≤ 0x66)

/-- `Character.digit`, of a hex digit. -/
def digit (b : UInt8) : Nat :=
  if b ≤ 0x39 then b.toNat - 0x30 else if b ≤ 0x46 then b.toNat - 0x37 else b.toNat - 0x57

/-- `Long.parseLong` and `Integer.parseInt`, of digits that fit. -/
def numeral (base : Nat) (digits : Bytes) : Nat :=
  digits.foldl (fun value b => base * value + digit b) 0

/-- `[0-9]{1,18}`. -/
def isLength (text : Bytes) : Bool :=
  text.all isDigit && decide (1 ≤ text.length ∧ text.length ≤ 18)

/-- `[0-9A-Fa-f]{1,7}`. -/
def isSize (text : Bytes) : Bool :=
  text.all isHexDigit && decide (1 ≤ text.length ∧ text.length ≤ 7)

/-! ## Lines and blocks -/

/-- What the end of the stream throws in a line. -/
def closed : String := "the connection closed"

/-- One turn of the loop of `line`, which ends only at a CR with its LF. -/
def lineTurn (line : Bytes) : InputStream (Turn Bytes Bytes) := do
  let c ← next closed
  if c = 0x0D then do
    let after ← next closed
    if after ≠ 0x0A then throw "a CR not followed by LF in a response line"
    else pure (.done line)
  else if c = 0x0A then throw "a response line ended by LF alone"
  else if maxLine ≤ line.length then
    throw ("a response line over " ++ toString maxLine ++ " bytes")
  else pure (.again (line ++ [c]))

/-- A turn reads a byte at least, so the loop ends. -/
theorem shrinks_lineTurn (line : Bytes) : Shrinks (lineTurn line) :=
  (StreamReader.shrinks_next closed).bind fun _ =>
    .ite ((StreamReader.forward_next closed).bind fun _ =>
        .ite (StreamReader.forward_throw _) (StreamReader.forward_pure _))
      (.ite (StreamReader.forward_throw _)
        (.ite (StreamReader.forward_throw _) (StreamReader.forward_pure _)))

theorem forward_lineTurn (line : Bytes) : Forward (lineTurn line) :=
  (StreamReader.forward_next closed).bind fun _ =>
    .ite ((StreamReader.forward_next closed).bind fun _ =>
        .ite (StreamReader.forward_throw _) (StreamReader.forward_pure _))
      (.ite (StreamReader.forward_throw _)
        (.ite (StreamReader.forward_throw _) (StreamReader.forward_pure _)))

/-- One line, without its CRLF. -/
def line : InputStream Bytes := loop lineTurn shrinks_lineTurn []

theorem forward_line : Forward line := StreamReader.forward_loop forward_lineTurn []

theorem shrinks_line : Shrinks line := StreamReader.shrinks_loop forward_lineTurn []

/-- `readNBytes` of as many bytes as are asked for; fewer are a failure. -/
def exactly : Nat → InputStream Bytes
  | 0 => pure []
  | n + 1 => do
    let b ← next "the connection closed inside a response"
    let bytes ← exactly n
    pure (b :: bytes)

/-- It never gives back what it read. -/
theorem forward_exactly (n : Nat) : Forward (exactly n) := by
  induction n with
  | zero => exact StreamReader.forward_pure []
  | succ n ih =>
    exact (StreamReader.forward_next _).bind fun _ => ih.bind fun _ => StreamReader.forward_pure _

/-! ## Chunks -/

/-- One turn of the loop over the trailers, which ends at an empty line. -/
def trailer (_ : Unit) : InputStream (Turn Unit Unit) := do
  let line ← line
  if line ≠ [] then pure (.again ()) else pure (.done ())

theorem forward_trailer (u : Unit) : Forward (trailer u) :=
  forward_line.bind fun _ => .ite (StreamReader.forward_pure _) (StreamReader.forward_pure _)

theorem shrinks_trailer (u : Unit) : Shrinks (trailer u) :=
  shrinks_line.bind fun _ => .ite (StreamReader.forward_pure _) (StreamReader.forward_pure _)

/-- The trailers, ignored. -/
def trailers : InputStream Unit := loop trailer shrinks_trailer ()

theorem forward_trailers : Forward trailers := StreamReader.forward_loop forward_trailer ()

/-- What a body past the limit throws. -/
def tooLarge : String := "a response over " ++ toString maxResponse ++ " bytes"

/-- What `chunked` does once it has a size. -/
def chunkOf (body : Bytes) (n : Nat) : InputStream (Turn Bytes Bytes) :=
  if maxResponse < body.length + n then throw tooLarge
  else if n = 0 then do
    trailers
    pure (.done body)
  else do
    let bytes ← exactly n
    let after ← line
    if after ≠ [] then throw "a chunk not followed by CRLF"
    else pure (.again (body ++ bytes))

/-- One turn of the loop of `chunked`. -/
def chunk (body : Bytes) : InputStream (Turn Bytes Bytes) := do
  let sizeLine ← line
  let size := sizeLine.takeWhile (· ≠ 0x3B)
  if !isSize size then throw "a malformed chunk size"
  else chunkOf body (numeral 16 size)

theorem forward_chunkOf (body : Bytes) (n : Nat) : Forward (chunkOf body n) :=
  .ite (StreamReader.forward_throw _)
    (.ite (forward_trailers.bind fun _ => StreamReader.forward_pure _)
      ((forward_exactly n).bind fun _ => forward_line.bind fun _ =>
        .ite (StreamReader.forward_throw _) (StreamReader.forward_pure _)))

theorem forward_chunk (body : Bytes) : Forward (chunk body) :=
  forward_line.bind fun _ => .ite (StreamReader.forward_throw _) (forward_chunkOf body _)

/-- A turn reads a line at least, so the loop ends. -/
theorem shrinks_chunk (body : Bytes) : Shrinks (chunk body) :=
  shrinks_line.bind fun _ => .ite (StreamReader.forward_throw _) (forward_chunkOf body _)

/-- The body of a chunked response. -/
def chunked : InputStream Bytes := loop chunk shrinks_chunk []

theorem forward_chunked : Forward chunked := StreamReader.forward_loop forward_chunk []

/-! ## The head -/

/-- The local variables of `exchange` that the headers set; a `length` of −1 is `none`. -/
structure Head where
  count : Nat := 0
  length : Option Nat := none
  chunked : Bool := false
  close : Bool
  contentType : Bytes := []
deriving DecidableEq, Repr

/-- A header's name in lower case and its value, unless it is malformed. -/
def field (header : Bytes) : Option (Bytes × Bytes) :=
  match header.dropWhile (· ≠ 0x3A) with
  | [] => none
  | _ :: value =>
    let name := header.takeWhile (· ≠ 0x3A)
    if name = [] ∨ name.getLast?.any blank ∨ name.head?.any blank then none
    else some (toLowerCase name, trim value)

/-- What one header sets; of those that frame the body none may repeat. -/
def Head.set (head : Head) (name value : Bytes) : Except String Head :=
  if name = ascii "content-length" then
    if head.length.isSome ∨ isLength value = false then
      .error "a malformed or repeated Content-Length"
    else .ok { head with length := some (numeral 10 value) }
  else if name = ascii "transfer-encoding" then
    if head.chunked ∨ toLowerCase value ≠ ascii "chunked" then
      .error ("a Transfer-Encoding other than chunked alone: " ++ String.ofList (latin1 value))
    else .ok { head with chunked := true }
  else if name = ascii "connection" then
    .ok { head with close := decide (ascii "close" <:+: toLowerCase value) }
  else if name = ascii "content-type" then .ok { head with contentType := value }
  else .ok head

/-- A header line that is not empty. -/
def Head.next (head : Head) (header : Bytes) : Except String Head :=
  if maxHeaders ≤ head.count then .error "too many response headers"
  else
    match field header with
    | none => .error "a malformed response header"
    | some (name, value) => do
      let head ← head.set name value
      .ok { head with count := head.count + 1 }

/-- One turn of the loop over the headers. -/
def header (head : Head) : InputStream (Turn Head Head) := do
  let header ← line
  if header = [] then pure (.done head)
  else
    match head.next header with
    | .error e => throw e
    | .ok head => pure (.again head)

theorem forward_headerOf (head : Head) (line : Bytes) :
    Forward (match head.next line with
      | .error e => throw e
      | .ok head => pure (.again head) : InputStream (Turn Head Head)) := by
  split
  · exact StreamReader.forward_throw _
  · exact StreamReader.forward_pure _

theorem forward_header (head : Head) : Forward (header head) :=
  forward_line.bind fun line => .ite (StreamReader.forward_pure _) (forward_headerOf head line)

theorem shrinks_header (head : Head) : Shrinks (header head) :=
  shrinks_line.bind fun line => .ite (StreamReader.forward_pure _) (forward_headerOf head line)

/-- The headers, to the empty line. -/
def headers (head : Head) : InputStream Head := loop header shrinks_header head

theorem forward_headers (head : Head) : Forward (headers head) :=
  StreamReader.forward_loop forward_header head

/-- The status code of a line that is one of HTTP/1.x. -/
def statusOf (statusLine : Bytes) : Except String Int :=
  if ¬ ascii "HTTP/1." <+: statusLine ∨ statusLine.length < 12 ∨ statusLine[8]? ≠ some 0x20 then
    .error "not an HTTP/1.x status line"
  else
    match ServerProcess.parseInt (latin1 ((statusLine.drop 9).take 3)) with
    | none => .error "not an HTTP status code"
    | some status => .ok status

/-! ## An exchange -/

/-- A complete response. -/
structure Response where
  status : Int
  contentType : String
  body : Bytes
deriving DecidableEq, Repr

/-- The body, by the framing the head states. -/
def body (method : String) (status : Int) (head : Head) : InputStream Bytes :=
  if head.chunked ∧ head.length.isSome then
    throw "a response with both Content-Length and chunked encoding"
  else if head.chunked then chunked
  else
    match head.length with
    | some length => if maxResponse < length then throw tooLarge else exactly length
    | none =>
      if status = 204 ∨ status = 304 ∨ method = "HEAD" then pure []
      else throw "a response with neither Content-Length nor chunked encoding"

/-- The head and the body after a status line that is one. -/
def answer (method : String) (statusLine : Bytes) (status : Int) :
    InputStream (Response × Bool) := do
  let head ← headers { close := decide (ascii "HTTP/1.0" <+: statusLine) }
  let body ← body method status head
  pure (⟨status, String.ofList (latin1 head.contentType), body⟩, head.close)

/-- The response, and whether it closes the connection. -/
def response (method : String) : InputStream (Response × Bool) := do
  let statusLine ← line
  match statusOf statusLine with
  | .error e => throw e
  | .ok status => answer method statusLine status

theorem forward_body (method : String) (status : Int) (head : Head) :
    Forward (body method status head) := by
  refine .ite (StreamReader.forward_throw _) (.ite forward_chunked ?_)
  split
  · exact .ite (StreamReader.forward_throw _) (forward_exactly _)
  · exact .ite (StreamReader.forward_pure _) (StreamReader.forward_throw _)

theorem forward_answer (method : String) (statusLine : Bytes) (status : Int) :
    Forward (answer method statusLine status) :=
  (forward_headers _).bind fun head => (forward_body method status head).bind fun _ =>
    StreamReader.forward_pure _

/-- A response is read off the front of the stream. -/
theorem forward_response (method : String) : Forward (response method) := by
  refine forward_line.bind fun line => ?_
  split
  · exact StreamReader.forward_throw _
  · exact forward_answer method line _

/-- The `Host` header's value. -/
def hostHeader (host : String) (port : Int) : String :=
  if ':' ∉ host.toList then host ++ ":" ++ toString port
  else "[" ++ String.ofList (host.toList.takeWhile (· ≠ '%')) ++ "]:" ++ toString port

/-- The arguments of `exchange`. -/
structure Request where
  method : String
  path : String
  body : Bytes
  nowMs : Option Int := none

/-- What `exchange` writes. -/
def Request.bytes (target : Target) (request : Request) : Bytes :=
  ascii (request.method ++ " " ++ target.basePath ++ request.path ++ " HTTP/1.1\r\nHost: " ++
      hostHeader target.host target.port ++ "\r\n" ++
      (match target.token with
        | none => ""
        | some token => "X-Aprv-Token: " ++ token ++ "\r\n") ++
      (match request.nowMs with
        | none => ""
        | some nowMs => "X-Aprv-Now-Ms: " ++ toString nowMs ++ "\r\n") ++
      "Content-Type: application/octet-stream\r\nContent-Length: " ++
      toString request.body.length ++ "\r\n\r\n") ++
    request.body

end HttpConn

/-- `HttpConn`: its target, the two ends of its socket and whether it can carry another request. -/
structure HttpConn where
  target : Target
  input : HttpConn.Input
  out : Bytes := []
  reusable : Bool := true

namespace HttpConn

/-- `exchange`; `written` is what the write or the flush throws, if it does. -/
def exchange (conn : HttpConn) (request : Request) (written : Option String) :
    Except String Response × HttpConn :=
  match written with
  | some failure => (.error failure, { conn with reusable := false })
  | none =>
    let out := conn.out ++ request.bytes conn.target
    match (response request.method).read conn.input with
    | (.ok (response, close), input) =>
      (.ok response, { conn with input := input, out := out, reusable := !close })
    | (.error failure, input) =>
      (.error failure, { conn with input := input, out := out, reusable := false })

/-- Exchanges on one connection, each with what it returned or threw and `reusable()` after it. -/
def exchanges (conn : HttpConn) :
    List (Request × Option String) → List (Except String Response × Bool) × HttpConn
  | [] => ([], conn)
  | (request, written) :: calls =>
    let (outcome, after) := conn.exchange request written
    let (outcomes, last) := after.exchanges calls
    ((outcome, after.reusable) :: outcomes, last)

end HttpConn

end JavaWasm

end ReceiptVerifier
