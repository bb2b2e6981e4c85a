import ReceiptVerifier.Abi
import ReceiptVerifier.Lib.World
import ReceiptVerifier.Python.Host

/-!
# The Python verifier

`python/apple_purchase_receipt_verifier/verifier.py`: the pool a `Verifier` is made with, the clock,
the call, and what becomes of a fault. What an instance answers wasmtime's callers is here too, as
the module's own exports and memory (`Abi`) behind the canonical ABI.
-/

namespace ReceiptVerifier

namespace Python

/-! ## The input -/

/-- A `str`: its code points, lone surrogates among them. -/
abbrev Str := List (Fin 0x110000)

/-- One code point in UTF-8, a surrogate like any other. -/
def encodePoint (v : Nat) : Bytes :=
  if v ≤ 0x7f then [.ofNat v]
  else if v ≤ 0x7ff then [.ofNat (0xc0 + v / 0x40), .ofNat (0x80 + v % 0x40)]
  else if v ≤ 0xffff then
    [.ofNat (0xe0 + v / 0x1000), .ofNat (0x80 + v / 0x40 % 0x40), .ofNat (0x80 + v % 0x40)]
  else
    [.ofNat (0xf0 + v / 0x40000), .ofNat (0x80 + v / 0x1000 % 0x40),
      .ofNat (0x80 + v / 0x40 % 0x40), .ofNat (0x80 + v % 0x40)]

/-- The bytes the module receives; anything but a string is empty input. -/
def bytes : Option Str → Bytes
  | none => []
  | some text => text.flatMap fun point => encodePoint point.val

/-! ## The methods -/

/-- What the three methods answer. -/
inductive Reply
  | receipt (result : Except Failure (Host.ReceiptPayload Int))
  | signedData (result : Except Failure JsonPayload)
  | endpoint (text : String)

inductive Method
  | verifyReceipt
  | verifySignedData
  | verifyReceiptEndpoint (environment : Environment)

/-- `_ENVIRONMENT_CODE`. -/
def environmentCode : Environment → Int
  | .production => 0
  | .sandbox => 1

namespace Method

/-- What a method runs on the pool. -/
def job (library : Library) (method : Method) (now : Int) (data : Bytes) : Job Reply :=
  match method with
  | .verifyReceipt =>
    ⟨"verify-receipt", [now], data, fun text => (Wire.receiptResult library text).map .receipt⟩
  | .verifySignedData =>
    ⟨"verify-signed-data", [now], data,
      fun text => (Wire.signedDataResult library text).map .signedData⟩
  | .verifyReceiptEndpoint environment =>
    ⟨"verify-receipt-endpoint", [environmentCode environment, now], data,
      fun text => (Wire.endpointAnswer library text).map .endpoint⟩

/-- The verification the module makes of it. -/
def op (method : Method) (now : Int) : Op :=
  match method with
  | .verifyReceipt => .verifyReceipt now
  | .verifySignedData => .verifySignedData now
  | .verifyReceiptEndpoint environment => .endpoint environment now

/-- What a method makes of a fault. -/
def internalError (method : Method) (fault : Fault) : Reply :=
  match method with
  | .verifyReceipt => .receipt (.error ⟨.internalError, fault⟩)
  | .verifySignedData => .signedData (.error ⟨.internalError, fault⟩)
  | .verifyReceiptEndpoint _ => .endpoint "\x7b\"status\":21009\x7d"

end Method

/-! ## The clock -/

/-- What a call of the configured clock comes to. A `bool` is no `int` here. -/
inductive ClockAnswer
  | raised
  | int (n : Int)
  | other

/-- `_now`. -/
def now : ClockAnswer → Except Fault Int
  | .raised => .error "the configured clock failed"
  | .other => .error "the configured clock did not answer epoch milliseconds"
  | .int n =>
    if 0 ≤ n ∧ n ≤ 2 ^ 63 - 1 then .ok n
    else .error "the configured clock did not answer epoch milliseconds"

/-- A method of the `Verifier`, over `run` of its pool. -/
def verify (library : Library) (clock : ClockAnswer) (run : Job Reply → Except Raised Reply)
    (method : Method) (text : Option Str) : Except Raised Reply :=
  match now clock with
  | .error fault => .ok (method.internalError fault)
  | .ok now =>
    match run (method.job library now (bytes text)) with
    | .ok reply => .ok reply
    | .error (.fault fault) => .ok (method.internalError fault)
    | .error .valueError => .error .valueError

/-! ## A verifier is made -/

inductive SetupError
  | valueError (message : String)
  | runtimeError (message : String)

/-- `_pool_size`, by what `os.cpu_count()` answers. -/
def poolSize (cpuCount : Option Nat) : Nat :=
  let cpus := match cpuCount with
    | none | some 0 => 1
    | some cpus => cpus
  max 2 (min 8 cpus)

/-- `Verifier._setup`, over a module that compiled: the pool, once wasmtime answered. -/
def setup (library : Library) (roots : Option (List Bytes)) (cpuCount : Option Nat)
    (answers : List ((r : Request) → Response r)) : Option (Except SetupError (Pool Reply)) :=
  if roots = some [] then some (.error (.valueError "config.roots must not be empty"))
  else
    match Pool.new (Wire.initConfig library roots) (Wire.initAccepted library) (poolSize cpuCount)
      answers with
    | none => none
    | some (.error _) =>
      some (.error (.runtimeError "the verification module could not be started"))
    | some (.ok (pool, true, _)) => some (.ok pool)
    | some (.ok (pool, false, answer)) =>
      match Wire.checkInit library answer with
      | .error _ => some (.error (.runtimeError "the verification module could not be started"))
      | .ok none => some (.ok pool)
      | .ok (some refusal) =>
        some (.error (.valueError s!"the module refused config.roots: {refusal}"))

/-! ## The instance behind a store -/

/-- Arguments as the core takes them. -/
def coreArguments (scalars : List Int) (pointer length : Nat) : List UInt64 :=
  scalars.map UInt64.ofInt ++ [.ofNat pointer, .ofNat length]

section

variable (ssl : Openssl.OpenSsl) (jiff : Jiff) (base64 : Base64) (json : SerdeJson)
  (appleRoots : List TrustAnchor) (fails : Prop)

/-- What an instance of the module answers, and what becomes of it. Where the machinery may fail,
anything may raise. No byte outside a buffer is promised to stay, and nothing empties the slot but a
new instance. -/
def Answers : World Abi.Instance Request Response
  | _, .instantiate, .ok _, i' => i'.slot = none
  | _, .instantiate, .error _, _ => fails
  | i, .realloc n, .ok pointer, i' =>
    i'.slot = i.slot ∧ 0 < unsigned pointer ∧
      unsigned pointer + n % 2 ^ 32 ≤ i'.memory.length ∧ i'.memory.length ≤ 2 ^ 32
  | i, .realloc _, .error _, i' => i'.slot = i.slot ∧ fails
  | i, .dataLen, .ok size, i' => i' = i ∧ size = i.memory.length
  | i, .dataLen, .error _, i' => i' = i ∧ fails
  | i, .write data pointer, .ok _, i' => i' = i.write (.ofNat pointer) data
  | i, .write data pointer, .error _, i' =>
    i' = i ∧ (fails ∨ i.memory.length < pointer + data.length)
  | i, .invoke fn scalars pointer length, .ok area, i' =>
    ∃ text, i.invoke ssl jiff base64 json appleRoots fn (coreArguments scalars pointer length) =
      some (text, i'.slot) ∧ i'.Returns (.ofNat (unsigned area)) text
  | i, .invoke fn scalars pointer length, .error _, i' =>
    (∀ anchors, i.slot = some anchors → i'.slot = some anchors) ∧
      (fails ∨ i.invoke ssl jiff base64 json appleRoots fn
        (coreArguments scalars pointer length) = none)
  | i, .read start stop, .ok out, i' =>
    i' = i ∧ out = (i.memory.drop start).take (stop - start)
  | i, .read _ _, .error _, i' => i' = i ∧ fails
  | i, .post _ _, .ok _, i' => i'.slot = i.slot
  | i, .post _ _, .error _, i' => i'.slot = i.slot ∧ fails

end

end Python

end ReceiptVerifier
