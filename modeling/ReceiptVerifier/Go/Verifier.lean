import ReceiptVerifier.Abi
import ReceiptVerifier.Go.Host
import ReceiptVerifier.Go.ReceiptPayload
import ReceiptVerifier.Lib.World

/-!
# The Go verifier

`go/verifier.go` over the typed methods of `go/internal/host/pool.go`: the clock, the call, and what
becomes of its answer. What an instance answers a `Guest` is here too, as the module's own exports
and memory (`Abi`) behind the canonical ABI and wazero.
-/

namespace ReceiptVerifier

namespace Go

/-! ## The typed methods of the pool -/

inductive Method
  | verifyReceipt (nowMs : UInt64)
  | verifySignedData (nowMs : UInt64)
  | verifyReceiptEndpoint (env : UInt32) (nowMs : UInt64)

namespace Method

def fn : Method → String
  | .verifyReceipt _ => "verify-receipt"
  | .verifySignedData _ => "verify-signed-data"
  | .verifyReceiptEndpoint _ _ => "verify-receipt-endpoint"

def args (method : Method) (input : Bytes) : List Value :=
  match method with
  | .verifyReceipt nowMs => [.uint64 nowMs, .string input]
  | .verifySignedData nowMs => [.uint64 nowMs, .string input]
  | .verifyReceiptEndpoint env nowMs => [.uint32 env, .uint64 nowMs, .string input]

/-- What the pool is asked. -/
def asks (method : Method) (input : Bytes) : String × List Value := (method.fn, method.args input)

/-- The verification the module makes of it, unless the environment traps. -/
def op : Method → Option Op
  | .verifyReceipt nowMs => some (.verifyReceipt (Abi.liftInt nowMs))
  | .verifySignedData nowMs => some (.verifySignedData (Abi.liftInt nowMs))
  | .verifyReceiptEndpoint env nowMs =>
    (Abi.liftEnvironment env.toUInt64).map fun environment =>
      .endpoint environment (Abi.liftInt nowMs)

end Method

/-! ## The facade -/

/-- `errors.As(err, &trap)`. -/
def Error.isTrap : Error → Bool
  | .trap _ _ => true
  | .instantiating err => err.isTrap
  | _ => false

def internalError (message : String) : Failure := ⟨.internalError, message⟩

/-- A call that ended in the machinery, not in a verdict. -/
def hostFailure (cause : Error) : Failure :=
  if cause.isTrap then internalError "the verification module trapped"
  else if cause.isResult then unreadableAnswer
  else internalError "the verification module could not be run"

/-- The clock's answer, where it does not panic, as the module takes it. -/
def now (clock : Option Int64) : Except Failure UInt64 :=
  match clock with
  | none => .error (internalError "the configured clock panicked")
  | some instant =>
    if instant < 0 then
      .error (internalError "the configured clock answered a time before 1970")
    else .ok instant.toUInt64

/-- `statusOnlyResponse`. -/
def statusOnlyResponse (status : Nat) : String := "\x7b\"status\":" ++ toString status ++ "\x7d"

section

variable (encoding : Encoding) (clock : Option Int64)
  (pool : Method → Bytes → Except Error Bytes)

/-- The answer of a verification, once the clock answered. -/
def answerText (method : UInt64 → Method) (input : Bytes) : Except Failure String := do
  let nowMs ← now clock
  match pool (method nowMs) input with
  | .error err => .error (hostFailure err)
  | .ok answer =>
    match fromUtf8 answer with
    | none => .error unreadableAnswer
    | some answer => .ok answer

def verifyReceipt (base64 : Bytes) : Except Failure (Host.ReceiptPayload Int) := do
  let answer ← answerText clock pool .verifyReceipt base64
  receiptAnswer encoding answer

/-- A payload that `encoding/json` reads into a `string`. -/
def signedFromJson : JsonValue → Except Failure String
  | .string signed => .ok signed
  | .null => .ok ""
  | _ => .error unreadableAnswer

def verifySignedData (jws : Bytes) : Except Failure JsonPayload := do
  let answer ← answerText clock pool .verifySignedData jws
  let (result, environment) ← readResult encoding answer
  let signed ← signedFromJson result
  pure ⟨signed, environment⟩

/-- An environment's discriminant. -/
def discriminant : Environment → UInt32
  | .production => 0
  | .sandbox => 1

/-- Neither a failure nor an answer that is no JSON is handed on. -/
def verifyReceiptEndpoint (valid : String → Bool) (environment : Environment)
    (requestJson : Bytes) : String :=
  let failed := statusOnlyResponse 21009
  match answerText clock pool (.verifyReceiptEndpoint (discriminant environment)) requestJson with
  | .error _ => failed
  | .ok answer => if valid answer then answer else failed

end

/-! ## The instance behind a guest -/

section

variable (ssl : Openssl.OpenSsl) (jiff : Jiff) (base64 : Base64) (json : SerdeJson)
  (appleRoots : List TrustAnchor) (fails : Prop)

/-- What an instance of the module answers a `Guest`, and what becomes of the instance. Where the
machinery may fail, an export may end in an error whatever it was asked. No byte outside a buffer is
promised to stay, and nothing empties the slot. -/
def Answers : World Abi.Instance Request Response
  | i, .dead, _, i' => i' = i
  | i, .maxInput, _, i' => i' = i
  | i, .realloc n, .ok ptr, i' =>
    i'.slot = i.slot ∧ 0 < ptr.toUInt32.toNat ∧ i'.Inside ptr.toUInt32 (n % 2 ^ 32) ∧
      i'.memory.length ≤ 2 ^ 32
  | i, .realloc _, .error _, i' => i'.slot = i.slot ∧ fails
  | i, .write ptr bytes, inside, i' =>
    inside = decide (i.Inside ptr bytes.length) ∧ i' = if inside then i.write ptr bytes else i
  | i, .invoke fn core, .ok ret, i' =>
    ∃ text, i.invoke ssl jiff base64 json appleRoots fn core = some (text, i'.slot) ∧
      i'.Returns ret.toUInt32 text
  | i, .invoke fn core, .error _, i' =>
    (∀ anchors, i.slot = some anchors → i'.slot = some anchors) ∧
      (fails ∨ i.invoke ssl jiff base64 json appleRoots fn core = none)
  | i, .readUint32Le offset, word, i' => i' = i ∧ word = i.readUint32Le offset
  | i, .read ptr n, inside, i' => i' = i ∧ inside = decide (i.Inside ptr n.toNat)
  | i, .copy ptr n, out, i' => i' = i ∧ out = i.slice ptr n.toNat
  | i, .postReturn _ _, .ok _, i' => i'.slot = i.slot
  | i, .postReturn _ _, .error _, i' => i'.slot = i.slot ∧ fails
  | i, .close, _, i' => i' = i

/-- An instance whose guest was asked a history answered it, from before `init` on. -/
def Answered (history : Trace) : Prop :=
  ∃ i i', i.slot = none ∧ (Answers ssl jiff base64 json appleRoots fails).Follows i history i'

end

/-! ## Who asked what -/

/-- The calls that entered the pool, in order: the `c + 1`-th caller makes the `c`-th. -/
def entries (events : List Event) : List (String × List Value) :=
  events.filterMap fun event =>
    match event with
    | .enter fn args => some (fn, args)
    | _ => none

/-- What a caller asked; the first caller is `newPool`. -/
def asked (events : List Event) : Nat → Option (String × List Value)
  | 0 => none
  | c + 1 => (entries events)[c]?

end Go

end ReceiptVerifier
