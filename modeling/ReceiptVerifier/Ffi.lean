import ReceiptVerifier.Wire

/-!
# The C ABI

`rust/ffi/src/lib.rs`: the verification exports, each with a C string or with a pointer and a length
for its input. A pointer that may be `NULL` is an `Option`, what a call writes is beside what it
returns, and a string handed out is its bytes before the terminating NUL. Nothing the exports call
panics, so `guard` has no panic to contain.
-/

namespace ReceiptVerifier

open Openssl

namespace Ffi

/-! ## Status codes -/

/-- `AprvReason`. -/
inductive AprvReason where
  | ok
  | invalidCertificate
  | invalidCertificatePurpose
  | invalidSignature
  | internalError
  | malformed
  | tooLarge
  | untrustedChain
  | unreadablePayload
  | nullPointer
  | invalidUtf8
  | invalidArgument
  | panic
  | unknownReason
deriving DecidableEq, Repr

def AprvReason.code : AprvReason → Int
  | .ok => 0
  | .invalidCertificate => 2
  | .invalidCertificatePurpose => 3
  | .invalidSignature => 5
  | .internalError => 12
  | .malformed => 13
  | .tooLarge => 14
  | .untrustedChain => 15
  | .unreadablePayload => 16
  | .nullPointer => 100
  | .invalidUtf8 => 101
  | .invalidArgument => 102
  | .panic => 103
  | .unknownReason => 104

def reasonCodes : List (Int × String) := [
  (13, "MALFORMED"),
  (14, "TOO_LARGE"),
  (5, "INVALID_SIGNATURE"),
  (15, "UNTRUSTED_CHAIN"),
  (2, "INVALID_CERTIFICATE"),
  (3, "INVALID_CERTIFICATE_PURPOSE"),
  (16, "UNREADABLE_PAYLOAD"),
  (12, "INTERNAL_ERROR")]

def reasonCode (reason : Reason) : Int :=
  match reasonCodes.find? fun entry => entry.2 == reason.asStr with
  | some (code, _) => code
  | none => AprvReason.unknownReason.code

def statusToken (status : Int) : String :=
  if status = 0 then "OK"
  else if status = 100 then "NULL_POINTER"
  else if status = 101 then "INVALID_UTF8"
  else if status = 102 then "INVALID_ARGUMENT"
  else if status = 103 then "PANIC"
  else if status = 104 then "UNKNOWN_REASON"
  else
    match reasonCodes.find? fun entry => entry.1 == status with
    | some (_, token) => token
    | none => "UNKNOWN_REASON"

/-! ## Strings and bytes -/

/-- `CString::new`: the bytes before the terminating NUL, if there is no other. -/
def cString (text : String) : Option Bytes := if 0 ∈ utf8 text then none else some (utf8 text)

/-- `CStr::from_ptr`: what stands before the first NUL at a pointer. -/
def cStr (memory : Bytes) : Bytes := memory.takeWhile (· ≠ 0)

/-- `None` becomes `NULL`. -/
def intoCString (text : Option String) : Option Bytes := text.bind cString

def borrowStr (pointer : Option Bytes) : Except Int String :=
  match pointer with
  | none => .error AprvReason.nullPointer.code
  | some memory =>
    match fromUtf8 (cStr memory) with
    | none => .error AprvReason.invalidUtf8.code
    | some text => .ok text

structure AprvResult where
  status : Int
  json : Option Bytes
deriving DecidableEq, Repr

/-- The same two keys for a verdict and for a mistake in the call. -/
def errorJson (status : Int) (message : String) : String :=
  "\x7b\"reason\":" ++ json (.string (statusToken status)) ++ ",\"message\":" ++
    json (.string message) ++ "\x7d"

/-- What is returned, and what is written when `out` is not `NULL`. -/
def finish (out : Bool) (status : Int) (json : String) : Int × Option AprvResult :=
  (status, if out then some ⟨status, intoCString (some json)⟩ else none)

def outcome (result : Except Failure String) : Int × String :=
  match result with
  | .ok json => (AprvReason.ok.code, json)
  | .error failure =>
    let status := reasonCode failure.reason
    (status, errorJson status failure.message)

/-! ## The verifier -/

/-- A handle: the pinned roots, and the pinned instant, if there is one. -/
structure AprvVerifier where
  roots : List TrustAnchor
  fixedNow : Option Int

section

variable (ssl : OpenSsl) (jiff : Jiff) (base64 : Base64) (serde : SerdeJson)
  (systemClock : Nat → Option Int)

namespace AprvVerifier

/-- The pinned instant, or the system clock. -/
def now (verifier : AprvVerifier) : Nat → Option Int :=
  match verifier.fixedNow with
  | some nowMs => Verifier.clockAt nowMs
  | none => systemClock

def verifyReceipt (verifier : AprvVerifier) (input : Bytes) : Except Failure ReceiptPayload :=
  (Verifier.receipt ssl jiff base64 verifier.roots input (verifier.now systemClock)).value.1

def verifySignedData (verifier : AprvVerifier) (input : Bytes) : Except Failure JsonPayload :=
  (Verifier.signedData ssl base64 serde verifier.roots input (verifier.now systemClock)).value.1

def verifyReceiptEndpoint (verifier : AprvVerifier) (environment : Environment) (body : Bytes) :
    String :=
  (Verifier.endpoint ssl jiff base64 serde verifier.roots environment body
    (verifier.now systemClock)).value.1

end AprvVerifier

/-! ## The exports -/

/-- What both C-string verification calls share. -/
def call (verifier : Option AprvVerifier) (input : Option Bytes) (out : Bool)
    (verify : AprvVerifier → String → Except Failure String) : Int × Option AprvResult :=
  match verifier with
  | none =>
    let status := AprvReason.nullPointer.code
    finish out status (errorJson status "verifier is NULL")
  | some verifier =>
    match borrowStr input with
    | .error status =>
      let message :=
        if status = AprvReason.nullPointer.code then "input is NULL" else "input is not UTF-8"
      finish out status (errorJson status message)
    | .ok input =>
      let (status, json) := outcome (verify verifier input)
      finish out status json

/-- The status of a verdict. -/
def verdict {α : Type} (result : Except Failure α) : Int :=
  match result with
  | .ok _ => 0
  | .error failure => reasonCode failure.reason

end

end Ffi

end ReceiptVerifier
