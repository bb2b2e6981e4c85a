import ReceiptVerifier.Endpoint
import ReceiptVerifier.Jws

/-!
# The verifier

`rust/src/verifier.rs`: the one implementation of each operation. `now` is how to get the time,
never the time itself: the configured clock, or for the `_at` methods a closure that returns an
instant. A panic of it is the clock's failure, and nothing else here panics, so `contained` has no
other panic to contain.

Each operation returns its answer and the clock as the call leaves it.
-/

namespace ReceiptVerifier

open Openssl

namespace Verifier

/-- Every verdict without an anchor would be a misleading one. -/
def checkAnchors (roots : List TrustAnchor) : Except Failure Unit :=
  if roots.isEmpty then
    .error ⟨.internalError, "no trust anchors: the bundled Apple roots did not load"⟩
  else .ok ()

/-- Runs `verify` with a lazy clock over `now`. -/
def contained {α : Type} (roots : List TrustAnchor) (now : Nat → Option Int)
    (verify : Clock → Run (Except Failure α × Clock)) : Run (Except Failure α × Clock) :=
  match checkAnchors roots with
  | .error failure => pure (.error failure, Clock.new now)
  | .ok () => verify (Clock.new now)

variable (ssl : OpenSsl) (jiff : Jiff) (base64 : Base64) (json : SerdeJson)
  (roots : List TrustAnchor)

def receipt (text : Bytes) (now : Nat → Option Int) : Run (Except Failure ReceiptPayload × Clock) :=
  contained roots now (verifyReceipt ssl jiff base64 text roots)

def signedData (jws : Bytes) (now : Nat → Option Int) : Run (Except Failure JsonPayload × Clock) :=
  contained roots now (verifyJws ssl base64 json jws roots)

/-- `ReceiptVerifier.endpoint` with the clock it leaves. -/
def endpoint (environment : Environment) (request : Bytes) (now : Nat → Option Int) :
    Run (String × Clock) :=
  match checkAnchors roots with
  | .error failure => pure (statusOnly (status failure.reason), Clock.new now)
  | .ok () => respond ssl jiff base64 json environment request roots (Clock.new now)

/-- `_at`: the instant in place of the configured clock. -/
def clockAt (nowMs : Int) : Nat → Option Int := fun _ => some nowMs

def verifyReceiptBytesAt (text : Bytes) (nowMs : Int) : Except Failure ReceiptPayload :=
  (receipt ssl jiff base64 roots text (clockAt nowMs)).value.1

def verifySignedDataBytesAt (jws : Bytes) (nowMs : Int) : Except Failure JsonPayload :=
  (signedData ssl base64 json roots jws (clockAt nowMs)).value.1

def verifyReceiptEndpointBytesAt (environment : Environment) (request : Bytes) (nowMs : Int) :
    String :=
  (endpoint ssl jiff base64 json roots environment request (clockAt nowMs)).value.1

variable {ssl jiff base64 json roots}

theorem value_endpoint (environment : Environment) (request : Bytes) (now : Nat → Option Int) :
    (ReceiptVerifier.endpoint ssl jiff base64 json roots environment request now).value =
      (endpoint ssl jiff base64 json roots environment request now).value.1 := by
  unfold ReceiptVerifier.endpoint endpoint checkAnchors
  cases roots.isEmpty <;> rfl

end Verifier

end ReceiptVerifier
