import ReceiptVerifier.Java.EndpointResponse
import ReceiptVerifier.Java.JwsCore

/-!
# The verifyReceipt endpoint of the Java port

`Endpoint.java`, over a verification of receipts that is given, and `Utf8Length.java`. Jackson's
grammar is not part of the repository, so it is a parameter.
-/

namespace ReceiptVerifier

namespace Java

namespace Utf8Length

/-- The length of `getBytes(UTF_8)`: a surrogate without a partner is written as `?`. -/
def getBytesLength : List UInt16 → Nat
  | [] => 0
  | [unit] =>
    if unit.toNat < 0x80 then 1
    else if unit.toNat < 0x800 then 2
    else if unit.toNat < 0xd800 ∨ 0xe000 ≤ unit.toNat then 3
    else 1
  | unit :: low :: rest =>
    if unit.toNat < 0x80 then 1 + getBytesLength (low :: rest)
    else if unit.toNat < 0x800 then 2 + getBytesLength (low :: rest)
    else if unit.toNat < 0xd800 ∨ 0xe000 ≤ unit.toNat then 3 + getBytesLength (low :: rest)
    else if unit.toNat < 0xdc00 ∧ 0xdc00 ≤ low.toNat ∧ low.toNat < 0xe000 then
      4 + getBytesLength rest
    else 1 + getBytesLength (low :: rest)

/-- Whether a text takes more than `limit` bytes as UTF-8. -/
def exceeds (text : List UInt16) (limit : Nat) : Bool :=
  limit < text.length || limit < getBytesLength text

end Utf8Length

namespace Endpoint

open JwsCore

def maxRequestBytes : Nat := 3145728

/-- The tokens of the value a text starts with; `none` where the parser throws on the way. -/
abbrev Reader := List UInt16 → Option (List Token)

/-- The visitor of `receiptData`. -/
def receiptDataField : Visitor (Option (List UInt16)) := fun receiptData name parser =>
  (if name = units "receipt-data" then stringOf parser.current else receiptData, parser)

/-- The `receipt-data` string of a request body. The whole object is read and the last one wins;
nothing after it is read. -/
def receiptData (reader : Reader) (requestJson : Option (List UInt16)) :
    Except Failure (List UInt16) :=
  match requestJson with
  | none => .error ⟨.malformed, "request body is null"⟩
  | some requestJson =>
    if Utf8Length.exceeds requestJson maxRequestBytes then
      .error ⟨.tooLarge,
        "request body exceeds the maximum of " ++ toString maxRequestBytes ++ " bytes"⟩
    else
      match reader requestJson with
      | none => .error ⟨.malformed, "request body is not valid JSON"⟩
      | some tokens =>
        match read receiptDataField none ⟨none, tokens⟩ with
        | none => .error ⟨.malformed, "request body is not a JSON object"⟩
        | some (none, _) => .error ⟨.malformed, "receipt-data is missing or not a string"⟩
        | some (some receiptData, _) => .ok receiptData

/-- The status of a failure. -/
def status : Reason → Int
  | .malformed | .tooLarge => AppleStatus.malformedReceiptData
  | .invalidSignature | .untrustedChain | .invalidCertificate | .invalidCertificatePurpose =>
    AppleStatus.receiptNotAuthenticated
  | _ => AppleStatus.internalDataAccessError

/-- The status of a receipt that verifies. -/
def receiptStatus (environment : Environment) (receipt : ReceiptPayload) : Int :=
  let productionReceipt := receipt.environment == some .production
  if environment == .production && !productionReceipt then AppleStatus.sandboxReceiptOnProduction
  else if environment == .sandbox && productionReceipt then AppleStatus.productionReceiptOnSandbox
  -- a purchase that does not decode answers 21009 rather than a 0 that lacks it
  else if receipt.unknownAttributes.contains attrInApp then AppleStatus.internalDataAccessError
  else AppleStatus.ok

/-- `respond`, with the verification at the clock's instant and the pinned anchors. -/
def respond (reader : Reader) (rendering : EndpointResponse.Rendering)
    (verify : List UInt16 → Except Failure ReceiptPayload) (environment : Environment)
    (requestJson : Option (List UInt16)) (now : Int) : JsonValue :=
  match (receiptData reader requestJson).bind verify with
  | .ok receipt =>
    EndpointResponse.render rendering (receiptStatus environment receipt) environment (some receipt)
      now
  | .error e => EndpointResponse.render rendering (status e.reason) environment none now

end Endpoint

end Java

end ReceiptVerifier
