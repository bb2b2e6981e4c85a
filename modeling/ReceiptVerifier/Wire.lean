import ReceiptVerifier.Verifier

/-!
# The module's answers

The JSON a binding boundary hands out: `ReceiptPayload::to_json` of `rust/src/receipt_payload.rs`,
the one writer of a receipt's JSON, the answers `rust/bindings/wire` writes around it, and the four
exports of `rust/bindings/abi`, which answer them.
-/

namespace ReceiptVerifier

open Openssl

/-! ## Scalars -/

/-- An `Option` as `serde_json` writes it: `null`, or the value. -/
def JsonValue.ofOption {α : Type} (value : α → JsonValue) : Option α → JsonValue
  | none => .null
  | some a => value a

def json (value : JsonValue) : String := value.display

/-- A 64-bit id as a JSON string, so JavaScript readers do not round it. -/
def idJson (value : Option Int) : String := json (.ofOption .string (value.map toString))

/-- Bytes as padded standard base64. -/
def bytesJson (base64 : Base64) (value : Option Bytes) : String :=
  json (.ofOption .string (value.map base64.encode))

/-! ## Arrays and objects -/

/-- `items`, already JSON, as one array. -/
def arrayJson (items : List String) : String := "[" ++ ",".intercalate items ++ "]"

/-- `members`, each value already JSON, as one object in the order given. -/
def objectJson (members : List (String × String)) : String :=
  "\x7b" ++ ",".intercalate (members.map fun (key, value) => "\"" ++ key ++ "\":" ++ value) ++
    "\x7d"

variable (base64 : Base64)

/-- Keys ascending by attribute type, each type's values in receipt order. -/
def attributesJson (attributes : UnknownAttributes) : String :=
  objectJson (attributes.toList.map fun (attributeType, values) =>
    (toString attributeType,
      arrayJson (values.map fun value => json (.string (base64.encode value)))))

/-- One element of `in_app`. -/
def InAppPurchase.toJson (purchase : InAppPurchase) : String :=
  objectJson [
    ("quantity", json (.ofOption .number purchase.quantity)),
    ("product_id", json (.ofOption .string purchase.productId)),
    ("transaction_id", json (.ofOption .string purchase.transactionId)),
    ("purchase_date_ms", json (.ofOption .number purchase.purchaseDateMs)),
    ("original_transaction_id", json (.ofOption .string purchase.originalTransactionId)),
    ("original_purchase_date_ms", json (.ofOption .number purchase.originalPurchaseDateMs)),
    ("expires_date_ms", json (.ofOption .number purchase.expiresDateMs)),
    ("web_order_line_item_id", idJson purchase.webOrderLineItemId),
    ("cancellation_date_ms", json (.ofOption .number purchase.cancellationDateMs)),
    ("cancellation_reason", json (.ofOption .number purchase.cancellationReason)),
    ("is_trial_period", json (.ofOption .bool purchase.isTrialPeriod)),
    ("is_in_intro_offer_period", json (.ofOption .bool purchase.isInIntroOfferPeriod)),
    ("unknown_attributes", attributesJson base64 purchase.unknownAttributes)]

def ReceiptPayload.toJson (receipt : ReceiptPayload) : String :=
  objectJson [
    ("receipt_type", json (.ofOption .string receipt.receiptType)),
    ("app_item_id", idJson receipt.appItemId),
    ("bundle_id", json (.ofOption .string receipt.bundleId)),
    ("bundle_id_bytes", bytesJson base64 receipt.bundleIdBytes),
    ("application_version", json (.ofOption .string receipt.applicationVersion)),
    ("opaque_value", bytesJson base64 receipt.opaqueValue),
    ("sha1_hash", bytesJson base64 receipt.sha1Hash),
    ("receipt_creation_date_ms", json (.ofOption .number receipt.receiptCreationDateMs)),
    ("download_id", idJson receipt.downloadId),
    ("version_external_identifier", idJson receipt.versionExternalIdentifier),
    ("in_app", arrayJson (receipt.inApp.map (InAppPurchase.toJson base64))),
    ("original_purchase_date_ms", json (.ofOption .number receipt.originalPurchaseDateMs)),
    ("preorder_date_ms", json (.ofOption .number receipt.preorderDateMs)),
    ("original_application_version", json (.ofOption .string receipt.originalApplicationVersion)),
    ("expiration_date_ms", json (.ofOption .number receipt.expirationDateMs)),
    ("unknown_attributes", attributesJson base64 receipt.unknownAttributes)]

/-! ## Answers -/

def Reason.asStr : Reason → String
  | .malformed => "MALFORMED"
  | .tooLarge => "TOO_LARGE"
  | .invalidSignature => "INVALID_SIGNATURE"
  | .untrustedChain => "UNTRUSTED_CHAIN"
  | .invalidCertificate => "INVALID_CERTIFICATE"
  | .invalidCertificatePurpose => "INVALID_CERTIFICATE_PURPOSE"
  | .unreadablePayload => "UNREADABLE_PAYLOAD"
  | .internalError => "INTERNAL_ERROR"

/-- A verified answer, `payload` already JSON text. -/
def verified (payload : String) (environment : Option Environment) : String :=
  "\x7b\"verified\":true,\"payload\":" ++ payload ++ ",\"environment\":" ++
    json (.ofOption .string (environment.map Environment.asStr)) ++ "\x7d"

/-- A refusal, its three members in this order. -/
def refused (failure : Failure) : String :=
  "\x7b\"verified\":false,\"reason\":" ++ json (.string failure.reason.asStr) ++ ",\"message\":" ++
    json (.string failure.message) ++ "\x7d"

def verifyReceiptResult : Except Failure ReceiptPayload → String
  | .ok receipt => verified (receipt.toJson base64) receipt.environment
  | .error refusal => refused refusal

def verifySignedDataResult : Except Failure JsonPayload → String
  | .ok payload => verified (json (.string payload.json)) payload.environment
  | .error refusal => refused refusal

def larger (a b : Nat) : Nat := if a > b then a else b

/-- The most bytes of one input a host needs to hand the core: one over the largest size cap. -/
def maxInputBytes : Nat := larger maxReceiptBytes (larger maxRequestBytes maxJwsBytes) + 1

/-- The answer of `init`: the length above, or why the configuration was refused. -/
def initResult : Except String Unit → String
  | .ok () => "\x7b\"ok\":true,\"max_input_bytes\":" ++ toString maxInputBytes ++ "\x7d"
  | .error message => "\x7b\"ok\":false,\"message\":" ++ json (.string message) ++ "\x7d"

/-! ## The exports -/

/-- One of the three verifications. -/
inductive Op where
  | verifyReceipt (nowMs : Int)
  | verifySignedData (nowMs : Int)
  | endpoint (environment : Environment) (nowMs : Int)
deriving DecidableEq, Repr

variable (ssl : OpenSsl) (jiff : Jiff) (serde : SerdeJson) (roots : List TrustAnchor)

/-- What an instance answers whose `init` made a verifier over these roots. -/
def Op.answer (op : Op) (input : Bytes) : String :=
  match op with
  | .verifyReceipt nowMs =>
    verifyReceiptResult base64 (Verifier.verifyReceiptBytesAt ssl jiff base64 roots input nowMs)
  | .verifySignedData nowMs =>
    verifySignedDataResult (Verifier.verifySignedDataBytesAt ssl base64 serde roots input nowMs)
  | .endpoint environment nowMs =>
    Verifier.verifyReceiptEndpointBytesAt ssl jiff base64 serde roots environment input nowMs

end ReceiptVerifier
