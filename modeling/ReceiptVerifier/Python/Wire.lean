import ReceiptVerifier.Host
import ReceiptVerifier.Lib.Utf16
import ReceiptVerifier.Wire

/-!
# The Python host's reading of an answer

`python/apple_purchase_receipt_verifier/_wire.py`, and `to_json` of `receipt_payload.py`.
`json.loads`, `base64` and `int` of a text are a parameter (`Library`). A `bool` is an `int` too, so
every reading of a number refuses one first.
-/

namespace ReceiptVerifier

namespace Python

/-- The standard library, as the host uses it. -/
structure Library where
  /-- `json.loads`: an `int` of any size; `none` is a `ValueError`. -/
  loads : String → Option JsonValue
  /-- `base64.b64decode` with `validate`. -/
  b64decode : String → Option Bytes
  /-- `base64.b64encode`, decoded as ASCII. -/
  b64encode : Bytes → String
  /-- `int(text)`. -/
  int : String → Option Int

/-- `ResultShapeError`, by its message. -/
abbrev ShapeError := String

namespace Wire

/-! ## `json.dumps` -/

/-- `\uXXXX`, in lower case. -/
def escapeUnit (unit : UInt16) : List Char :=
  ['\\', 'u', hexDigit (unit.toNat / 0x1000), hexDigit (unit.toNat / 0x100 % 0x10),
    hexDigit (unit.toNat / 0x10 % 0x10), hexDigit (unit.toNat % 0x10)]

/-- `json.dumps` of a character: what is not printable ASCII is escaped, by its code units where it
has no escape with a letter. -/
def escapeAscii (c : Char) : List Char :=
  if c == '"' then ['\\', '"']
  else if c == '\\' then ['\\', '\\']
  else if c.toNat == 0x08 then ['\\', 'b']
  else if c.toNat == 0x09 then ['\\', 't']
  else if c.toNat == 0x0a then ['\\', 'n']
  else if c.toNat == 0x0c then ['\\', 'f']
  else if c.toNat == 0x0d then ['\\', 'r']
  else if 0x20 ≤ c.toNat ∧ c.toNat ≤ 0x7e then [c]
  else (Utf16.encodeChar c).flatMap escapeUnit

def quoteAscii (text : String) : String :=
  "\"" ++ String.ofList (text.toList.flatMap escapeAscii) ++ "\""

/-- `json.dumps` with the separators `","` and `":"`. -/
def dumps (value : JsonValue) : String := value.displayWith quoteAscii

/-! ## `init` -/

/-- `value.get(name)`, where an absent member is `None` as `null` is. -/
def get (value : List (String × JsonValue)) (name : String) : JsonValue :=
  (value.lookup name).getD .null

variable (library : Library)

/-- `init`'s argument: the roots, or nothing for the ones compiled into the module. -/
def initConfig (roots : Option (List Bytes)) : Bytes :=
  match roots with
  | none => utf8 "\x7b\x7d"
  | some roots =>
    let encoded := roots.map fun der => JsonValue.string (library.b64encode der)
    utf8 (dumps (.object [("roots", .array encoded)]))

def object (text : String) : Except ShapeError (List (String × JsonValue)) :=
  match library.loads text with
  | none => .error "the answer is not JSON"
  | some (.object value) => .ok value
  | some _ => .error "the answer is not a JSON object"

/-- The `max_input_bytes` of an accepting answer, a positive integer. -/
def maxInputBytes (value : List (String × JsonValue)) : Except ShapeError Nat :=
  match get value "max_input_bytes" with
  | .number limit =>
    if limit ≤ 0 then .error "init accepted the roots but stated no max_input_bytes"
    else .ok limit.toNat
  | _ => .error "init accepted the roots but stated no max_input_bytes"

/-- `None` when `init` accepted the roots, else its refusal. -/
def checkInit (answer : String) : Except ShapeError (Option String) := do
  let value ← object library answer
  match get value "ok", get value "message" with
  | .bool true, _ => do
    let _ ← maxInputBytes value
    pure none
  | .bool false, .string message => pure (some message)
  | _, _ => .error "init answered neither ok nor a refusal"

/-- The most bytes of one input the module needs; `None` for anything but an acceptance. -/
def initAccepted (answer : String) : Option Nat :=
  match object library answer with
  | .error _ => none
  | .ok value =>
    match get value "ok" with
    | .bool true => (maxInputBytes value).toOption
    | _ => none

/-! ## Values -/

section

variable {library}

def string : JsonValue → Except ShapeError (Option String)
  | .null => .ok none
  | .string text => .ok (some text)
  | _ => .error "expected a string or null"

def number : JsonValue → Except ShapeError (Option Int)
  | .null => .ok none
  | .number n => .ok (some n)
  | _ => .error "expected an integer or null"

def flag : JsonValue → Except ShapeError (Option Bool)
  | .null => .ok none
  | .bool value => .ok (some value)
  | _ => .error "expected a boolean or null"

end

/-- A 64-bit id, sent as a decimal string so no reader rounds it. -/
def id (value : JsonValue) : Except ShapeError (Option Int) := do
  match ← string value with
  | none => pure none
  | some text =>
    match library.int text with
    | none => .error "expected a decimal id"
    | some id => pure (some id)

def octets (value : JsonValue) : Except ShapeError (Option Bytes) := do
  match ← string value with
  | none => pure none
  | some text =>
    match library.b64decode text with
    | none => .error "expected padded base64"
    | some octets => pure (some octets)

def requiredOctets (value : JsonValue) : Except ShapeError Bytes := do
  match ← octets library value with
  | none => .error "expected base64, not null"
  | some octets => pure octets

/-- The loop of `_unknown`. The values are read before the key is. -/
def unknownLoop : List (String × JsonValue) → Host.RawAttributes →
    Except ShapeError Host.RawAttributes
  | [], out => .ok out
  | (key, .array values) :: value, out => do
    let values ← values.mapM (requiredOctets library)
    match library.int key with
    | none => .error "expected a decimal attribute type"
    | some type => unknownLoop value (Host.put out type values)
  | _ :: _, _ => .error "expected a list of attribute values"

/-- The values in receipt order. -/
def unknown : JsonValue → Except ShapeError Host.RawAttributes
  | .null => .ok []
  | .object value => unknownLoop library value []
  | _ => .error "expected an object of unknown attributes"

def inApp (value : JsonValue) : Except ShapeError (Host.InAppPurchase Int) :=
  match value with
  | .object value => do
    pure {
      quantity := ← number (get value "quantity")
      productId := ← string (get value "product_id")
      transactionId := ← string (get value "transaction_id")
      purchaseDateMs := ← number (get value "purchase_date_ms")
      originalTransactionId := ← string (get value "original_transaction_id")
      originalPurchaseDateMs := ← number (get value "original_purchase_date_ms")
      expiresDateMs := ← number (get value "expires_date_ms")
      webOrderLineItemId := ← id library (get value "web_order_line_item_id")
      cancellationDateMs := ← number (get value "cancellation_date_ms")
      cancellationReason := ← number (get value "cancellation_reason")
      isTrialPeriod := ← flag (get value "is_trial_period")
      isInIntroOfferPeriod := ← flag (get value "is_in_intro_offer_period")
      unknownAttributes := ← unknown library (get value "unknown_attributes") }
  | _ => .error "expected an in-app purchase object"

/-- The entries of `in_app`, none when it is null. -/
def purchaseList : JsonValue → Except ShapeError (List JsonValue)
  | .null => .ok []
  | .array entries => .ok entries
  | _ => .error "expected a list of in-app purchases"

def receiptPayload (value : JsonValue) (environment : Option Environment) :
    Except ShapeError (Host.ReceiptPayload Int) :=
  match value with
  | .object value => do
    let purchases ← purchaseList (get value "in_app")
    pure {
      receiptType := ← string (get value "receipt_type")
      appItemId := ← id library (get value "app_item_id")
      bundleId := ← string (get value "bundle_id")
      bundleIdBytes := ← octets library (get value "bundle_id_bytes")
      applicationVersion := ← string (get value "application_version")
      opaqueValue := ← octets library (get value "opaque_value")
      sha1Hash := ← octets library (get value "sha1_hash")
      receiptCreationDateMs := ← number (get value "receipt_creation_date_ms")
      downloadId := ← id library (get value "download_id")
      versionExternalIdentifier := ← id library (get value "version_external_identifier")
      inApp := ← purchases.mapM (inApp library)
      originalPurchaseDateMs := ← number (get value "original_purchase_date_ms")
      preorderDateMs := ← number (get value "preorder_date_ms")
      originalApplicationVersion := ← string (get value "original_application_version")
      expirationDateMs := ← number (get value "expiration_date_ms")
      unknownAttributes := ← unknown library (get value "unknown_attributes")
      environment := environment }
  | _ => .error "expected a receipt payload object"

/-! ## Answers -/

def reasons : List Reason :=
  [.malformed, .tooLarge, .invalidSignature, .untrustedChain, .invalidCertificate,
    .invalidCertificatePurpose, .unreadablePayload, .internalError]

def failure (value : List (String × JsonValue)) : Except ShapeError Failure :=
  match get value "reason", get value "message" with
  | .string token, .string message =>
    match reasons.find? fun reason => reason.asStr == token with
    | none => .error "a reason outside the eight of 0.7"
    | some reason => .ok ⟨reason, message⟩
  | _, _ => .error "a failure without a reason and a message"

/-- The `environment` beside a verified payload. -/
def environment (value : List (String × JsonValue)) : Except ShapeError (Option Environment) :=
  match value.lookup "environment" with
  | none => .error "a verified answer without an environment"
  | some .null => .ok none
  | some (.string "Production") => .ok (some .production)
  | some (.string "Sandbox") => .ok (some .sandbox)
  | some _ => .error "an environment other than Production, Sandbox or null"

/-- `VerificationResult`: a payload or a failure. -/
def result {α : Type} (text : String)
    (payload : JsonValue → Option Environment → Except ShapeError α) :
    Except ShapeError (Except Failure α) := do
  let value ← object library text
  match get value "verified", value.lookup "payload" with
  | .bool true, some verified => do
    let environment ← environment value
    pure (.ok (← payload verified environment))
  | .bool false, _ => pure (.error (← failure value))
  | _, _ => .error "the answer is neither a payload nor a failure"

def receiptResult (text : String) :
    Except ShapeError (Except Failure (Host.ReceiptPayload Int)) :=
  result library text (receiptPayload library)

def signedPayload (value : JsonValue) (environment : Option Environment) :
    Except ShapeError JsonPayload :=
  match value with
  | .string json => .ok ⟨json, environment⟩
  | _ => .error "the signed payload is not a JSON string"

def signedDataResult (text : String) : Except ShapeError (Except Failure JsonPayload) :=
  result library text signedPayload

/-- Apple's response, handed on as it is once it has an integer `status`. -/
def endpointAnswer (text : String) : Except ShapeError String := do
  let value ← object library text
  match get value "status" with
  | .number _ => pure text
  | _ => .error "the endpoint answer has no integer status"

/-! ## `to_json` -/

/-- `None` as `null`. -/
def optional {α : Type} (value : α → JsonValue) : Option α → JsonValue := .ofOption value

/-- A 64-bit id as a decimal string. -/
def idJson (value : Option Int) : JsonValue := optional .string (value.map toString)

def base64Json (value : Option Bytes) : JsonValue :=
  optional .string (value.map library.b64encode)

/-- The types in order, each by its decimal string. -/
def attributesJson (attributes : Host.RawAttributes) : JsonValue :=
  .object ((attributes.mergeSort fun a b => a.1 ≤ b.1).map fun (type, values) =>
    (toString type, .array (values.map fun value => .string (library.b64encode value))))

def jsonValue (p : Host.InAppPurchase Int) : JsonValue :=
  .object [
    ("quantity", optional .number p.quantity),
    ("product_id", optional .string p.productId),
    ("transaction_id", optional .string p.transactionId),
    ("purchase_date_ms", optional .number p.purchaseDateMs),
    ("original_transaction_id", optional .string p.originalTransactionId),
    ("original_purchase_date_ms", optional .number p.originalPurchaseDateMs),
    ("expires_date_ms", optional .number p.expiresDateMs),
    ("web_order_line_item_id", idJson p.webOrderLineItemId),
    ("cancellation_date_ms", optional .number p.cancellationDateMs),
    ("cancellation_reason", optional .number p.cancellationReason),
    ("is_trial_period", optional .bool p.isTrialPeriod),
    ("is_in_intro_offer_period", optional .bool p.isInIntroOfferPeriod),
    ("unknown_attributes", attributesJson library p.unknownAttributes)]

/-- The value `to_json` writes with `dumps`. -/
def toJson (p : Host.ReceiptPayload Int) : JsonValue :=
  .object [
    ("receipt_type", optional .string p.receiptType),
    ("app_item_id", idJson p.appItemId),
    ("bundle_id", optional .string p.bundleId),
    ("bundle_id_bytes", base64Json library p.bundleIdBytes),
    ("application_version", optional .string p.applicationVersion),
    ("opaque_value", base64Json library p.opaqueValue),
    ("sha1_hash", base64Json library p.sha1Hash),
    ("receipt_creation_date_ms", optional .number p.receiptCreationDateMs),
    ("download_id", idJson p.downloadId),
    ("version_external_identifier", idJson p.versionExternalIdentifier),
    ("in_app", .array (p.inApp.map (jsonValue library))),
    ("original_purchase_date_ms", optional .number p.originalPurchaseDateMs),
    ("preorder_date_ms", optional .number p.preorderDateMs),
    ("original_application_version", optional .string p.originalApplicationVersion),
    ("expiration_date_ms", optional .number p.expirationDateMs),
    ("unknown_attributes", attributesJson library p.unknownAttributes)]

end Wire

end Python

end ReceiptVerifier
