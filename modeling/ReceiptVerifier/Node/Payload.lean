import ReceiptVerifier.Host
import ReceiptVerifier.Lib.Rounding
import ReceiptVerifier.Wire

/-!
# The Node host's reading of an answer

`receiptAnswer` of `node/src/verifier.ts`, and `node/src/payload.ts`: the payload made of the
module's JSON, and `toJson()`. A number of JavaScript is a double, so `JSON.parse` rounds an integer
to 53 significant bits and `JSON.stringify` writes the shortest decimal that reads back. The JSON
grammar, `Number` of a text, `atob` and `btoa` are a parameter (`Platform`).
-/

namespace ReceiptVerifier

namespace Node

/-! ## Numbers -/

/-- The sign of `n` on a magnitude. -/
def signed (n : Int) (magnitude : Nat) : Int := if n < 0 then -(magnitude : Int) else magnitude

/-- The double an integer in a text is read as. -/
def double (n : Int) : Int := signed n (Rounding.nearest 53 n.natAbs)

/-- The decimal `JSON.stringify` writes of a double that is an integer: its digits, below 10^21. -/
def stringify (x : Int) : Int :=
  if x = 0 then 0 else signed x (Rounding.shortest 53 x.natAbs 21)

/-! ## Values -/

structure Platform where
  /-- The value a whole text is, its numbers exact; `none` where `JSON.parse` throws. -/
  parse : String → Option JsonValue
  /-- The integer that a number with a fraction or an exponent is, if it is one. -/
  integer : String → Option Int
  /-- `Number(text)`, if it is an integer. -/
  number : String → Option Int
  /-- `atob`, by the codes of its characters. -/
  atob : String → Option Bytes
  /-- `btoa` of the characters of some codes. -/
  btoa : Bytes → String

/-- What a reader throws. -/
inductive Thrown
  | wireError (message : String)
  | syntaxError
  | invalidCharacterError
deriving DecidableEq, Repr

/-- The array index a key is. -/
def index (key : String) : Option Nat :=
  (parseI64 key.toList).bind fun n =>
    if 0 ≤ n ∧ n < 2 ^ 32 - 1 ∧ toString n = key then some n.toNat else none

/-- An object's properties in their own order: array indices ascending, then the other keys as they
came. -/
def ownProperties {α : Type} (properties : List (String × α)) : List (String × α) :=
  ((properties.filter fun property => (index property.1).isSome).mergeSort fun property property' =>
    (index property.1).getD 0 ≤ (index property'.1).getD 0) ++
  properties.filter fun property => (index property.1).isNone

mutual

/-- The JavaScript value of a JSON value: a number a double, an object its own properties. -/
def Platform.value (platform : Platform) : JsonValue → JsonValue
  | .null => .null
  | .bool value => .bool value
  | .number n => .number (double n)
  | .float text =>
    match platform.integer text with
    | some n => .number n
    | none => .float text
  | .string text => .string text
  | .array elements => .array (platform.elements elements)
  | .object members => .object (ownProperties (platform.properties members []))

def Platform.elements (platform : Platform) : List JsonValue → List JsonValue
  | [] => []
  | element :: elements => platform.value element :: platform.elements elements

def Platform.properties (platform : Platform) : List (String × JsonValue) →
    List (String × JsonValue) → List (String × JsonValue)
  | [], properties => properties
  | (name, value) :: members, properties =>
    platform.properties members (Host.put properties name (platform.value value))

end

variable (platform : Platform)

/-! ## Bytes -/

def bytesFromBase64 (text : String) : Except Thrown Bytes :=
  match platform.atob text with
  | some bytes => .ok bytes
  | none => .error .invalidCharacterError

/-- The loop of `base64FromBytes`: the codes so far, and the bytes from the next chunk on. -/
def binaryFrom (binary bytes : Bytes) : Bytes :=
  if 0 < bytes.length then binaryFrom (binary ++ bytes.take 0x8000) (bytes.drop 0x8000) else binary
termination_by bytes.length
decreasing_by
  rw [List.length_drop]
  omega

def base64FromBytes (bytes : Bytes) : String := platform.btoa (binaryFrom [] bytes)

/-! ## The module's payload JSON -/

section

variable {platform}

def object (value : Option JsonValue) (place : String) :
    Except Thrown (List (String × JsonValue)) :=
  match value with
  | some (.object members) => .ok members
  | _ => .error (.wireError (place ++ " is not an object"))

def typeof : JsonValue → String
  | .null | .array _ | .object _ => "object"
  | .bool _ => "boolean"
  | .number _ | .float _ => "number"
  | .string _ => "string"

/-- A property that is `null` or of one type. -/
def field (obj : List (String × JsonValue)) (key kind : String) :
    Except Thrown (Option JsonValue) :=
  match obj.lookup key with
  | some .null => .ok none
  | some value =>
    if typeof value ≠ kind then .error (.wireError (key ++ " is not a " ++ kind ++ " or null"))
    else .ok (some value)
  | none => .error (.wireError (key ++ " is not a " ++ kind ++ " or null"))

def str (obj : List (String × JsonValue)) (key : String) : Except Thrown (Option String) := do
  match ← field obj key "string" with
  | some (.string text) => pure (some text)
  | _ => pure none

def num (obj : List (String × JsonValue)) (key : String) : Except Thrown (Option Int) := do
  match ← field obj key "number" with
  | some (.number n) => pure (some n)
  | some _ => .error (.wireError (key ++ " is not an integer or null"))
  | none => pure none

def bool (obj : List (String × JsonValue)) (key : String) : Except Thrown (Option Bool) := do
  match ← field obj key "boolean" with
  | some (.bool value) => pure (some value)
  | _ => pure none

end

def bytesField (obj : List (String × JsonValue)) (key : String) :
    Except Thrown (Option Bytes) := do
  match ← str obj key with
  | none => pure none
  | some text => pure (some (← bytesFromBase64 platform text))

/-- The values of one attribute type. -/
def attributeValue (value : JsonValue) : Except Thrown Bytes :=
  match value with
  | .string text => bytesFromBase64 platform text
  | _ => .error (.wireError "an unknown attribute value is not a string")

/-- `Number.isSafeInteger`. -/
def isSafeInteger (n : Int) : Bool := -(2 ^ 53) < n && n < 2 ^ 53

/-- The loop of `unknownAttributesField`. -/
def unknownAttributesLoop : List (String × JsonValue) → Host.RawAttributes →
    Except Thrown Host.RawAttributes
  | [], out => .ok out
  | (key, .array values) :: entries, out =>
    match platform.number key with
    | some type =>
      if !isSafeInteger type || toString type ≠ key then
        .error (.wireError "unknown_attributes has an entry that is not a type and a list")
      else do
        let values ← values.mapM (attributeValue platform)
        unknownAttributesLoop entries (Host.put out type values)
    | none => .error (.wireError "unknown_attributes has an entry that is not a type and a list")
  | _ :: _, _ => .error (.wireError "unknown_attributes has an entry that is not a type and a list")

def unknownAttributesField (obj : List (String × JsonValue)) :
    Except Thrown Host.RawAttributes := do
  let entries ← object (obj.lookup "unknown_attributes") "unknown_attributes"
  unknownAttributesLoop platform entries []

def inAppFromWire (value : JsonValue) : Except Thrown (Host.InAppPurchase String) := do
  let obj ← object (some value) "an in_app entry"
  pure {
    quantity := ← num obj "quantity"
    productId := ← str obj "product_id"
    transactionId := ← str obj "transaction_id"
    purchaseDateMs := ← num obj "purchase_date_ms"
    originalTransactionId := ← str obj "original_transaction_id"
    originalPurchaseDateMs := ← num obj "original_purchase_date_ms"
    expiresDateMs := ← num obj "expires_date_ms"
    webOrderLineItemId := ← str obj "web_order_line_item_id"
    cancellationDateMs := ← num obj "cancellation_date_ms"
    cancellationReason := ← num obj "cancellation_reason"
    isTrialPeriod := ← bool obj "is_trial_period"
    isInIntroOfferPeriod := ← bool obj "is_in_intro_offer_period"
    unknownAttributes := ← unknownAttributesField platform obj }

/-- A payload from the `payload` member of a verified answer and the `environment` beside it. -/
def receiptPayloadFromWire (value : Option JsonValue) (environment : Option Environment) :
    Except Thrown (Host.ReceiptPayload String) := do
  let obj ← object value "the receipt payload"
  match obj.lookup "in_app" with
  | some (.array inApp) =>
    let receiptType ← str obj "receipt_type"
    let appItemId ← str obj "app_item_id"
    let bundleId ← str obj "bundle_id"
    let bundleIdBytes ← bytesField platform obj "bundle_id_bytes"
    let applicationVersion ← str obj "application_version"
    let opaqueValue ← bytesField platform obj "opaque_value"
    let sha1Hash ← bytesField platform obj "sha1_hash"
    let receiptCreationDateMs ← num obj "receipt_creation_date_ms"
    let downloadId ← str obj "download_id"
    let versionExternalIdentifier ← str obj "version_external_identifier"
    let originalPurchaseDateMs ← num obj "original_purchase_date_ms"
    let preorderDateMs ← num obj "preorder_date_ms"
    let originalApplicationVersion ← str obj "original_application_version"
    let expirationDateMs ← num obj "expiration_date_ms"
    let inApp ← inApp.mapM (inAppFromWire platform)
    let unknownAttributes ← unknownAttributesField platform obj
    pure {
      receiptType, appItemId, bundleId, bundleIdBytes, applicationVersion, opaqueValue, sha1Hash,
      receiptCreationDateMs, downloadId, versionExternalIdentifier, inApp, originalPurchaseDateMs,
      preorderDateMs, originalApplicationVersion, expirationDateMs, unknownAttributes, environment }
  | _ => .error (.wireError "in_app is not a list")

/-! ## The answer -/

/-- The `environment` member of a verified answer. -/
def environmentMember (doc : List (String × JsonValue)) : Except Thrown (Option Environment) :=
  match doc.lookup "environment" with
  | some .null => .ok none
  | some (.string "Production") => .ok (some .production)
  | some (.string "Sandbox") => .ok (some .sandbox)
  | _ =>
    .error (.wireError "a verified answer has no environment of Production, Sandbox or null")

def reasons : List Reason :=
  [.malformed, .tooLarge, .invalidSignature, .untrustedChain, .invalidCertificate,
    .invalidCertificatePurpose, .unreadablePayload, .internalError]

/-- Reads `verify-receipt`'s answer: a payload or a failure. -/
def receiptAnswer (text : String) :
    Except Thrown (Except Failure (Host.ReceiptPayload String)) :=
  match (platform.parse text).map platform.value with
  | none => .error .syntaxError
  | some (.object fields) =>
    match fields.lookup "verified", fields.lookup "reason", fields.lookup "message" with
    | some (.bool true), _, _ => do
      let environment ← environmentMember fields
      pure (.ok (← receiptPayloadFromWire platform (fields.lookup "payload") environment))
    | some (.bool false), some (.string reason), some (.string message) =>
      match reasons.find? fun known => known.asStr == reason with
      | some known => .ok (.error ⟨known, message⟩)
      | none => .error unusable
    | _, _, _ => .error unusable
  | some _ => .error unusable
where
  unusable : Thrown :=
    .wireError "the answer is neither a verified result nor a failure with a 0.7 reason"

/-! ## `toJson` -/

/-- A number as `JSON.stringify` writes it. -/
def numberJson (n : Option Int) : JsonValue := .ofOption (fun x => .number (stringify x)) n

def base64OrNull (bytes : Option Bytes) : JsonValue :=
  .ofOption (fun bytes => .string (base64FromBytes platform bytes)) bytes

def unknownAttributesJson (attrs : Host.RawAttributes) : JsonValue :=
  .object (ownProperties (attrs.foldl (fun out (type, values) => Host.put out (toString type)
    (.array (values.map fun value => .string (base64FromBytes platform value)))) []))

def inAppJson (purchase : Host.InAppPurchase String) : JsonValue :=
  .object [
    ("quantity", numberJson purchase.quantity),
    ("product_id", .ofOption .string purchase.productId),
    ("transaction_id", .ofOption .string purchase.transactionId),
    ("purchase_date_ms", numberJson purchase.purchaseDateMs),
    ("original_transaction_id", .ofOption .string purchase.originalTransactionId),
    ("original_purchase_date_ms", numberJson purchase.originalPurchaseDateMs),
    ("expires_date_ms", numberJson purchase.expiresDateMs),
    ("web_order_line_item_id", .ofOption .string purchase.webOrderLineItemId),
    ("cancellation_date_ms", numberJson purchase.cancellationDateMs),
    ("cancellation_reason", numberJson purchase.cancellationReason),
    ("is_trial_period", .ofOption .bool purchase.isTrialPeriod),
    ("is_in_intro_offer_period", .ofOption .bool purchase.isInIntroOfferPeriod),
    ("unknown_attributes", unknownAttributesJson platform purchase.unknownAttributes)]

def toJson (receipt : Host.ReceiptPayload String) : JsonValue :=
  .object [
    ("receipt_type", .ofOption .string receipt.receiptType),
    ("app_item_id", .ofOption .string receipt.appItemId),
    ("bundle_id", .ofOption .string receipt.bundleId),
    ("bundle_id_bytes", base64OrNull platform receipt.bundleIdBytes),
    ("application_version", .ofOption .string receipt.applicationVersion),
    ("opaque_value", base64OrNull platform receipt.opaqueValue),
    ("sha1_hash", base64OrNull platform receipt.sha1Hash),
    ("receipt_creation_date_ms", numberJson receipt.receiptCreationDateMs),
    ("download_id", .ofOption .string receipt.downloadId),
    ("version_external_identifier", .ofOption .string receipt.versionExternalIdentifier),
    ("in_app", .array (receipt.inApp.map (inAppJson platform))),
    ("original_purchase_date_ms", numberJson receipt.originalPurchaseDateMs),
    ("preorder_date_ms", numberJson receipt.preorderDateMs),
    ("original_application_version", .ofOption .string receipt.originalApplicationVersion),
    ("expiration_date_ms", numberJson receipt.expirationDateMs),
    ("unknown_attributes", unknownAttributesJson platform receipt.unknownAttributes)]

end Node

end ReceiptVerifier
