import ReceiptVerifier.Host
import ReceiptVerifier.Wire

/-!
# The Go host's reading of an answer

`readResult` of `go/verifier.go`, and `go/receiptpayload.go`: the shapes `encoding/json` fills from
a verified answer, the payload made of them, and `ToJSON`. What the standard library reads and
writes is a parameter (`Encoding`); how it fills a struct follows its documentation.
-/

namespace ReceiptVerifier

namespace Go

/-- `encoding/json` and `encoding/base64`. -/
structure Encoding where
  /-- The value a text starts with, and whether anything but whitespace follows it. -/
  parse : String → Option (JsonValue × Bool)
  /-- Folds a name for a match without case. -/
  foldName : String → String
  /-- `base64.StdEncoding.DecodeString`. -/
  decodeString : String → Option Bytes
  /-- `base64.StdEncoding.EncodeToString`. -/
  encodeToString : Bytes → String

/-- An error of `encoding/json`, or one with a text of its own. -/
inductive ReadError
  | json
  | text (message : String)
deriving DecidableEq, Repr

variable (encoding : Encoding)

/-! ## Filling a Go value -/

/-- The field a key fills: one of its own name, else one that matches without case. -/
def Encoding.fieldNamed (fields : List String) (key : String) : Option String :=
  (fields.find? (· == key)).or
    (fields.find? fun field => encoding.foldName field == encoding.foldName key)

section

variable {encoding}

/-- A `*string`. -/
def decodeText : JsonValue → Except ReadError (Option String)
  | .null => .ok none
  | .string text => .ok (some text)
  | _ => .error .json

/-- An `*int64`. -/
def decodeInt64 : JsonValue → Except ReadError (Option Int)
  | .null => .ok none
  | .number n => if -(2 ^ 63) ≤ n ∧ n < 2 ^ 63 then .ok (some n) else .error .json
  | _ => .error .json

/-- A `*bool`. -/
def decodeBool : JsonValue → Except ReadError (Option Bool)
  | .null => .ok none
  | .bool value => .ok (some value)
  | _ => .error .json

/-- A `[]string`, in which `null` leaves the element as it is. -/
def decodeStrings : JsonValue → Except ReadError (List String)
  | .null => .ok []
  | .array elements => elements.mapM fun element =>
    match element with
    | .null => .ok ""
    | .string text => .ok text
    | _ => .error .json
  | _ => .error .json

/-- The members of a `map[string][]string`. -/
def decodeEntries : List (String × JsonValue) → List (String × List String) →
    Except ReadError (List (String × List String))
  | [], entries => .ok entries
  | (key, value) :: members, entries => do
    let values ← decodeStrings value
    decodeEntries members (ReceiptVerifier.Host.put entries key values)

/-- A `map[string][]string`, into an empty map. Of a member that repeats, `encoding/json` adds the
later entries to the earlier ones; the core writes no member twice. -/
def decodeMap : JsonValue → Except ReadError (List (String × List String))
  | .null => .ok []
  | .object members => decodeEntries members []
  | _ => .error .json

end

/-- A `[]byte`. -/
def decodeBytes : JsonValue → Except ReadError (Option Bytes)
  | .null => .ok none
  | .string text =>
    match encoding.decodeString text with
    | some bytes => .ok (some bytes)
    | none => .error .json
  | _ => .error .json

/-- The members of a struct, with `DisallowUnknownFields`. -/
def decodeMembers {σ : Type} (fields : List String)
    (assign : σ → String → JsonValue → Except ReadError σ) :
    List (String × JsonValue) → σ → Except ReadError σ
  | [], wire => .ok wire
  | (key, value) :: members, wire =>
    match encoding.fieldNamed fields key with
    | none => .error .json
    | some field => do
      let wire ← assign wire field value
      decodeMembers fields assign members wire

/-- A struct, which `null` leaves as it is. -/
def decodeStruct {σ : Type} (fields : List String)
    (assign : σ → String → JsonValue → Except ReadError σ) (zero : σ) :
    JsonValue → Except ReadError σ
  | .null => .ok zero
  | .object members => decodeMembers encoding fields assign members zero
  | _ => .error .json

/-! ## The shapes -/

structure InAppJson where
  quantity : Option Int := none
  productId : Option String := none
  transactionId : Option String := none
  purchaseDateMs : Option Int := none
  originalTransactionId : Option String := none
  originalPurchaseDateMs : Option Int := none
  expiresDateMs : Option Int := none
  webOrderLineItemId : Option String := none
  cancellationDateMs : Option Int := none
  cancellationReason : Option Int := none
  isTrialPeriod : Option Bool := none
  isInIntroOfferPeriod : Option Bool := none
  unknownAttributes : List (String × List String) := []

def inAppFields : List String :=
  ["quantity", "product_id", "transaction_id", "purchase_date_ms", "original_transaction_id",
    "original_purchase_date_ms", "expires_date_ms", "web_order_line_item_id",
    "cancellation_date_ms", "cancellation_reason", "is_trial_period", "is_in_intro_offer_period",
    "unknown_attributes"]

/-- One member. The map of a repeated `unknown_attributes` starts again here, as `decodeMap`
says. -/
def InAppJson.assign (wire : InAppJson) (field : String) (value : JsonValue) :
    Except ReadError InAppJson :=
  match field with
  | "quantity" => do pure { wire with quantity := ← decodeInt64 value }
  | "product_id" => do pure { wire with productId := ← decodeText value }
  | "transaction_id" => do pure { wire with transactionId := ← decodeText value }
  | "purchase_date_ms" => do pure { wire with purchaseDateMs := ← decodeInt64 value }
  | "original_transaction_id" => do pure { wire with originalTransactionId := ← decodeText value }
  | "original_purchase_date_ms" => do
    pure { wire with originalPurchaseDateMs := ← decodeInt64 value }
  | "expires_date_ms" => do pure { wire with expiresDateMs := ← decodeInt64 value }
  | "web_order_line_item_id" => do pure { wire with webOrderLineItemId := ← decodeText value }
  | "cancellation_date_ms" => do pure { wire with cancellationDateMs := ← decodeInt64 value }
  | "cancellation_reason" => do pure { wire with cancellationReason := ← decodeInt64 value }
  | "is_trial_period" => do pure { wire with isTrialPeriod := ← decodeBool value }
  | "is_in_intro_offer_period" => do pure { wire with isInIntroOfferPeriod := ← decodeBool value }
  | "unknown_attributes" => do pure { wire with unknownAttributes := ← decodeMap value }
  | _ => .error .json

structure ReceiptJson where
  receiptType : Option String := none
  appItemId : Option String := none
  bundleId : Option String := none
  bundleIdBytes : Option Bytes := none
  applicationVersion : Option String := none
  opaqueValue : Option Bytes := none
  sha1Hash : Option Bytes := none
  receiptCreationDateMs : Option Int := none
  downloadId : Option String := none
  versionExternalIdentifier : Option String := none
  inApp : List InAppJson := []
  originalPurchaseDateMs : Option Int := none
  preorderDateMs : Option Int := none
  originalApplicationVersion : Option String := none
  expirationDateMs : Option Int := none
  unknownAttributes : List (String × List String) := []

def receiptJsonFields : List String :=
  ["receipt_type", "app_item_id", "bundle_id", "bundle_id_bytes", "application_version",
    "opaque_value", "sha1_hash", "receipt_creation_date_ms", "download_id",
    "version_external_identifier", "in_app", "original_purchase_date_ms", "preorder_date_ms",
    "original_application_version", "expiration_date_ms", "unknown_attributes"]

/-- A `[]inAppJSON`, into an empty slice. Of a member that repeats, `encoding/json` decodes the
later elements into the earlier ones. -/
def decodeInApp : JsonValue → Except ReadError (List InAppJson)
  | .null => .ok []
  | .array elements => elements.mapM (decodeStruct encoding inAppFields InAppJson.assign {})
  | _ => .error .json

/-- One member. The map and the slice of a repeated member start again here, as `decodeMap` and
`decodeInApp` say. -/
def ReceiptJson.assign (wire : ReceiptJson) (field : String) (value : JsonValue) :
    Except ReadError ReceiptJson :=
  match field with
  | "receipt_type" => do pure { wire with receiptType := ← decodeText value }
  | "app_item_id" => do pure { wire with appItemId := ← decodeText value }
  | "bundle_id" => do pure { wire with bundleId := ← decodeText value }
  | "bundle_id_bytes" => do pure { wire with bundleIdBytes := ← decodeBytes encoding value }
  | "application_version" => do pure { wire with applicationVersion := ← decodeText value }
  | "opaque_value" => do pure { wire with opaqueValue := ← decodeBytes encoding value }
  | "sha1_hash" => do pure { wire with sha1Hash := ← decodeBytes encoding value }
  | "receipt_creation_date_ms" => do
    pure { wire with receiptCreationDateMs := ← decodeInt64 value }
  | "download_id" => do pure { wire with downloadId := ← decodeText value }
  | "version_external_identifier" => do
    pure { wire with versionExternalIdentifier := ← decodeText value }
  | "in_app" => do pure { wire with inApp := ← decodeInApp encoding value }
  | "original_purchase_date_ms" => do
    pure { wire with originalPurchaseDateMs := ← decodeInt64 value }
  | "preorder_date_ms" => do pure { wire with preorderDateMs := ← decodeInt64 value }
  | "original_application_version" => do
    pure { wire with originalApplicationVersion := ← decodeText value }
  | "expiration_date_ms" => do pure { wire with expirationDateMs := ← decodeInt64 value }
  | "unknown_attributes" => do pure { wire with unknownAttributes := ← decodeMap value }
  | _ => .error .json

/-! ## The payload -/

/-- A 64-bit id, which the wire writes as a decimal string: `strconv.ParseInt` has Rust's
grammar. -/
def idFromJson (name : String) (text : Option String) : Except ReadError (Option Int) :=
  match text with
  | none => .ok none
  | some text =>
    match parseI64 text.toList with
    | some value => .ok (some value)
    | none => .error (.text (name ++ " is not a decimal 64-bit integer"))

/-- The values under one key, from the `i`-th on. -/
def decodeValues (key : String) : Nat → List String → Except ReadError (List Bytes)
  | _, [] => .ok []
  | i, value :: values =>
    match encoding.decodeString value with
    | none =>
      .error (.text ("unknown_attributes[" ++ key ++ "][" ++ toString i ++ "] is not base64"))
    | some decoded => do
      let rest ← decodeValues key (i + 1) values
      pure (decoded :: rest)

/-- The loop of `attributesFromJSON`, in one of the orders a map is ranged over in. -/
def attributesLoop : List (String × List String) → Host.RawAttributes →
    Except ReadError Host.RawAttributes
  | [], out => .ok out
  | (key, values) :: wire, out =>
    match parseI64 key.toList with
    | none =>
      .error (.text ("unknown_attributes key " ++ displayString key ++ " is not a decimal integer"))
    | some kind => do
      let decoded ← decodeValues encoding key 0 values
      attributesLoop wire (ReceiptVerifier.Host.put out kind decoded)

def attributesFromJson (wire : List (String × List String)) :
    Except ReadError Host.RawAttributes :=
  attributesLoop encoding wire []

def InAppJson.purchase (w : InAppJson) : Except ReadError (Host.InAppPurchase Int) := do
  let webOrderLineItemId ← idFromJson "web_order_line_item_id" w.webOrderLineItemId
  let unknownAttributes ← attributesFromJson encoding w.unknownAttributes
  pure {
    quantity := w.quantity
    productId := w.productId
    transactionId := w.transactionId
    purchaseDateMs := w.purchaseDateMs
    originalTransactionId := w.originalTransactionId
    originalPurchaseDateMs := w.originalPurchaseDateMs
    expiresDateMs := w.expiresDateMs
    webOrderLineItemId := webOrderLineItemId
    cancellationDateMs := w.cancellationDateMs
    cancellationReason := w.cancellationReason
    isTrialPeriod := w.isTrialPeriod
    isInIntroOfferPeriod := w.isInIntroOfferPeriod
    unknownAttributes := unknownAttributes }

/-- The error of a purchase, with its place. -/
def ReadError.inApp (i : Nat) : ReadError → ReadError
  | .json => .json
  | .text message => .text ("in_app[" ++ toString i ++ "]: " ++ message)

/-- The purchases from the `i`-th on. -/
def purchases : Nat → List InAppJson → Except ReadError (List (Host.InAppPurchase Int))
  | _, [] => .ok []
  | i, w :: wire =>
    match w.purchase encoding with
    | .error err => .error (err.inApp i)
    | .ok purchase => do
      let rest ← purchases (i + 1) wire
      pure (purchase :: rest)

/-- Reads the payload the module wrote, with the environment the answer states beside it. -/
def receiptFromJson (raw : JsonValue) (environment : Option Environment) :
    Except ReadError (Host.ReceiptPayload Int) := do
  let wire ← decodeStruct encoding receiptJsonFields (ReceiptJson.assign encoding) {} raw
  let appItemId ← idFromJson "app_item_id" wire.appItemId
  let downloadId ← idFromJson "download_id" wire.downloadId
  let versionExternalIdentifier ←
    idFromJson "version_external_identifier" wire.versionExternalIdentifier
  let unknownAttributes ← attributesFromJson encoding wire.unknownAttributes
  let inApp ← purchases encoding 0 wire.inApp
  pure {
    receiptType := wire.receiptType
    appItemId := appItemId
    bundleId := wire.bundleId
    bundleIdBytes := wire.bundleIdBytes
    applicationVersion := wire.applicationVersion
    opaqueValue := wire.opaqueValue
    sha1Hash := wire.sha1Hash
    receiptCreationDateMs := wire.receiptCreationDateMs
    downloadId := downloadId
    versionExternalIdentifier := versionExternalIdentifier
    inApp := inApp
    originalPurchaseDateMs := wire.originalPurchaseDateMs
    preorderDateMs := wire.preorderDateMs
    originalApplicationVersion := wire.originalApplicationVersion
    expirationDateMs := wire.expirationDateMs
    unknownAttributes := unknownAttributes
    environment := environment }

/-! ## The answer -/

/-- The shape of an answer. A raw message is the value it spells: `null` leaves the pointer to the
payload nil, and is the environment's own text. -/
structure ResultJson where
  verified : Option Bool := none
  reason : Option String := none
  message : Option String := none
  payload : Option JsonValue := none
  environment : Option JsonValue := none

def resultFields : List String := ["verified", "reason", "message", "payload", "environment"]

def ResultJson.assign (wire : ResultJson) (field : String) (value : JsonValue) :
    Except ReadError ResultJson :=
  match field with
  | "verified" => do pure { wire with verified := ← decodeBool value }
  | "reason" => do pure { wire with reason := ← decodeText value }
  | "message" => do pure { wire with message := ← decodeText value }
  | "payload" => pure { wire with payload := match value with
    | .null => none
    | value => some value }
  | "environment" => pure { wire with environment := some value }
  | _ => .error .json

/-- The environment of a verified answer. -/
def environmentFromJson (raw : Option JsonValue) : Option (Option Environment) :=
  match raw with
  | some .null => some none
  | some (.string "Production") => some (some .production)
  | some (.string "Sandbox") => some (some .sandbox)
  | _ => none

def allReasons : List Reason :=
  [.malformed, .tooLarge, .invalidSignature, .untrustedChain, .invalidCertificate,
    .invalidCertificatePurpose, .unreadablePayload, .internalError]

/-- An answer that is not in the wire's shape. -/
def unreadableAnswer : Failure :=
  ⟨.internalError, "the verification module's answer was unusable"⟩

def readResult (answer : String) : Except Failure (JsonValue × Option Environment) :=
  match encoding.parse answer with
  | none => .error unreadableAnswer
  | some (value, more) =>
    match decodeStruct encoding resultFields ResultJson.assign {} value with
    | .error _ => .error unreadableAnswer
    | .ok wire =>
      match wire.verified with
      | none => .error unreadableAnswer
      | some verified =>
        if more then .error unreadableAnswer
        else if verified then
          match wire.payload, wire.reason, wire.message with
          | some payload, none, none =>
            match environmentFromJson wire.environment with
            | none => .error unreadableAnswer
            | some environment => .ok (payload, environment)
          | _, _, _ => .error unreadableAnswer
        else
          match wire.reason, wire.payload, wire.environment with
          | some reason, none, none =>
            match allReasons.find? fun known => known.asStr == reason with
            | none => .error unreadableAnswer
            | some known => .error ⟨known, wire.message.getD ""⟩
          | _, _, _ => .error unreadableAnswer

/-- What `VerifyReceipt` makes of an answer. -/
def receiptAnswer (answer : String) : Except Failure (Host.ReceiptPayload Int) :=
  match readResult encoding answer with
  | .error failure => .error failure
  | .ok (payload, environment) =>
    match receiptFromJson encoding payload environment with
    | .error _ => .error unreadableAnswer
    | .ok receipt => .ok receipt

/-! ## `ToJSON` -/

/-- A pointer, `nil` as `null`. -/
def pointer {α : Type} (value : α → JsonValue) : Option α → JsonValue := .ofOption value

/-- A 64-bit id as a decimal string, so JavaScript readers do not round it. -/
def idJson (value : Option Int) : Option String := value.map toString

/-- Each type by its decimal string; `encoding/json` sorts the keys. -/
def attributesJson (attrs : Host.RawAttributes) : JsonValue :=
  .object (attrs.foldl (fun (out : JsonMap) (attributeType, values) =>
    out.insert (toString attributeType)
      (.array (values.map fun value => .string (encoding.encodeToString value)))) [])

def jsonValue (p : Host.InAppPurchase Int) : JsonValue :=
  .object [
    ("quantity", pointer .number p.quantity),
    ("product_id", pointer .string p.productId),
    ("transaction_id", pointer .string p.transactionId),
    ("purchase_date_ms", pointer .number p.purchaseDateMs),
    ("original_transaction_id", pointer .string p.originalTransactionId),
    ("original_purchase_date_ms", pointer .number p.originalPurchaseDateMs),
    ("expires_date_ms", pointer .number p.expiresDateMs),
    ("web_order_line_item_id", pointer .string (idJson p.webOrderLineItemId)),
    ("cancellation_date_ms", pointer .number p.cancellationDateMs),
    ("cancellation_reason", pointer .number p.cancellationReason),
    ("is_trial_period", pointer .bool p.isTrialPeriod),
    ("is_in_intro_offer_period", pointer .bool p.isInIntroOfferPeriod),
    ("unknown_attributes", attributesJson encoding p.unknownAttributes)]

def toJson (r : Host.ReceiptPayload Int) : JsonValue :=
  .object [
    ("receipt_type", pointer .string r.receiptType),
    ("app_item_id", pointer .string (idJson r.appItemId)),
    ("bundle_id", pointer .string r.bundleId),
    ("bundle_id_bytes", pointer .string (r.bundleIdBytes.map encoding.encodeToString)),
    ("application_version", pointer .string r.applicationVersion),
    ("opaque_value", pointer .string (r.opaqueValue.map encoding.encodeToString)),
    ("sha1_hash", pointer .string (r.sha1Hash.map encoding.encodeToString)),
    ("receipt_creation_date_ms", pointer .number r.receiptCreationDateMs),
    ("download_id", pointer .string (idJson r.downloadId)),
    ("version_external_identifier", pointer .string (idJson r.versionExternalIdentifier)),
    ("in_app", .array (r.inApp.map (jsonValue encoding))),
    ("original_purchase_date_ms", pointer .number r.originalPurchaseDateMs),
    ("preorder_date_ms", pointer .number r.preorderDateMs),
    ("original_application_version", pointer .string r.originalApplicationVersion),
    ("expiration_date_ms", pointer .number r.expirationDateMs),
    ("unknown_attributes", attributesJson encoding r.unknownAttributes)]

end Go

end ReceiptVerifier
