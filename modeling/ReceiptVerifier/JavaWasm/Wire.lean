import ReceiptVerifier.Host
import ReceiptVerifier.Lib.Utf16
import ReceiptVerifier.Wire

/-!
# The java-wasm host's reading of an answer

`JsonTree.read` with `strict`, and `Wire.receiptAnswer` of `Wire.java`. Jackson and
`java.util.Base64` are a parameter (`Platform`). A tree has the shape of `JsonValue`, with a `Long`
for a number.
-/

namespace ReceiptVerifier

namespace JavaWasm

namespace Wire

/-- Jackson and `java.util.Base64`. -/
structure Platform where
  /-- The value a text starts with, and whether anything but whitespace follows it. -/
  parse : String → Option (JsonValue × Bool)
  /-- `Base64.getDecoder().decode`. -/
  decode : String → Option Bytes

/-- `GuestFailure`, by its message. -/
abbrev GuestFailure := String

def malformed (what : String) : GuestFailure :=
  "the verifier module's answer does not follow the wire format: " ++ what

/-! ## The tree -/

mutual

/-- `JsonTree.read` of a strict reader, by a factory that refuses a repeated name. -/
def readTree : JsonValue → Except GuestFailure JsonValue
  | .null => .ok .null
  | .bool value => .ok (.bool value)
  | .number n =>
    if -(2 ^ 63) ≤ n ∧ n < 2 ^ 63 then .ok (.number n)
    else .error (malformed "a number beyond 64 bits")
  | .float _ => .error (malformed "a VALUE_NUMBER_FLOAT token")
  | .string text => .ok (.string text)
  | .array elements =>
    match readElements elements with
    | .ok elements => .ok (.array elements)
    | .error failure => .error failure
  | .object members =>
    match readMembers members [] with
    | .ok members => .ok (.object members)
    | .error failure => .error failure

def readElements : List JsonValue → Except GuestFailure (List JsonValue)
  | [] => .ok []
  | value :: values => do
    let value ← readTree value
    let values ← readElements values
    pure (value :: values)

def readMembers : List (String × JsonValue) → List String →
    Except GuestFailure (List (String × JsonValue))
  | [], _ => .ok []
  | (name, value) :: members, seen =>
    if name ∈ seen then
      .error ("the verifier module's answer is not JSON: " ++
        "com.fasterxml.jackson.core.JsonParseException")
    else do
      let value ← readTree value
      let members ← readMembers members (name :: seen)
      pure ((name, value) :: members)

end

variable (platform : Platform)

/-- One JSON value and nothing after it. -/
def parse (text : String) : Except GuestFailure JsonValue :=
  match platform.parse text with
  | none =>
    .error "the verifier module's answer is not JSON: com.fasterxml.jackson.core.JsonParseException"
  | some (value, more) => do
    let tree ← readTree value
    if more then .error (malformed "text after the answer") else pure tree

section

variable {platform}

/-! ## One value -/

def object (value : Option JsonValue) (what : String) :
    Except GuestFailure (List (String × JsonValue)) :=
  match value with
  | some (.object members) => .ok members
  | _ => .error (malformed what)

/-- Exactly the expected members. -/
def keys (members : List (String × JsonValue)) (what : String) (expected : List String) :
    Except GuestFailure Unit :=
  if members.length ≠ expected.length then .error (malformed (what ++ " (keys)"))
  else
    match expected.find? fun key => (members.lookup key).isNone with
    | some key => .error (malformed (what ++ " (no \"" ++ key ++ "\")"))
    | none => .ok ()

def quoted (key : String) : String := "\"" ++ key ++ "\""

def string (m : List (String × JsonValue)) (key : String) : Except GuestFailure (Option String) :=
  match m.lookup key with
  | some .null => .ok none
  | some (.string text) => .ok (some text)
  | _ => .error (malformed (quoted key))

/-- A 64-bit id written as a decimal string on the wire. -/
def id (m : List (String × JsonValue)) (key : String) : Except GuestFailure (Option Int) := do
  match ← string m key with
  | none => pure none
  | some text =>
    match parseI64 text.toList with
    | none => .error (malformed (quoted key))
    | some id => if toString id ≠ text then .error (malformed (quoted key)) else pure (some id)

/-- A JSON integer that fits a long. -/
def number (m : List (String × JsonValue)) (key : String) : Except GuestFailure (Option Int) :=
  match m.lookup key with
  | some .null => .ok none
  | some (.number n) => .ok (some n)
  | _ => .error (malformed (quoted key))

def bool (m : List (String × JsonValue)) (key : String) : Except GuestFailure (Option Bool) :=
  match m.lookup key with
  | some .null => .ok none
  | some (.bool value) => .ok (some value)
  | _ => .error (malformed (quoted key))

end

/-- Padded standard base64. -/
def base64 (text : String) (what : String) : Except GuestFailure Bytes :=
  if (Utf16.encode text.toList).length % 4 ≠ 0 then .error (malformed what)
  else
    match platform.decode text with
    | some bytes => .ok bytes
    | none => .error (malformed what)

def bytes (m : List (String × JsonValue)) (key : String) : Except GuestFailure (Option Bytes) := do
  match ← string m key with
  | none => pure none
  | some text => pure (some (← base64 platform text (quoted key)))

/-! ## The receipt -/

/-- The values of one attribute type. -/
def attributeValues : List JsonValue → Except GuestFailure (List Bytes)
  | [] => .ok []
  | .string text :: values => do
    let value ← base64 platform text (quoted "unknown_attributes" ++ " value")
    let values ← attributeValues values
    pure (value :: values)
  | _ :: _ => .error (malformed (quoted "unknown_attributes" ++ " value"))

/-- `Integer.parseInt`. -/
def parseInt (text : String) : Option Int :=
  (parseI64 text.toList).filter fun n => decide (-(2 ^ 31) ≤ n ∧ n < 2 ^ 31)

/-- The loop of `attributes`. -/
def attributesLoop : List (String × JsonValue) → Host.RawAttributes →
    Except GuestFailure Host.RawAttributes
  | [], attributes => .ok attributes
  | (key, value) :: entries, attributes =>
    match parseInt key with
    | none => .error (malformed (quoted "unknown_attributes" ++ " key"))
    | some type =>
      if toString type ≠ key then .error (malformed (quoted "unknown_attributes" ++ " entry"))
      else
        match value with
        | .array elements => do
          let values ← attributeValues platform elements
          attributesLoop entries (Host.put attributes type values)
        | _ => .error (malformed (quoted "unknown_attributes" ++ " entry"))

/-- Decimal types, values in receipt order. -/
def attributes (m : List (String × JsonValue)) : Except GuestFailure Host.RawAttributes := do
  let entries ← object (m.lookup "unknown_attributes") (quoted "unknown_attributes")
  attributesLoop platform entries []

def purchaseKeys : List String :=
  ["quantity", "product_id", "transaction_id", "purchase_date_ms", "original_transaction_id",
    "original_purchase_date_ms", "expires_date_ms", "web_order_line_item_id",
    "cancellation_date_ms", "cancellation_reason", "is_trial_period", "is_in_intro_offer_period",
    "unknown_attributes"]

def purchase (value : JsonValue) : Except GuestFailure (Host.InAppPurchase Int) := do
  let m ← object (some value) "in_app element"
  keys m "in_app element" purchaseKeys
  pure {
    quantity := ← number m "quantity"
    productId := ← string m "product_id"
    transactionId := ← string m "transaction_id"
    purchaseDateMs := ← number m "purchase_date_ms"
    originalTransactionId := ← string m "original_transaction_id"
    originalPurchaseDateMs := ← number m "original_purchase_date_ms"
    expiresDateMs := ← number m "expires_date_ms"
    webOrderLineItemId := ← id m "web_order_line_item_id"
    cancellationDateMs := ← number m "cancellation_date_ms"
    cancellationReason := ← number m "cancellation_reason"
    isTrialPeriod := ← bool m "is_trial_period"
    isInIntroOfferPeriod := ← bool m "is_in_intro_offer_period"
    unknownAttributes := ← attributes platform m }

def receiptKeys : List String :=
  ["receipt_type", "app_item_id", "bundle_id", "bundle_id_bytes", "application_version",
    "opaque_value", "sha1_hash", "receipt_creation_date_ms", "download_id",
    "version_external_identifier", "in_app", "original_purchase_date_ms", "preorder_date_ms",
    "original_application_version", "expiration_date_ms", "unknown_attributes"]

def receipt (m : List (String × JsonValue)) (environment : Option Environment) :
    Except GuestFailure (Host.ReceiptPayload Int) := do
  keys m "payload" receiptKeys
  match m.lookup "in_app" with
  | some (.array purchases) =>
    let inApp ← purchases.mapM (purchase platform)
    pure {
      receiptType := ← string m "receipt_type"
      appItemId := ← id m "app_item_id"
      bundleId := ← string m "bundle_id"
      bundleIdBytes := ← bytes platform m "bundle_id_bytes"
      applicationVersion := ← string m "application_version"
      opaqueValue := ← bytes platform m "opaque_value"
      sha1Hash := ← bytes platform m "sha1_hash"
      receiptCreationDateMs := ← number m "receipt_creation_date_ms"
      downloadId := ← id m "download_id"
      versionExternalIdentifier := ← id m "version_external_identifier"
      inApp := inApp
      originalPurchaseDateMs := ← number m "original_purchase_date_ms"
      preorderDateMs := ← number m "preorder_date_ms"
      originalApplicationVersion := ← string m "original_application_version"
      expirationDateMs := ← number m "expiration_date_ms"
      unknownAttributes := ← attributes platform m
      environment := environment }
  | _ => .error (malformed "payload \"in_app\"")

/-! ## The answer -/

/-- Whether an answer is a verified one or a failure. -/
def verified (m : List (String × JsonValue)) (what : String) : Except GuestFailure Bool :=
  match m.lookup "verified" with
  | some (.bool true) => do
    keys m what ["verified", "payload", "environment"]
    pure true
  | some (.bool false) => do
    keys m what ["verified", "reason", "message"]
    pure false
  | _ => .error (malformed (what ++ " \"verified\""))

def environment (m : List (String × JsonValue)) : Except GuestFailure (Option Environment) :=
  match m.lookup "environment" with
  | some .null => .ok none
  | some (.string text) =>
    match [Environment.production, .sandbox].find? fun known => known.asStr == text with
    | some known => .ok (some known)
    | none => .error (malformed (quoted "environment"))
  | _ => .error (malformed (quoted "environment"))

def reasons : List Reason :=
  [.malformed, .tooLarge, .invalidSignature, .untrustedChain, .invalidCertificate,
    .invalidCertificatePurpose, .unreadablePayload, .internalError]

def failure (m : List (String × JsonValue)) (what : String) : Except GuestFailure Failure :=
  match m.lookup "reason", m.lookup "message" with
  | some (.string reason), some (.string message) =>
    match reasons.find? fun known => known.asStr == reason with
    | some known => .ok ⟨known, message⟩
    | none => .error (malformed (what ++ " \"reason\" (not one of the 0.7 reasons)"))
  | _, _ => .error (malformed what)

/-- `VerificationResult`: a payload or a failure. -/
def receiptAnswer (answer : String) :
    Except GuestFailure (Except Failure (Host.ReceiptPayload Int)) := do
  let tree ← parse platform answer
  let m ← object (some tree) "verify-receipt answer"
  if ← verified m "verify-receipt answer" then
    let payload ← object (m.lookup "payload") "payload"
    pure (.ok (← receipt platform payload (← environment m)))
  else
    pure (.error (← failure m "verify-receipt answer"))

end Wire

end JavaWasm

end ReceiptVerifier
