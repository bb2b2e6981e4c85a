import ReceiptVerifier.Host
import ReceiptVerifier.Wire

/-!
# The PHP host's reading of an answer

`receiptResult` of `php/src/Internal/Wire.php`, on a platform with 64-bit integers. `json_decode`,
`base64_decode` and the cast of a text to an integer are a parameter (`Platform`). An object and a
list are both arrays, and a name that is an integer in decimal becomes an integer key.
-/

namespace ReceiptVerifier

namespace Php

/-- An array's key. -/
inductive Key
  | int (key : Int)
  | string (key : String)
deriving DecidableEq, Repr

/-- A value of `json_decode` with `associative`. -/
inductive Value
  | null
  | bool (value : Bool)
  | int (value : Int)
  /-- A number that is no 64-bit integer. -/
  | float
  | string (text : String)
  | array (entries : List (Key × Value))

structure Platform where
  /-- The value a whole text is; `none` where `json_decode` throws. -/
  parse : String → Option JsonValue
  /-- `base64_decode` with `strict`. -/
  base64Decode : String → Option Bytes
  /-- `(int) $text`. -/
  intval : String → Int

namespace Wire

/-- A name as the key of an array: a 64-bit integer in decimal is an integer. -/
def keyOf (name : String) : Key :=
  match parseI64 name.toList with
  | some n => if toString n = name then .int n else .string name
  | none => .string name

mutual

/-- The arrays of a JSON value. -/
def ofJson : JsonValue → Value
  | .null => .null
  | .bool value => .bool value
  | .number n => if -(2 ^ 63) ≤ n ∧ n < 2 ^ 63 then .int n else .float
  | .float _ => .float
  | .string text => .string text
  | .array elements => .array (ofElements 0 elements)
  | .object members => .array (ofMembers members [])

def ofElements : Nat → List JsonValue → List (Key × Value)
  | _, [] => []
  | i, element :: elements => (.int i, ofJson element) :: ofElements (i + 1) elements

def ofMembers : List (String × JsonValue) → List (Key × Value) → List (Key × Value)
  | [], entries => entries
  | (name, value) :: members, entries =>
    ofMembers members (Host.put entries (keyOf name) (ofJson value))

end

/-- `ModuleFaultException`, by its message. -/
abbrev Fault := String

def bad (why : String) : Fault := "the verification module answered unreadably: " ++ why

/-- `$v['name'] ?? null`. -/
def member (v : List (Key × Value)) (name : String) : Value :=
  (v.lookup (keyOf name)).getD .null

def asObject (value : Value) (what : String) : Except Fault (List (Key × Value)) :=
  match value with
  | .array entries => .ok entries
  | _ => .error (bad (what ++ " is not a JSON object"))

def string (value : Value) : Except Fault (Option String) :=
  match value with
  | .null => .ok none
  | .string text => .ok (some text)
  | _ => .error (bad "expected a string or null")

def int (value : Value) : Except Fault (Option Int) :=
  match value with
  | .null => .ok none
  | .int n => .ok (some n)
  | _ => .error (bad "expected an integer or null")

def flag (value : Value) : Except Fault (Option Bool) :=
  match value with
  | .null => .ok none
  | .bool value => .ok (some value)
  | _ => .error (bad "expected a boolean or null")

variable (platform : Platform)

def object (json : String) : Except Fault (List (Key × Value)) :=
  match platform.parse json with
  | none => .error (bad "the answer is not JSON")
  | some value => asObject (ofJson value) "the answer"

/-- A 64-bit id, sent as a decimal string so no reader rounds it. -/
def id (value : Value) : Except Fault (Option Int) := do
  match ← string value with
  | none => pure none
  | some text =>
    let id := platform.intval text
    if toString id ≠ text then .error (bad "expected a decimal id") else pure (some id)

def octets (value : Value) : Except Fault (Option Bytes) := do
  match ← string value with
  | none => pure none
  | some text =>
    match platform.base64Decode text with
    | none => .error (bad "expected padded base64")
    | some bytes => pure (some bytes)

/-- The values of one attribute type. -/
def values : List (Key × Value) → Except Fault (List Bytes)
  | [] => .ok []
  | (_, one) :: entries => do
    match ← octets platform one with
    | none => .error (bad "expected base64, not null")
    | some bytes =>
      let rest ← values entries
      pure (bytes :: rest)

/-- The loop of `unknown`. -/
def unknownLoop : List (Key × Value) → Host.RawAttributes → Except Fault Host.RawAttributes
  | [], out => .ok out
  | (.int type, .array list) :: entries, out => do
    let octets ← values platform list
    unknownLoop entries (Host.put out type octets)
  | _ :: _, _ => .error (bad "expected a decimal attribute type and a list of values")

/-- The values in receipt order. -/
def unknown (value : Value) : Except Fault Host.RawAttributes :=
  match value with
  | .null => .ok []
  | value => do
    let entries ← asObject value "the unknown attributes"
    unknownLoop platform entries []

def inApp (value : Value) : Except Fault (Host.InAppPurchase Int) := do
  let v ← asObject value "an in-app purchase"
  pure {
    quantity := ← int (member v "quantity")
    productId := ← string (member v "product_id")
    transactionId := ← string (member v "transaction_id")
    purchaseDateMs := ← int (member v "purchase_date_ms")
    originalTransactionId := ← string (member v "original_transaction_id")
    originalPurchaseDateMs := ← int (member v "original_purchase_date_ms")
    expiresDateMs := ← int (member v "expires_date_ms")
    webOrderLineItemId := ← id platform (member v "web_order_line_item_id")
    cancellationDateMs := ← int (member v "cancellation_date_ms")
    cancellationReason := ← int (member v "cancellation_reason")
    isTrialPeriod := ← flag (member v "is_trial_period")
    isInIntroOfferPeriod := ← flag (member v "is_in_intro_offer_period")
    unknownAttributes := ← unknown platform (member v "unknown_attributes") }

/-- The entries of `in_app`, none when it is null. -/
def purchaseList (value : Value) : Except Fault (List Value) :=
  match value with
  | .null => .ok []
  | .array entries => .ok (entries.map Prod.snd)
  | _ => .error (bad "expected a list of in-app purchases")

def receiptPayload (value : Value) (environment : Option Environment) :
    Except Fault (Host.ReceiptPayload Int) := do
  let v ← asObject value "a receipt payload"
  let purchases ← purchaseList (member v "in_app")
  pure {
    receiptType := ← string (member v "receipt_type")
    appItemId := ← id platform (member v "app_item_id")
    bundleId := ← string (member v "bundle_id")
    bundleIdBytes := ← octets platform (member v "bundle_id_bytes")
    applicationVersion := ← string (member v "application_version")
    opaqueValue := ← octets platform (member v "opaque_value")
    sha1Hash := ← octets platform (member v "sha1_hash")
    receiptCreationDateMs := ← int (member v "receipt_creation_date_ms")
    downloadId := ← id platform (member v "download_id")
    versionExternalIdentifier := ← id platform (member v "version_external_identifier")
    inApp := ← purchases.mapM (inApp platform)
    originalPurchaseDateMs := ← int (member v "original_purchase_date_ms")
    preorderDateMs := ← int (member v "preorder_date_ms")
    originalApplicationVersion := ← string (member v "original_application_version")
    expirationDateMs := ← int (member v "expiration_date_ms")
    unknownAttributes := ← unknown platform (member v "unknown_attributes")
    environment := environment }

/-- The `environment` beside a verified payload. -/
def environment (value : List (Key × Value)) : Except Fault (Option Environment) :=
  match value.lookup (keyOf "environment") with
  | none => .error (bad "a verified answer without an environment")
  | some .null => .ok none
  | some (.string "Production") => .ok (some .production)
  | some (.string "Sandbox") => .ok (some .sandbox)
  | some _ => .error (bad "an environment other than Production, Sandbox or null")

def reasons : List Reason :=
  [.malformed, .tooLarge, .invalidSignature, .untrustedChain, .invalidCertificate,
    .invalidCertificatePurpose, .unreadablePayload, .internalError]

def failure (value : List (Key × Value)) : Except Fault Failure :=
  match member value "verified" with
  | .bool false =>
    match member value "reason", member value "message" with
    | .string token, .string message =>
      match reasons.find? fun reason => reason.asStr == token with
      | none => .error (bad "a reason outside the eight of 0.7")
      | some reason => .ok ⟨reason, message⟩
    | _, _ => .error (bad "a failure without a reason and a message")
  | _ => .error (bad "the answer is neither a payload nor a failure")

/-- `VerificationResult`: a payload or a failure. -/
def receiptResult (json : String) :
    Except Fault (Except Failure (Host.ReceiptPayload Int)) := do
  let value ← object platform json
  match member value "verified" with
  | .bool true =>
    let environment ← environment value
    pure (.ok (← receiptPayload platform (member value "payload") environment))
  | _ => pure (.error (← failure value))

end Wire

end Php

end ReceiptVerifier
