import ReceiptVerifier.Json
import ReceiptVerifier.JsonValue
import ReceiptVerifier.Receipt

/-!
# The verifyReceipt endpoint

`rust/src/endpoint.rs`: Apple's response body for a request body, from the receipt verified offline.
`Verifier::endpoint` of `rust/src/verifier.rs` is its one caller.
-/

namespace ReceiptVerifier

open Openssl

/-! ## Statuses -/

namespace AppleStatus

def ok : Int := 0
def malformedReceiptData : Int := 21002
def receiptNotAuthenticated : Int := 21003
def sandboxReceiptOnProduction : Int := 21007
def productionReceiptOnSandbox : Int := 21008
def internalDataAccessError : Int := 21009

end AppleStatus

/-- The status the endpoint answers for a failure. -/
def status : Reason → Int
  | .malformed | .tooLarge => AppleStatus.malformedReceiptData
  | .invalidSignature | .untrustedChain | .invalidCertificate | .invalidCertificatePurpose =>
    AppleStatus.receiptNotAuthenticated
  | .unreadablePayload | .internalError => AppleStatus.internalDataAccessError

/-- A response carrying only `status`. -/
def statusOnly (status : Int) : String := "\x7b\"status\":" ++ toString status ++ "\x7d"

/-! ## The request -/

/-- The request body cap, in bytes: Apple's own limit. -/
def maxRequestBytes : Nat := 3145728

/-- The last `receipt-data` string of a request body. -/
def receiptData (json : SerdeJson) (request : Bytes) : Except Failure String :=
  if request.length > maxRequestBytes then
    .error ⟨.tooLarge,
      "request body exceeds the maximum of " ++ toString maxRequestBytes ++ " bytes"⟩
  else
    match fromUtf8 request with
    | none => .error (malformed "request body is not valid JSON")
    | some text =>
      match topLevelMembers json text with
      | none => .error (malformed "request body is not valid JSON")
      | some members =>
        match string json members "receipt-data" with
        | none => .error (malformed "receipt-data is missing or not a string")
        | some data => .ok data

/-! ## The response -/

def presentString (json : JsonMap) (key : String) (value : Option String) : JsonMap :=
  match value with
  | some value => json.insert key (.string value)
  | none => json

def presentNumber (json : JsonMap) (key : String) (value : Option Int) : JsonMap :=
  match value with
  | some value => json.insert key (.number value)
  | none => json

def numberOrNull (json : JsonMap) (key : String) (value : Option Int) : JsonMap :=
  json.insert key (value.elim .null .number)

def presentNumberAsString (json : JsonMap) (key : String) (value : Option Int) : JsonMap :=
  match value with
  | some value => presentString json key (some (toString value))
  | none => json

section

variable (jiff : Jiff)

/-- The three renderings of a date: GMT, epoch milliseconds and US Pacific time. -/
def appleDates (json : JsonMap) (name : String) (millis : Option Int) : Option JsonMap :=
  match millis with
  | none => some json
  | some millis =>
    match formatEtcGmt jiff millis with
    | none => none
    | some gmt =>
      let json := presentString json name (some gmt)
      let json := presentNumberAsString json (name ++ "_ms") (some millis)
      match formatPacific jiff millis with
      | none => none
      | some pacific => some (presentString json (name ++ "_pst") (some pacific))

def purchaseJson (purchase : InAppPurchase) : Option JsonValue := do
  let json : JsonMap := []
  let json := presentNumberAsString json "quantity" purchase.quantity
  let json := presentString json "product_id" purchase.productId
  let json := presentString json "transaction_id" purchase.transactionId
  let json := presentString json "original_transaction_id" purchase.originalTransactionId
  let json ← appleDates jiff json "purchase_date" purchase.purchaseDateMs
  let json ← appleDates jiff json "original_purchase_date" purchase.originalPurchaseDateMs
  let json ← appleDates jiff json "expires_date" purchase.expiresDateMs
  let json ← appleDates jiff json "cancellation_date" purchase.cancellationDateMs
  let json := presentNumberAsString json "cancellation_reason" purchase.cancellationReason
  -- Apple omits the key when attribute 1711 is 0
  let json :=
    match purchase.webOrderLineItemId.filter (· != 0) with
    | some id => presentNumberAsString json "web_order_line_item_id" (some id)
    | none => json
  let json := presentString json "is_trial_period" (purchase.isTrialPeriod.map toString)
  let json := presentString json "is_in_intro_offer_period"
    (purchase.isInIntroOfferPeriod.map toString)
  some (.object json)

def receiptJson (receipt : ReceiptPayload) (requestDateMillis : Int) : Option JsonValue := do
  let json : JsonMap := []
  let json := presentString json "receipt_type" receipt.receiptType
  let json := presentNumber json "adam_id" receipt.appItemId
  let json := presentNumber json "app_item_id" receipt.appItemId
  let json := presentString json "bundle_id" receipt.bundleId
  let json := presentString json "application_version" receipt.applicationVersion
  let json := numberOrNull json "download_id" receipt.downloadId
  let json := presentNumber json "version_external_identifier" receipt.versionExternalIdentifier
  let json := presentString json "original_application_version" receipt.originalApplicationVersion
  let json ← appleDates jiff json "receipt_creation_date" receipt.receiptCreationDateMs
  let json ← appleDates jiff json "request_date" (some requestDateMillis)
  let json ← appleDates jiff json "original_purchase_date" receipt.originalPurchaseDateMs
  let json ← appleDates jiff json "preorder_date" receipt.preorderDateMs
  let json ← appleDates jiff json "expiration_date" receipt.expirationDateMs
  let inApp ← receipt.inApp.mapM (purchaseJson jiff)
  some (.object (json.insert "in_app" (.array inApp)))

end

def Environment.asStr : Environment → String
  | .production => "Production"
  | .sandbox => "Sandbox"

/-- The status-0 response around a receipt object. -/
def okResponse (environment : Environment) (receipt : JsonValue) : String :=
  "\x7b\"status\":" ++ toString AppleStatus.ok ++ ",\"environment\":" ++
    (JsonValue.string environment.asStr).display ++ ",\"receipt\":" ++ receipt.display ++ "\x7d"

/-- The status-0 response; `none` when a date does not render. -/
def render (jiff : Jiff) (environment : Environment) (receipt : ReceiptPayload)
    (requestDateMillis : Int) : Option String :=
  (receiptJson jiff receipt requestDateMillis).map (okResponse environment)

/-! ## The endpoint -/

/-- The status the environment a receipt names gives it at an endpoint. -/
def routingStatus (environment : Environment) (payload : ReceiptPayload) : Int :=
  let production := payload.environment == some .production
  match environment with
  | .production => if !production then AppleStatus.sandboxReceiptOnProduction else AppleStatus.ok
  | .sandbox => if production then AppleStatus.productionReceiptOnSandbox else AppleStatus.ok

variable (ssl : OpenSsl) (jiff : Jiff) (base64 : Base64) (json : SerdeJson)

/-- What is answered for a verified payload. -/
def respondVerified (environment : Environment) (payload : ReceiptPayload) (clock : Clock) :
    String × Clock :=
  let status' := routingStatus environment payload
  -- a purchase that does not decode answers 21009 rather than a 0 that lacks it
  if status' == AppleStatus.ok && payload.unknownAttributes.contains 17 then
    (statusOnly AppleStatus.internalDataAccessError, clock)
  else if status' == AppleStatus.ok then
    match clock.now with
    | (.ok nowMillis, clock) =>
      ((render jiff environment payload nowMillis).getD
        (statusOnly AppleStatus.internalDataAccessError), clock)
    | (.error failure, clock) => (statusOnly (status failure.reason), clock)
  else (statusOnly status', clock)

/-- Apple's response body for one request. -/
def respond (environment : Environment) (request : Bytes) (anchors : List TrustAnchor)
    (clock : Clock) : Run (String × Clock) :=
  match receiptData json request with
  | .error failure => pure (statusOnly (status failure.reason), clock)
  | .ok data => do
    let (verified, clock) ← verifyReceipt ssl jiff base64 (utf8 data) anchors clock
    match verified with
    | .ok payload => pure (respondVerified jiff environment payload clock)
    | .error failure => pure (statusOnly (status failure.reason), clock)

/-- `Verifier::endpoint`: without an anchor every verdict would be misleading. A panic of the
caller's clock is the clock's failure, and nothing else here panics. -/
def endpoint (anchors : List TrustAnchor) (environment : Environment) (request : Bytes)
    (now : Nat → Option Int) : Run String :=
  if anchors.isEmpty then pure (statusOnly (status .internalError))
  else do
    let (answer, _) ← respond ssl jiff base64 json environment request anchors (Clock.new now)
    pure answer

end ReceiptVerifier
