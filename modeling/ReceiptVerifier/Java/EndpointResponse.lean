import ReceiptVerifier.Lib.Gregorian
import ReceiptVerifier.Endpoint

/-!
# The responses of the Java endpoint

`EndpointResponse.java`: `FORMAT`, `PACIFIC` and `appleDates`, and the response object written
around them. The calendar of `java.time` is the proleptic Gregorian one; its time zone rules are not
part of the repository, so they are a parameter (`JavaTime`). Jackson's generator writes the fields
of an object in the order it is given them, repeated names included.
-/

namespace ReceiptVerifier

namespace Java

structure JavaTime where
  /-- The offset of `America/Los_Angeles`, in seconds, at an instant's second. -/
  pacificOffset : Int → Int

/-- A number with zeros in front up to `width` digits. -/
def padded (width : Nat) (value : Nat) : String :=
  String.ofList (List.replicate (width - (toString value).length) '0') ++ toString value

/-- The letters `uuuu`: at least four digits after a minus sign, and a plus sign ahead of more than
four. -/
def formatYear (year : Int) : String :=
  (if year < 0 then "-" else if 9999 < year then "+" else "") ++ padded 4 year.natAbs

/-- `FORMAT`: the pattern `uuuu-MM-dd HH:mm:ss`. -/
def format (t : Gregorian.DateTime) : String :=
  formatYear t.year ++ "-" ++ padded 2 t.month.natAbs ++ "-" ++ padded 2 t.day.natAbs ++ " " ++
    padded 2 t.hour.natAbs ++ ":" ++ padded 2 t.minute.natAbs ++ ":" ++ padded 2 t.second.natAbs

/-- Apple's three renderings of a date: GMT, epoch milliseconds and US Pacific time, as the fields
that are written. -/
def appleDates (time : JavaTime) (name : String) (epochMillis : Option Int) :
    List (String × String) :=
  match epochMillis with
  | none => []
  | some epochMillis =>
    -- the pattern has no fraction of a second, so the instant counts by its whole second
    let second := epochMillis / 1000
    [(name, format (Gregorian.ofEpochSecond second) ++ " Etc/GMT"),
      (name ++ "_ms", toString epochMillis),
      (name ++ "_pst",
        format (Gregorian.ofEpochSecond (second + time.pacificOffset second)) ++
          " America/Los_Angeles")]

namespace EndpointResponse

/-- What is written of an object: its fields, in order. -/
abbrev Fields := List (String × JsonValue)

/-- The two texts of an instant. -/
structure Rendering where
  gmt : Int → String
  pacific : Int → String

/-- `FORMAT` in the two zones. -/
def Rendering.ofTime (time : JavaTime) : Rendering where
  gmt epochMillis := format (Gregorian.ofEpochSecond (epochMillis / 1000)) ++ " Etc/GMT"
  pacific epochMillis :=
    format (Gregorian.ofEpochSecond
      (epochMillis / 1000 + time.pacificOffset (epochMillis / 1000))) ++ " America/Los_Angeles"

/-- A response carrying only `status`. -/
def statusOnly (status : Int) : JsonValue := .object [("status", .number status)]

def string (key : String) (value : Option String) : Fields :=
  match value with
  | some value => [(key, .string value)]
  | none => []

def number (key : String) (value : Option Int) : Fields :=
  match value with
  | some value => [(key, .number value)]
  | none => []

/-- `writeObjectField`: a field that is written when it is null, too. -/
def objectField (key : String) (value : Option Int) : Fields := [(key, value.elim .null .number)]

def numberAsString (key : String) (value : Option Int) : Fields :=
  string key (match value with
    | none => none
    | some value => some (toString value))

def appleDates (rendering : Rendering) (name : String) (epochMillis : Option Int) : Fields :=
  match epochMillis with
  | none => []
  | some epochMillis =>
    [(name, .string (rendering.gmt epochMillis))] ++
      numberAsString (name ++ "_ms") (some epochMillis) ++
      [(name ++ "_pst", .string (rendering.pacific epochMillis))]

/-- Apple omits the key when attribute 1711 is 0. -/
def webOrderLineItemId (id : Option Int) : Fields :=
  match id with
  | some id => if id ≠ 0 then numberAsString "web_order_line_item_id" (some id) else []
  | none => []

def flag (key : String) (value : Option Bool) : Fields :=
  match value with
  | some value => [(key, .string (toString value))]
  | none => []

/-- The fields of a purchase. -/
def purchaseFields (rendering : Rendering) (purchase : InAppPurchase) : Fields :=
  numberAsString "quantity" purchase.quantity ++
  string "product_id" purchase.productId ++
  string "transaction_id" purchase.transactionId ++
  string "original_transaction_id" purchase.originalTransactionId ++
  appleDates rendering "purchase_date" purchase.purchaseDateMs ++
  appleDates rendering "original_purchase_date" purchase.originalPurchaseDateMs ++
  appleDates rendering "expires_date" purchase.expiresDateMs ++
  appleDates rendering "cancellation_date" purchase.cancellationDateMs ++
  numberAsString "cancellation_reason" purchase.cancellationReason ++
  webOrderLineItemId purchase.webOrderLineItemId ++
  flag "is_trial_period" purchase.isTrialPeriod ++
  flag "is_in_intro_offer_period" purchase.isInIntroOfferPeriod

def writePurchase (rendering : Rendering) (purchase : InAppPurchase) : JsonValue :=
  .object (purchaseFields rendering purchase)

/-- The fields of a receipt ahead of `in_app`. -/
def receiptFields (rendering : Rendering) (receipt : ReceiptPayload) (requestDateMillis : Int) :
    Fields :=
  string "receipt_type" receipt.receiptType ++
  number "adam_id" receipt.appItemId ++
  number "app_item_id" receipt.appItemId ++
  string "bundle_id" receipt.bundleId ++
  string "application_version" receipt.applicationVersion ++
  objectField "download_id" receipt.downloadId ++
  number "version_external_identifier" receipt.versionExternalIdentifier ++
  string "original_application_version" receipt.originalApplicationVersion ++
  appleDates rendering "receipt_creation_date" receipt.receiptCreationDateMs ++
  appleDates rendering "request_date" (some requestDateMillis) ++
  appleDates rendering "original_purchase_date" receipt.originalPurchaseDateMs ++
  appleDates rendering "preorder_date" receipt.preorderDateMs ++
  appleDates rendering "expiration_date" receipt.expirationDateMs

def writeReceipt (rendering : Rendering) (receipt : ReceiptPayload) (requestDateMillis : Int) :
    JsonValue :=
  .object (receiptFields rendering receipt requestDateMillis ++
    [("in_app", .array (receipt.inApp.map (writePurchase rendering)))])

/-- The response for a status; the environment and the receipt are written only for status 0. -/
def render (rendering : Rendering) (status : Int) (environment : Environment)
    (receipt : Option ReceiptPayload) (requestDateMillis : Int) : JsonValue :=
  match receipt with
  | some receipt =>
    if status ≠ AppleStatus.ok then statusOnly status
    else
      .object [("status", .number status), ("environment", .string environment.asStr),
        ("receipt", writeReceipt rendering receipt requestDateMillis)]
  | none => statusOnly status

end EndpointResponse

end Java

end ReceiptVerifier
