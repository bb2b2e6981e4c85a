import ReceiptVerifier.Lib.Gregorian
import ReceiptVerifier.Payload

/-!
# The Java payload decoder

`ReceiptDecoder.java`: the attribute SET as a `ReceiptPayload`, in two phases. `readAttributes`
collects the first value of each known type and every other value raw; the typed getters then move a
first value that does not decode to the front of its raw list. BouncyCastle is not part of the
repository, so what it reads is a parameter (`BouncyCastle`).
-/

namespace ReceiptVerifier

namespace Java

/-! ## What comes from BouncyCastle -/

/-- A parsed value. -/
inductive Asn1 where
  | integer (value : Int)
  | octetString (octets : Bytes)
  /-- A `UTF8String`; `none` when its octets are not UTF-8. -/
  | utf8String (text : Option String)
  | ia5String (octets : Bytes)
  | sequence (elements : List Asn1)
  | set (elements : List Asn1)
  | other

/-- What `ASN1Primitive.fromByteArray` throws. -/
inductive ParseException where
  | io
  | runtime
deriving DecidableEq, Repr

structure BouncyCastle where
  fromByteArray : Bytes → Except ParseException Asn1

def unreadablePayload (message : String) : Failure := ⟨.unreadablePayload, message⟩

/-! ## Dates -/

/-- The groups of `RECEIPT_DATE`. -/
structure DateGroups where
  year : List Char
  month : List Char
  day : List Char
  hour : List Char
  minute : List Char
  second : List Char
  fraction : Option (List Char)
  /-- The sign, the hours and the minutes of a numeric offset; `none` for `Z`. -/
  offset : Option (Char × List Char × List Char)
deriving DecidableEq, Repr

/-- The group `(?:\.(\d++))?`: the digits of the fraction, and what follows. -/
def matchFraction : List Char → Option (Option (List Char) × List Char)
  | c :: rest =>
    if c == '.' then
      let digits := rest.takeWhile Char.isDigit
      if digits.isEmpty then none else some (some digits, rest.drop digits.length)
    else some (none, c :: rest)
  | [] => some (none, [])

/-- The group `(?:[Zz]|([+-])(\d{2}):(\d{2}))`, which ends the text. -/
def matchOffset : List Char → Option (Option (Char × List Char × List Char))
  | [z] => if z == 'Z' || z == 'z' then some none else none
  | [sign, h1, h2, colon, m1, m2] =>
    if (sign == '+' || sign == '-') && colon == ':' && [h1, h2, m1, m2].all Char.isDigit then
      some (some (sign, [h1, h2], [m1, m2]))
    else none
  | _ => none

/-- `RECEIPT_DATE` against the whole text. -/
def matchReceiptDate : List Char → Option DateGroups
  | y1 :: y2 :: y3 :: y4 :: dash :: mo1 :: mo2 :: dash' :: d1 :: d2 :: t :: h1 :: h2 :: colon ::
      mi1 :: mi2 :: colon' :: s1 :: s2 :: rest =>
    if dash == '-' && dash' == '-' && colon == ':' && colon' == ':' && (t == 'T' || t == 't') &&
        [y1, y2, y3, y4, mo1, mo2, d1, d2, h1, h2, mi1, mi2, s1, s2].all Char.isDigit then do
      let (fraction, rest) ← matchFraction rest
      let offset ← matchOffset rest
      some { year := [y1, y2, y3, y4], month := [mo1, mo2], day := [d1, d2], hour := [h1, h2],
             minute := [mi1, mi2], second := [s1, s2], fraction := fraction, offset := offset }
    else none
  | _ => none

/-- `Integer.parseInt` of digits. -/
def parseInt (digits : List Char) : Int :=
  digits.foldl (fun value c => value * 10 + (c.toNat - '0'.toNat : Nat)) 0

/-- An RFC 3339 `date-time` in epoch milliseconds. An offset can carry the instant a day past either
end of the years 0000 to 9999. -/
def parseDate (text : String) : Option Int :=
  match matchReceiptDate text.toList with
  | none => none
  | some m =>
    let second := parseInt m.second
    let offsetHours := (m.offset.map fun offset => parseInt offset.2.1).getD 0
    let offsetMinutes := (m.offset.map fun offset => parseInt offset.2.2).getD 0
    if second > 60 ∨ offsetHours > 23 ∨ offsetMinutes > 59 then none
    else
      let year := parseInt m.year
      let month := parseInt m.month
      let day := parseInt m.day
      let hour := parseInt m.hour
      let minute := parseInt m.minute
      -- `LocalDateTime.of` throws for a date or a time that does not exist
      if !Gregorian.isDate year month day || !Gregorian.isTime hour minute (min second 59) then none
      else
        let epochSecond := Gregorian.epochSecond year month day hour minute (min second 59)
        let fraction := m.fraction.getD []
        let millis := parseInt
          (if fraction.length > 3 then fraction.take 3
            else fraction ++ ['0', '0', '0'].drop fraction.length)
        let sign : Int := if (m.offset.map fun offset => offset.1) = some '-' then -1 else 1
        let offset := (offsetHours * 60 + offsetMinutes) * sign
        some ((epochSecond - offset * 60) * 1000 + millis)

/-! ## Values -/

section

variable (bc : BouncyCastle)

/-- A UTF8String or a seven-bit IA5String. -/
def decodeString (der : Bytes) : Except Failure String :=
  match bc.fromByteArray der with
  | .error .io => .error (unreadablePayload "attribute value is not valid ASN.1")
  | .error .runtime => .error (unreadablePayload "attribute value does not decode as a string")
  | .ok (.ia5String octets) =>
    if octets.all (· < 0x80) then
      .ok (String.ofList (octets.map fun byte => Char.ofNat byte.toNat))
    else .error (unreadablePayload "IA5String attribute value is not seven-bit")
  | .ok (.utf8String text) =>
    match text with
    | none => .error (unreadablePayload "attribute value does not decode as a string")
    | some text => .ok text
  | .ok _ => .error (unreadablePayload "attribute value is not a UTF8String or IA5String")

/-- An INTEGER that fits a `long`. -/
def decodeInteger (der : Bytes) : Except Failure Int :=
  match bc.fromByteArray der with
  | .error .io => .error (unreadablePayload "attribute value is not valid ASN.1")
  | .error .runtime => .error (unreadablePayload "attribute value is not a valid integer")
  | .ok (.integer value) =>
    if -(2 ^ 63) ≤ value ∧ value < 2 ^ 63 then .ok value
    else .error (unreadablePayload "receipt integer out of range")
  | .ok _ => .error (unreadablePayload "attribute value is not an ASN.1 integer")

/-- Epoch milliseconds, or none for an empty string, which is how Apple writes "not set". -/
def decodeDate (der : Bytes) : Except Failure (Option Int) :=
  match decodeString bc der with
  | .error failure => .error failure
  | .ok text =>
    if text.isEmpty then .ok none
    else
      match parseDate text with
      | none => .error (unreadablePayload "attribute value is not an RFC 3339 date-time")
      | some millis => .ok (some millis)

/-- The bundle id string; its octets are kept either way. -/
def decodeBundleId (der : Bytes) : Option String := (decodeString bc der).toOption

/-! ## Attributes -/

/-- The elements of an attribute SET, with one OCTET STRING around it unwrapped. -/
def parseAttributeSet (der : Bytes) (what : String) : Except Failure (List Asn1) :=
  match bc.fromByteArray der with
  | .error _ => .error (unreadablePayload (what ++ " is not valid ASN.1"))
  | .ok (.octetString inner) =>
    match bc.fromByteArray inner with
    | .error _ => .error (unreadablePayload (what ++ " double-wrap is not valid ASN.1"))
    | .ok (.set elements) => .ok elements
    | .ok _ => .error (unreadablePayload (what ++ " is not an ASN.1 SET"))
  | .ok (.set elements) => .ok elements
  | .ok _ => .error (unreadablePayload (what ++ " is not an ASN.1 SET"))

end

/-- One entry: its type, 0 to `Integer.MAX_VALUE`, and its value. -/
def readAttribute (element : Asn1) : Except Failure Attribute :=
  match element with
  | .sequence fields =>
    if fields.length < 3 then
      .error (unreadablePayload ("receipt attribute has " ++ toString fields.length ++
        " fields, expected at least 3"))
    else
      match (fields[0]? : Option Asn1) with
      | some (.integer type) =>
        if ¬ (-(2 ^ 31) ≤ type ∧ type < 2 ^ 31) ∨ type < 0 then
          .error (unreadablePayload "receipt attribute type out of range")
        else
          match (fields[2]? : Option Asn1) with
          | some (.octetString value) => .ok { attributeType := type.toNat, value := value }
          | _ => .error (unreadablePayload "malformed receipt attribute")
      | _ => .error (unreadablePayload "malformed receipt attribute")
  | _ => .error (unreadablePayload "malformed receipt attribute")

/-- The first value of each known type, and every other value raw. -/
structure Attributes where
  firsts : Std.ExtTreeMap Nat Bytes := ∅
  unknown : UnknownAttributes := ∅

namespace Attributes

/-- One entry of the loop of `readAttributes`. -/
def add (known : List Nat) (attributes : Attributes) (attr : Attribute) : Attributes :=
  if !known.contains attr.attributeType || attributes.firsts.contains attr.attributeType then
    { attributes with unknown := keepRaw attributes.unknown attr }
  else { attributes with firsts := attributes.firsts.insert attr.attributeType attr.value }

def collect (known : List Nat) (entries : List Attribute) : Attributes :=
  entries.foldl (add known) {}

/-- The first value decoded, or none when absent; one that does not decode is kept raw. -/
def typed {α : Type} (attributes : Attributes) (type : Nat)
    (decoder : Bytes → Except Failure (Option α)) : Option α × Attributes :=
  match attributes.firsts[type]? with
  | none => (none, attributes)
  | some value =>
    match decoder value with
    | .ok decoded => (decoded, attributes)
    | .error _ =>
      (none, { attributes with
        unknown := attributes.unknown.insert type (value :: attributes.unknown.getD type []) })

variable (bc : BouncyCastle)

def string (attributes : Attributes) (type : Nat) : Option String × Attributes :=
  attributes.typed type fun der => (decodeString bc der).map some

def integer (attributes : Attributes) (type : Nat) : Option Int × Attributes :=
  attributes.typed type fun der => (decodeInteger bc der).map some

def date (attributes : Attributes) (type : Nat) : Option Int × Attributes :=
  attributes.typed type (decodeDate bc)

/-- An INTEGER flag: 0 is false. -/
def flag (attributes : Attributes) (type : Nat) : Option Bool × Attributes :=
  let (value, attributes) := attributes.integer bc type
  (value.map fun value => value != 0, attributes)

end Attributes

variable (bc : BouncyCastle)

/-- The entries of an attribute SET; a bad one fails the whole SET. -/
def readEntries (der : Bytes) (what : String) : Except Failure (List Attribute) := do
  let elements ← parseAttributeSet bc der what
  elements.mapM readAttribute

/-- An attribute SET, collected. -/
def readAttributes (der : Bytes) (what : String) (known : List Nat) : Except Failure Attributes :=
  (readEntries bc der what).map (Attributes.collect known)

/-- The top-level types that fill a typed field. -/
def topLevel : List Nat :=
  [attrReceiptType, attrAppItemId, attrBundleId, attrAppVersion, attrOpaqueValue, attrSha1Hash,
    attrCreationDate, attrDownloadId, attrVersionExternalIdentifier, attrOriginalPurchaseDate,
    attrOriginalAppVersion, attrExpirationDate, attrPreorderDate]

/-- The in-app types that fill a typed field. -/
def inApp : List Nat :=
  [iapQuantity, iapProductId, iapTransactionId, iapPurchaseDate, iapOriginalTransactionId,
    iapOriginalPurchaseDate, iapExpiresDate, iapWebOrderLineItemId, iapCancellationDate,
    iapIsTrialPeriod, iapIsInIntroOfferPeriod, iapCancellationReason]

/-! ## Payloads -/

/-- The purchase of a collected SET, its getters in the order the constructor call runs them. -/
def purchaseOf (attributes : Attributes) : InAppPurchase :=
  let (quantity, attributes) := attributes.integer bc iapQuantity
  let (productId, attributes) := attributes.string bc iapProductId
  let (transactionId, attributes) := attributes.string bc iapTransactionId
  let (purchaseDateMs, attributes) := attributes.date bc iapPurchaseDate
  let (originalTransactionId, attributes) := attributes.string bc iapOriginalTransactionId
  let (originalPurchaseDateMs, attributes) := attributes.date bc iapOriginalPurchaseDate
  let (expiresDateMs, attributes) := attributes.date bc iapExpiresDate
  let (webOrderLineItemId, attributes) := attributes.integer bc iapWebOrderLineItemId
  let (cancellationDateMs, attributes) := attributes.date bc iapCancellationDate
  let (cancellationReason, attributes) := attributes.integer bc iapCancellationReason
  let (isTrialPeriod, attributes) := attributes.flag bc iapIsTrialPeriod
  let (isInIntroOfferPeriod, attributes) := attributes.flag bc iapIsInIntroOfferPeriod
  { quantity, productId, transactionId, purchaseDateMs, originalTransactionId,
    originalPurchaseDateMs, expiresDateMs, webOrderLineItemId, cancellationDateMs,
    cancellationReason, isTrialPeriod, isInIntroOfferPeriod,
    unknownAttributes := attributes.unknown }

def parseInApp (inAppSet : Bytes) : Except Failure InAppPurchase := do
  let attributes ← readAttributes bc inAppSet "in-app purchase attribute" inApp
  pure (purchaseOf bc attributes)

/-- The loop over the copies of attribute 17: each is one purchase, and one that does not parse is
kept raw. -/
def takePurchases : List Bytes → UnknownAttributes → List InAppPurchase × UnknownAttributes
  | [], unknown => ([], unknown)
  | value :: values, unknown =>
    match parseInApp bc value with
    | .ok purchase =>
      let (purchases, unknown) := takePurchases values unknown
      (purchase :: purchases, unknown)
    | .error _ => takePurchases values (keepRaw unknown ⟨attrInApp, value⟩)

/-- What a receipt's `receipt_type` names. -/
def environment (receiptType : Option String) : Option Environment :=
  if receiptType = some "Production" ∨ receiptType = some "ProductionVPP" then some .production
  else if receiptType = some "ProductionSandbox" ∨ receiptType = some "ProductionVPPSandbox" then
    some .sandbox
  else none

/-- A decoded payload, and the environment it names. -/
structure Payload extends ReceiptPayload where
  environment : Option Environment

/-- The payload of a collected SET: the purchases taken out of the raw values, then the getters in
the order they run. -/
def payloadOf (attributes : Attributes) : Payload :=
  let copies := attributes.unknown.getD attrInApp []
  let (purchases, unknown) := takePurchases bc copies (attributes.unknown.erase attrInApp)
  let attributes := { attributes with unknown := unknown }
  let bundleIdBytes := attributes.firsts[attrBundleId]?
  let (receiptType, attributes) := attributes.string bc attrReceiptType
  let (appItemId, attributes) := attributes.integer bc attrAppItemId
  let bundleId := bundleIdBytes.bind (decodeBundleId bc)
  let (applicationVersion, attributes) := attributes.string bc attrAppVersion
  let opaqueValue := attributes.firsts[attrOpaqueValue]?
  let sha1Hash := attributes.firsts[attrSha1Hash]?
  let (receiptCreationDateMs, attributes) := attributes.date bc attrCreationDate
  let (downloadId, attributes) := attributes.integer bc attrDownloadId
  let (versionExternalIdentifier, attributes) :=
    attributes.integer bc attrVersionExternalIdentifier
  let (originalPurchaseDateMs, attributes) := attributes.date bc attrOriginalPurchaseDate
  let (preorderDateMs, attributes) := attributes.date bc attrPreorderDate
  let (originalApplicationVersion, attributes) := attributes.string bc attrOriginalAppVersion
  let (expirationDateMs, attributes) := attributes.date bc attrExpirationDate
  { receiptType, appItemId, bundleId, bundleIdBytes, applicationVersion, opaqueValue, sha1Hash,
    receiptCreationDateMs, downloadId, versionExternalIdentifier, inApp := purchases,
    originalPurchaseDateMs, preorderDateMs, originalApplicationVersion, expirationDateMs,
    unknownAttributes := attributes.unknown, environment := environment receiptType }

end Java

end ReceiptVerifier
