import ReceiptVerifier.Lib.FirstCopy
import ReceiptVerifier.Datetime
import ReceiptVerifier.Openssl.Payload

/-!
# The receipt payload

`rust/src/receipt_payload.rs`: the attribute SET inside the CMS envelope, decoded into
`ReceiptPayload`. The first copy of a known attribute fills its field; every attribute that does not
end up in a field is kept raw in `unknownAttributes`, except an empty date string, which means "not
set".
-/

namespace ReceiptVerifier

open Openssl

/-! ## Attribute types -/

@[match_pattern] def attrReceiptType : Nat := 0
@[match_pattern] def attrAppItemId : Nat := 1
@[match_pattern] def attrBundleId : Nat := 2
@[match_pattern] def attrAppVersion : Nat := 3
@[match_pattern] def attrOpaqueValue : Nat := 4
@[match_pattern] def attrSha1Hash : Nat := 5
@[match_pattern] def attrCreationDate : Nat := 12
@[match_pattern] def attrDownloadId : Nat := 15
@[match_pattern] def attrVersionExternalIdentifier : Nat := 16
@[match_pattern] def attrInApp : Nat := 17
@[match_pattern] def attrOriginalPurchaseDate : Nat := 18
@[match_pattern] def attrOriginalAppVersion : Nat := 19
@[match_pattern] def attrExpirationDate : Nat := 21
@[match_pattern] def attrPreorderDate : Nat := 32

@[match_pattern] def iapQuantity : Nat := 1701
@[match_pattern] def iapProductId : Nat := 1702
@[match_pattern] def iapTransactionId : Nat := 1703
@[match_pattern] def iapPurchaseDate : Nat := 1704
@[match_pattern] def iapOriginalTransactionId : Nat := 1705
@[match_pattern] def iapOriginalPurchaseDate : Nat := 1706
@[match_pattern] def iapExpiresDate : Nat := 1708
@[match_pattern] def iapWebOrderLineItemId : Nat := 1711
@[match_pattern] def iapCancellationDate : Nat := 1712
@[match_pattern] def iapIsTrialPeriod : Nat := 1713
@[match_pattern] def iapIsInIntroOfferPeriod : Nat := 1719
@[match_pattern] def iapCancellationReason : Nat := 1720

/-! ## Payloads -/

/-- Raw attribute values by type, each type's in receipt order. -/
abbrev UnknownAttributes := Std.ExtTreeMap Nat (List Bytes)

@[ext]
structure InAppPurchase where
  quantity : Option Int := none
  productId : Option String := none
  transactionId : Option String := none
  purchaseDateMs : Option Int := none
  originalTransactionId : Option String := none
  originalPurchaseDateMs : Option Int := none
  expiresDateMs : Option Int := none
  webOrderLineItemId : Option Int := none
  cancellationDateMs : Option Int := none
  cancellationReason : Option Int := none
  isTrialPeriod : Option Bool := none
  isInIntroOfferPeriod : Option Bool := none
  unknownAttributes : UnknownAttributes := ∅

@[ext]
structure ReceiptPayload where
  receiptType : Option String := none
  appItemId : Option Int := none
  bundleId : Option String := none
  bundleIdBytes : Option Bytes := none
  applicationVersion : Option String := none
  opaqueValue : Option Bytes := none
  sha1Hash : Option Bytes := none
  receiptCreationDateMs : Option Int := none
  downloadId : Option Int := none
  versionExternalIdentifier : Option Int := none
  inApp : List InAppPurchase := []
  originalPurchaseDateMs : Option Int := none
  preorderDateMs : Option Int := none
  originalApplicationVersion : Option String := none
  expirationDateMs : Option Int := none
  unknownAttributes : UnknownAttributes := ∅

/-- The environment the receipt type names. -/
def ReceiptPayload.environment (payload : ReceiptPayload) : Option Environment :=
  Environment.fromReceiptType payload.receiptType

/-- An attribute whose type fits 0 to 2^31 - 1. -/
structure Attribute where
  attributeType : Nat
  value : Bytes
deriving DecidableEq, Repr

/-- Appends an attribute to the raw values of its type. -/
def keepRaw (unknown : UnknownAttributes) (attr : Attribute) : UnknownAttributes :=
  unknown.insert attr.attributeType (unknown.getD attr.attributeType [] ++ [attr.value])

/-! ## Values -/

section Values

variable (ssl : OpenSsl)

def decodeString (der : Bytes) : Option String :=
  match attributeString ssl der with
  | some (.utf8, octets) => String.fromUTF8? ⟨octets.toArray⟩
  | some (.ia5, octets) =>
    if octets.all (· < 0x80) then
      some (String.ofList (octets.map fun byte => Char.ofNat byte.toNat))
    else none
  | none => none

def decodeInteger (der : Bytes) : Option Int := attributeInteger ssl der

variable (jiff : Jiff)

/-- A date: `some none` for an empty string, which is how Apple writes "not set". -/
def date (der : Bytes) : Option (Option Int) :=
  match decodeString ssl der with
  | none => none
  | some text => if text.isEmpty then some none else (parseReceiptDate jiff text).map some

end Values

/-! ## The attribute SET -/

def maxAsn1Depth : Nat := 32
def maxAsn1Nodes : Nat := 100000

def payloadBudget : Budget := { depth := maxAsn1Depth, nodes := maxAsn1Nodes }

/-- Why a payload does not read. -/
structure PayloadError where
  text : String
deriving DecidableEq, Repr

def unreadable (what err : String) : PayloadError := ⟨what ++ ": " ++ err⟩

section

variable (ssl : OpenSsl)

/-- The attributes of a SET, each with a type from 0 to 2^31 - 1. -/
def parseAttributeSet (der : Bytes) (what : String) : Except PayloadError (List Attribute) :=
  match receiptAttributes ssl der payloadBudget with
  | .error err => .error (unreadable what err)
  | .ok attributes =>
    attributes.mapM fun attr =>
      if 0 ≤ attr.attributeType ∧ attr.attributeType < 2 ^ 31 then
        .ok { attributeType := attr.attributeType.toNat, value := attr.value }
      else .error (unreadable what "receipt attribute type out of range")

def parsePayloadAttributes (content : Bytes) : Except PayloadError (List Attribute) :=
  parseAttributeSet ssl content "receipt payload"

/-- The first attribute 12, when it decodes. -/
def creationDate (jiff : Jiff) (attributes : List Attribute) : Option Int :=
  (attributes.find? fun attr => attr.attributeType == attrCreationDate).bind fun first =>
    (date ssl jiff first.value).join

end

/-! ## Decoding -/

section

variable (ssl : OpenSsl) (jiff : Jiff)

/-- Decodes an in-app attribute into its field; `none` when it does not decode. -/
def InAppPurchase.assign (purchase : InAppPurchase) (attr : Attribute) : Option InAppPurchase :=
  let value := attr.value
  match attr.attributeType with
  | iapQuantity => (decodeInteger ssl value).map fun v => { purchase with quantity := some v }
  | iapProductId => (decodeString ssl value).map fun v => { purchase with productId := some v }
  | iapTransactionId =>
    (decodeString ssl value).map fun v => { purchase with transactionId := some v }
  | iapPurchaseDate => (date ssl jiff value).map fun v => { purchase with purchaseDateMs := v }
  | iapOriginalTransactionId =>
    (decodeString ssl value).map fun v => { purchase with originalTransactionId := some v }
  | iapOriginalPurchaseDate =>
    (date ssl jiff value).map fun v => { purchase with originalPurchaseDateMs := v }
  | iapExpiresDate => (date ssl jiff value).map fun v => { purchase with expiresDateMs := v }
  | iapWebOrderLineItemId =>
    (decodeInteger ssl value).map fun v => { purchase with webOrderLineItemId := some v }
  | iapCancellationReason =>
    (decodeInteger ssl value).map fun v => { purchase with cancellationReason := some v }
  | iapCancellationDate =>
    (date ssl jiff value).map fun v => { purchase with cancellationDateMs := v }
  | iapIsTrialPeriod =>
    (decodeInteger ssl value).map fun (v : Int) => { purchase with isTrialPeriod := some (v != 0) }
  | iapIsInIntroOfferPeriod =>
    (decodeInteger ssl value).map fun (v : Int) =>
      { purchase with isInIntroOfferPeriod := some (v != 0) }
  | _ => none

def inAppReader : FirstCopy.Reader Attribute Nat InAppPurchase where
  key := Attribute.attributeType
  repeats _ := false
  assign := InAppPurchase.assign ssl jiff
  keep purchase attr :=
    { purchase with unknownAttributes := keepRaw purchase.unknownAttributes attr }

/-- One purchase, from the attributes of its own SET. -/
def inAppPurchase (attributes : List Attribute) : InAppPurchase :=
  (inAppReader ssl jiff).run attributes {}

def parseInApp (value : Bytes) : Option InAppPurchase :=
  match parseAttributeSet ssl value "in-app purchase attribute" with
  | .error _ => none
  | .ok attributes => some (inAppPurchase ssl jiff attributes)

/-- Decodes an app-level attribute into its field; `none` when it does not decode. -/
def ReceiptPayload.assign (receipt : ReceiptPayload) (attr : Attribute) : Option ReceiptPayload :=
  let value := attr.value
  match attr.attributeType with
  | attrReceiptType => (decodeString ssl value).map fun v => { receipt with receiptType := some v }
  | attrAppItemId => (decodeInteger ssl value).map fun v => { receipt with appItemId := some v }
  | attrBundleId =>
    -- the octets are a field of their own, kept even when the string does not decode
    some { receipt with bundleIdBytes := some value, bundleId := decodeString ssl value }
  | attrAppVersion =>
    (decodeString ssl value).map fun v => { receipt with applicationVersion := some v }
  | attrOpaqueValue => some { receipt with opaqueValue := some value }
  | attrSha1Hash => some { receipt with sha1Hash := some value }
  | attrCreationDate =>
    (date ssl jiff value).map fun v => { receipt with receiptCreationDateMs := v }
  | attrDownloadId => (decodeInteger ssl value).map fun v => { receipt with downloadId := some v }
  | attrVersionExternalIdentifier =>
    (decodeInteger ssl value).map fun v => { receipt with versionExternalIdentifier := some v }
  | attrInApp =>
    (parseInApp ssl jiff value).map fun v => { receipt with inApp := receipt.inApp ++ [v] }
  | attrOriginalPurchaseDate =>
    (date ssl jiff value).map fun v => { receipt with originalPurchaseDateMs := v }
  | attrOriginalAppVersion =>
    (decodeString ssl value).map fun v => { receipt with originalApplicationVersion := some v }
  | attrExpirationDate =>
    (date ssl jiff value).map fun v => { receipt with expirationDateMs := v }
  | attrPreorderDate => (date ssl jiff value).map fun v => { receipt with preorderDateMs := v }
  | _ => none

/-- Attribute 17 repeats by design, one purchase per copy; of every other type the first copy
decides. -/
def receiptReader : FirstCopy.Reader Attribute Nat ReceiptPayload where
  key := Attribute.attributeType
  repeats attributeType := attributeType == attrInApp
  assign := ReceiptPayload.assign ssl jiff
  keep receipt attr :=
    { receipt with unknownAttributes := keepRaw receipt.unknownAttributes attr }

def parseReceiptPayload (attributes : List Attribute) : ReceiptPayload :=
  (receiptReader ssl jiff).run attributes {}

end

end ReceiptVerifier
