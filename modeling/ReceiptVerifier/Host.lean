import ReceiptVerifier.Payload

/-!
# The payload types of the hosts

The Go, java-wasm, PHP and Node hosts hand out a receipt in types of one shape: the fields of the
core's payload, the attributes under the integer type the host reads, and the environment the answer
states.
-/

namespace ReceiptVerifier

namespace Host

/-- Sets a key of a map that keeps its entries in the order they came. -/
def put {κ α : Type} [DecidableEq κ] : List (κ × α) → κ → α → List (κ × α)
  | [], key, value => [(key, value)]
  | (key', value') :: entries, key, value =>
    if key' = key then (key, value) :: entries else (key', value') :: put entries key value

/-- Raw attribute values by type, each type's in receipt order. -/
abbrev RawAttributes := List (Int × List Bytes)

/-- One in-app purchase, an id as `ι`. -/
structure InAppPurchase (ι : Type) where
  quantity : Option Int := none
  productId : Option String := none
  transactionId : Option String := none
  purchaseDateMs : Option Int := none
  originalTransactionId : Option String := none
  originalPurchaseDateMs : Option Int := none
  expiresDateMs : Option Int := none
  webOrderLineItemId : Option ι := none
  cancellationDateMs : Option Int := none
  cancellationReason : Option Int := none
  isTrialPeriod : Option Bool := none
  isInIntroOfferPeriod : Option Bool := none
  unknownAttributes : RawAttributes := []

structure ReceiptPayload (ι : Type) where
  receiptType : Option String := none
  appItemId : Option ι := none
  bundleId : Option String := none
  bundleIdBytes : Option Bytes := none
  applicationVersion : Option String := none
  opaqueValue : Option Bytes := none
  sha1Hash : Option Bytes := none
  receiptCreationDateMs : Option Int := none
  downloadId : Option ι := none
  versionExternalIdentifier : Option ι := none
  inApp : List (InAppPurchase ι) := []
  originalPurchaseDateMs : Option Int := none
  preorderDateMs : Option Int := none
  originalApplicationVersion : Option String := none
  expirationDateMs : Option Int := none
  unknownAttributes : RawAttributes := []
  environment : Option Environment := none

end Host

end ReceiptVerifier
