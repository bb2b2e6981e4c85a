import ReceiptVerifier.Host
import ReceiptVerifier.Verify.Endpoint
import ReceiptVerifier.Verify.Payload
import ReceiptVerifier.Verify.Values

/-!
# The payload a host comes to

`ofCore` is the payload every host should hold: the core's, field by field, with the environment it
names. The readers of the hosts share their steps (a loop that puts one entry after the other, a
lookup by a name, an integer from its decimal text), and a decoded payload has integers of 64 bits
and attribute types of 31.
-/

namespace ReceiptVerifier

/-! ## The payload a host has -/

namespace Host

def rawAttributes (attributes : UnknownAttributes) : RawAttributes :=
  attributes.toList.map fun (attributeType, values) => ((attributeType : Int), values)

def InAppPurchase.ofCore (purchase : ReceiptVerifier.InAppPurchase) : InAppPurchase Int where
  quantity := purchase.quantity
  productId := purchase.productId
  transactionId := purchase.transactionId
  purchaseDateMs := purchase.purchaseDateMs
  originalTransactionId := purchase.originalTransactionId
  originalPurchaseDateMs := purchase.originalPurchaseDateMs
  expiresDateMs := purchase.expiresDateMs
  webOrderLineItemId := purchase.webOrderLineItemId
  cancellationDateMs := purchase.cancellationDateMs
  cancellationReason := purchase.cancellationReason
  isTrialPeriod := purchase.isTrialPeriod
  isInIntroOfferPeriod := purchase.isInIntroOfferPeriod
  unknownAttributes := rawAttributes purchase.unknownAttributes

/-- The payload, field by field, with the environment it names. -/
def ReceiptPayload.ofCore (receipt : ReceiptVerifier.ReceiptPayload) : ReceiptPayload Int where
  receiptType := receipt.receiptType
  appItemId := receipt.appItemId
  bundleId := receipt.bundleId
  bundleIdBytes := receipt.bundleIdBytes
  applicationVersion := receipt.applicationVersion
  opaqueValue := receipt.opaqueValue
  sha1Hash := receipt.sha1Hash
  receiptCreationDateMs := receipt.receiptCreationDateMs
  downloadId := receipt.downloadId
  versionExternalIdentifier := receipt.versionExternalIdentifier
  inApp := receipt.inApp.map InAppPurchase.ofCore
  originalPurchaseDateMs := receipt.originalPurchaseDateMs
  preorderDateMs := receipt.preorderDateMs
  originalApplicationVersion := receipt.originalApplicationVersion
  expirationDateMs := receipt.expirationDateMs
  unknownAttributes := rawAttributes receipt.unknownAttributes
  environment := receipt.environment

/-- A new key goes to the end. -/
theorem put_of_notMem {κ α : Type} [DecidableEq κ] {key : κ} {value : α} :
    ∀ {entries : List (κ × α)}, key ∉ entries.map Prod.fst →
      put entries key value = entries ++ [(key, value)] := by
  intro entries
  induction entries with
  | nil =>
    intro _
    rfl
  | cons entry entries ih =>
    intro fresh
    rw [List.map_cons, List.mem_cons, not_or] at fresh
    rw [put, if_neg (Ne.symm fresh.1), ih fresh.2, List.cons_append]

/-- A loop that puts one entry after the other, all of different keys, ends with all of them. -/
theorem loop_puts {α γ κ β : Type} [DecidableEq κ] {l : List α → List (κ × β) → γ}
    {d : List (κ × β) → γ} {entry : α → κ × β} (finish : ∀ out, l [] out = d out) :
    ∀ (inputs : List α) (out : List (κ × β)),
      (∀ input ∈ inputs, ∀ rest out,
        l (input :: rest) out = l rest (put out (entry input).1 (entry input).2)) →
      ((out ++ inputs.map entry).map Prod.fst).Nodup →
        l inputs out = d (out ++ inputs.map entry) := by
  intro inputs
  induction inputs with
  | nil =>
    intro out _ _
    rw [finish, List.map_nil, List.append_nil]
  | cons input inputs ih =>
    intro out step nodup
    rw [List.forall_mem_cons] at step
    have front :
      out ++ (input :: inputs).map entry = (out ++ [entry input]) ++ inputs.map entry := by
      rw [List.map_cons, List.append_cons]
    have fresh : (entry input).1 ∉ out.map Prod.fst := by
      intro mem
      rw [List.map_append, List.nodup_append] at nodup
      exact nodup.2.2 _ mem _ (List.mem_map_of_mem List.mem_cons_self) rfl
    rw [front] at nodup ⊢
    rw [step.1, put_of_notMem fresh]
    exact ih _ step.2 nodup

/-- The attributes as the wire has them, a text for a type and a base64 for a value. -/
def wireAttributes (base64 : Base64) (attributes : UnknownAttributes) :
    List (String × List String) :=
  attributes.toList.map fun (attributeType, values) =>
    (toString attributeType, values.map base64.encode)

end Host

/-- A decoder of the base64 the module writes. -/
def Decodes (base64 : Base64) (decode : String → Option Bytes) : Prop :=
  ∀ bytes, decode (base64.encode bytes) = some bytes

theorem lookup_of_nodup {κ α : Type} [DecidableEq κ] {entries : List (κ × α)}
    (nodup : (entries.map Prod.fst).Nodup) :
    ∀ entry ∈ entries, entries.lookup entry.1 = some entry.2 := by
  rintro ⟨key, value⟩ mem
  obtain ⟨before, after, rfl⟩ := List.append_of_mem mem
  refine List.lookup_eq_some_iff.mpr ⟨before, after, rfl, ?_⟩
  intro other own
  rw [List.map_append, List.nodup_append] at nodup
  have differ := nodup.2.2 other.1 (List.mem_map_of_mem own) key (by simp)
  simpa using Ne.symm differ

theorem mapM_eq {ε α β γ : Type} {wire : α → β} {read : β → Except ε γ} {result : α → γ} :
    ∀ {l : List α}, (∀ a ∈ l, read (wire a) = .ok (result a)) →
      (l.map wire).mapM read = .ok (l.map result) := by
  intro l
  induction l with
  | nil =>
    intro _
    rfl
  | cons a l ih =>
    intro h
    rw [List.forall_mem_cons] at h
    rw [List.map_cons, List.mapM_cons, h.1, ok_bind, ih h.2]
    rfl

/-! ## Integers in decimal -/

theorem decimal_of_digits : ∀ (text : List Char) (value : Nat), (∀ c ∈ text, c.isDigit = true) →
    text.foldlM (fun (value : Int) c =>
      if c.isDigit then some (value * 10 + (c.toNat - 0x30 : Nat)) else none) (value : Int) =
        some (Nat.ofDigitChars 10 text value : Int) := by
  intro text
  induction text with
  | nil =>
    intro value _
    rfl
  | cons c text ih =>
    intro value digits
    rw [List.forall_mem_cons] at digits
    rw [List.foldlM_cons, if_pos digits.1, Nat.ofDigitChars_cons]
    have next : (value : Int) * 10 + ((c.toNat - 0x30 : Nat) : Int) =
        ((10 * value + (c.toNat - '0'.toNat) : Nat) : Int) := by
      have zero : '0'.toNat = 0x30 := rfl
      rw [zero]
      omega
    rw [next]
    exact ih _ digits.2

theorem decimal_toDigits (n : Nat) : decimal (Nat.toDigits 10 n) = some (n : Int) := by
  have digits : ∀ c ∈ Nat.toDigits 10 n, c.isDigit = true :=
    fun c mem => Nat.isDigit_of_mem_toDigits (by decide) (by decide) mem
  have read := decimal_of_digits (Nat.toDigits 10 n) 0 digits
  rw [Nat.ofDigitChars_ten_toDigits] at read
  rw [decimal, if_neg (by simp [Nat.toDigits_ne_nil])]
  exact read

/-- A 64-bit integer is read from its decimal text. -/
theorem parseI64_toString {n : Int} (h : IsI64 n) : parseI64 (toString n).toList = some n := by
  have head : ∀ (k : Nat) (c : Char) (more : List Char), Nat.toDigits 10 k = c :: more →
      c.isDigit = true := by
    intro k c more same
    exact Nat.isDigit_of_mem_toDigits (b := 10) (n := k) (by decide) (by decide)
      (by rw [same]; exact List.mem_cons_self)
  rw [Int.toString_eq_repr, Json.toList_repr]
  split
  · next positive =>
    unfold parseI64
    dsimp only
    split
    · next same => exact absurd (head _ _ _ same) (by decide)
    · next same => exact absurd (head _ _ _ same) (by decide)
    · rw [decimal_toDigits, Int.toNat_of_nonneg positive]
      exact Option.filter_eq_some_iff.mpr ⟨rfl, decide_eq_true h⟩
  · next negative =>
    have value : (decimal (Nat.toDigits 10 (-n).toNat)).map (fun value => -value) = some n := by
      rw [decimal_toDigits, Option.map_some, Int.toNat_of_nonneg (by omega), Int.neg_neg]
    exact Option.filter_eq_some_iff.mpr ⟨value, decide_eq_true h⟩

theorem TypesFit.lt {attributes : UnknownAttributes} (types : TypesFit attributes) {t : Nat}
    {values : List Bytes} (mem : (t, values) ∈ attributes.toList) : t < 2 ^ 31 :=
  types t (Std.ExtTreeMap.mem_iff_isSome_getElem?.mpr
    (Option.isSome_of_eq_some (Std.ExtTreeMap.mem_toList_iff_getElem?_eq_some.mp mem)))

theorem nodup_attributeTypes (attributes : UnknownAttributes) :
    (attributes.toList.map fun entry => (entry.1 : Int)).Nodup := by
  have types : (attributes.toList.map Prod.fst).Nodup :=
    (pairwise_attributeTypes attributes).imp Nat.ne_of_lt
  have names := List.Nodup.map Int.ofNat_injective types
  rwa [List.map_map] at names

theorem isI64_attributeType {t : Nat} (h : t < 2 ^ 31) : IsI64 (t : Int) := by
  unfold IsI64
  omega

/-! ## The ranges of a decoded payload -/

section

variable {ssl : Openssl.OpenSsl} {jiff : Jiff}

theorem isI64_decodeInteger {first : Option Bytes} :
    ∀ n ∈ first.bind (decodeInteger ssl), IsI64 n := by
  intro n mem
  obtain ⟨v, -, read⟩ := Option.bind_eq_some_iff.mp mem
  unfold decodeInteger Openssl.attributeInteger at read
  split at read
  · cases read
  · obtain ⟨value, -, fits⟩ := Option.bind_eq_some_iff.mp read
    unfold Openssl.int64 at fits
    split at fits
    · next within =>
      cases fits
      exact within
    · cases fits

theorem isI64_of_renders {millis : Int} (h : renders millis = true) : IsI64 millis := by
  simp only [renders, Bool.and_eq_true, decide_eq_true_eq] at h
  simp only [timestampMinSecond, lastMillis] at h
  unfold IsI64
  omega

theorem isI64_firstDate {first : Nat → Option Bytes} {t : Nat} :
    ∀ n ∈ firstDate ssl jiff first t, IsI64 n :=
  fun n mem => isI64_of_renders (renders_of_firstDate n mem)

/-- A type that only attributes of small types left values under is small. -/
theorem typesFit_of_values {unknown : UnknownAttributes} (keys : NoEmptyValues unknown)
    (h : ∀ t, ¬ t < 2 ^ 31 → unknown.getD t [] = []) : TypesFit unknown := by
  intro t mem
  by_contra large
  obtain ⟨values, own⟩ :=
    Option.isSome_iff_exists.mp (Std.ExtTreeMap.mem_iff_isSome_getElem?.mp mem)
  have none := h t large
  rw [Std.ExtTreeMap.getD_eq_getD_getElem?, own, Option.getD_some] at none
  rw [none] at own
  exact keys t own

theorem valuesOf_large {attributes : List Attribute}
    (small : ∀ attr ∈ attributes, attr.attributeType < 2 ^ 31) {t : Nat} (large : ¬ t < 2 ^ 31) :
    valuesOf attributes t = [] := by
  rw [valuesOf, List.map_eq_nil_iff, List.filter_eq_nil_iff]
  intro attr mem same
  exact large (of_decide_eq_true same ▸ small attr mem)

theorem parseAttributeSet_small {der : Bytes} {what : String} {attributes : List Attribute}
    (h : parseAttributeSet ssl der what = .ok attributes) :
    ∀ attr ∈ attributes, attr.attributeType < 2 ^ 31 := by
  unfold parseAttributeSet at h
  split at h
  · cases h
  · next raw _ =>
    clear * - h
    induction raw generalizing attributes with
    | nil =>
      cases h
      intro _ mem
      exact absurd mem List.not_mem_nil
    | cons attr raw ih =>
      rw [List.mapM_cons] at h
      split at h
      · next within =>
        rw [ok_bind] at h
        cases rest : raw.mapM (m := Except PayloadError) fun attr =>
            if 0 ≤ attr.attributeType ∧ attr.attributeType < 2 ^ 31 then
              .ok { attributeType := attr.attributeType.toNat, value := attr.value : Attribute }
            else .error (unreadable what "receipt attribute type out of range") with
        | error err =>
          rw [rest] at h
          cases h
        | ok attributes' =>
          rw [rest] at h
          cases h
          rw [List.forall_mem_cons]
          refine ⟨?_, ih rest⟩
          dsimp only
          omega
      · cases h

theorem purchaseFits_inAppPurchase {attributes : List Attribute}
    (small : ∀ attr ∈ attributes, attr.attributeType < 2 ^ 31) :
    PurchaseFits (inAppPurchase ssl jiff attributes) := by
  refine ⟨?_, typesFit_of_values (noEmptyValues_inAppPurchase attributes) ?_⟩
  · rw [inAppPurchase_eq_ofFirsts]
    simp only [IntegersFit, InAppPurchase.integers, InAppPurchase.ofFirsts, List.forall_mem_cons]
    exact ⟨isI64_decodeInteger, isI64_firstDate, isI64_firstDate, isI64_firstDate,
      isI64_decodeInteger, isI64_firstDate, isI64_decodeInteger, by simp⟩
  · intro t large
    have values := (@purchaseConserved ssl jiff attributes).values t
    rw [valuesOf_large small large] at values
    exact (List.append_eq_nil_iff.mp values.symm).2

theorem purchaseFits_of_parseInApp {v : Bytes} {purchase : InAppPurchase}
    (h : parseInApp ssl jiff v = some purchase) : PurchaseFits purchase := by
  unfold parseInApp at h
  split at h
  · cases h
  · next attributes parsed =>
    cases h
    exact purchaseFits_inAppPurchase (parseAttributeSet_small parsed)

/-- Every payload the decoder makes of an attribute SET is in range. -/
theorem payloadFits_parseReceiptPayload {content : Bytes} {attributes : List Attribute}
    (h : parsePayloadAttributes ssl content = .ok attributes) :
    PayloadFits (parseReceiptPayload ssl jiff attributes) := by
  have small := parseAttributeSet_small h
  refine ⟨?_, typesFit_of_values (noEmptyValues_parseReceiptPayload attributes) ?_, ?_⟩
  · rw [parseReceiptPayload_eq_ofFirsts]
    simp only [IntegersFit, ReceiptPayload.integers, ReceiptPayload.ofFirsts, List.forall_mem_cons]
    exact ⟨isI64_decodeInteger, isI64_firstDate, isI64_decodeInteger, isI64_decodeInteger,
      isI64_firstDate, isI64_firstDate, isI64_firstDate, by simp⟩
  · intro t large
    have other : t ≠ attrInApp := by
      rintro rfl
      exact large (by decide)
    have values := @valuesOf_receipt ssl jiff attributes t other
    rw [valuesOf_large small large] at values
    exact (List.append_eq_nil_iff.mp values.symm).2
  · rw [inApp_parseReceiptPayload]
    intro purchase mem
    obtain ⟨v, -, parsed⟩ := List.mem_filterMap.mp mem
    exact purchaseFits_of_parseInApp parsed

end

/-! ## A payload in range -/

namespace Sample

def decodeBase64 (text : String) : Option Bytes := Rfc4648.decode text.toList

theorem decodeBase64_encode : Decodes standardBase64 decodeBase64 := by
  intro bytes
  rw [decodeBase64, standardBase64, String.toList_ofList, Rfc4648.decode_encode]

theorem typesFit_ofList {entries : List (Nat × List Bytes)}
    (h : ∀ entry ∈ entries, entry.1 < 2 ^ 31) :
    TypesFit (.ofList entries) := by
  intro t mem
  rw [Std.ExtTreeMap.mem_ofList, List.contains_iff_mem] at mem
  obtain ⟨entry, own, rfl⟩ := List.mem_map.mp mem
  exact h entry own

theorem payloadFits : PayloadFits payload where
  integers := by simp [IntegersFit, ReceiptPayload.integers, payload, IsI64]
  types := typesFit_ofList (by decide)
  inApp := by
    simp only [payload, List.forall_mem_cons]
    refine ⟨⟨?_, typesFit_ofList (by decide)⟩, ⟨?_, ?_⟩, by simp⟩
    · simp [IntegersFit, InAppPurchase.integers, IsI64]
    · simp [IntegersFit, InAppPurchase.integers]
    · simp [TypesFit]

end Sample

end ReceiptVerifier
