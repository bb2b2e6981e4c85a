import ReceiptVerifier.Node.Payload
import ReceiptVerifier.Verify.Endpoints
import ReceiptVerifier.Verify.HostPayload

/-!
# The JSON the Node host writes

A payload goes through the doubles of JavaScript on its way to `toJson()`: ids travel as texts,
dates are far below 2^53, and attribute types are small, but `quantity` and `cancellation_reason`
are any 64-bit integers. The host never refuses an answer, and it writes the core's value exactly
when those two are the shortest decimals of the doubles they are read as.
-/

namespace ReceiptVerifier

namespace Node

/-! ## Numbers -/

/-- An integer that is the decimal of the double nearest to it: of the integers that round to that
double it has the most zeros at its end, and of these it is the closest. -/
def Canonical (n : Int) : Prop :=
  n = 0 ∨ Rounding.IsShortest 53 (Rounding.nearest 53 n.natAbs) n.natAbs

theorem natAbs_signed (n : Int) (magnitude : Nat) : (signed n magnitude).natAbs = magnitude := by
  unfold signed
  split <;> simp

theorem nearest_lt {n : Nat} (h : n ≤ 2 ^ 63) : Rounding.nearest 53 n < 10 ^ 21 := by
  have mono := Rounding.nearest_mono (p := 53) (by decide) h
  have top : Rounding.nearest 53 (2 ^ 63) = 2 ^ 63 := by decide +kernel
  rw [top] at mono
  exact Nat.lt_of_le_of_lt mono (by decide)

/-- A 64-bit integer is written as it was read exactly when it is canonical. -/
theorem stringify_double_iff {n : Int} (h : IsI64 n) : stringify (double n) = n ↔ Canonical n := by
  have small : n.natAbs ≤ 2 ^ 63 := by
    unfold IsI64 at h
    omega
  rcases Nat.eq_zero_or_pos n.natAbs with zero | pos
  · have zero := Int.natAbs_eq_zero.mp zero
    subst zero
    exact ⟨fun _ => .inl rfl, fun _ => by decide⟩
  · have positive : 0 < Rounding.nearest 53 n.natAbs :=
      Nat.lt_of_lt_of_le (Nat.two_pow_pos _) (Rounding.le_nearest (by decide) pos)
    have magnitude : (double n).natAbs = Rounding.nearest 53 n.natAbs := natAbs_signed _ _
    have nonzero : double n ≠ 0 := by omega
    have sign : double n < 0 ↔ n < 0 := by
      unfold double signed
      split <;> omega
    have written := Rounding.shortest_eq_iff (p := 53) (by decide)
      (Rounding.nearest_nearest (by decide) n.natAbs) positive (nearest_lt small) (n := n.natAbs)
    have shown : stringify (double n) =
        signed n (Rounding.shortest 53 (Rounding.nearest 53 n.natAbs) 21) := by
      rw [stringify, if_neg nonzero, magnitude, signed, signed]
      simp only [sign]
    have canonical : Canonical n ↔
        Rounding.IsShortest 53 (Rounding.nearest 53 n.natAbs) n.natAbs := by
      refine ⟨?_, .inr⟩
      rintro (zero | shortest)
      · omega
      · exact shortest
    rw [shown, canonical, ← written]
    unfold signed
    split <;> omega

/-- Every integer below 2^53 is canonical. -/
theorem canonical_of_lt {n : Int} (low : -(2 ^ 53) < n) (high : n < 2 ^ 53) : Canonical n := by
  rcases Nat.eq_zero_or_pos n.natAbs with zero | pos
  · exact .inl (Int.natAbs_eq_zero.mp zero)
  · have small : n.natAbs < 2 ^ 53 := by omega
    right
    rw [Rounding.nearest_of_lt small]
    exact Rounding.isShortest_of_lt pos small

theorem stringify_double_of_renders {millis : Int} (h : renders millis = true) :
    stringify (double millis) = millis := by
  simp only [renders, Bool.and_eq_true, decide_eq_true_eq] at h
  simp only [timestampMinSecond, lastMillis] at h
  refine (stringify_double_iff ⟨by omega, by omega⟩).mpr ?_
  exact canonical_of_lt (by omega) (by omega)

/-! ## Values -/

section

variable {platform : Platform} {base64 : Base64}

theorem elements_eq (values : List JsonValue) :
    platform.elements values = values.map platform.value := by
  induction values with
  | nil => rw [Platform.elements, List.map_nil]
  | cons value values ih => rw [Platform.elements, ih, List.map_cons]

/-- The properties of an object without a repeated name. -/
theorem properties_eq {members : List (String × JsonValue)} (nodup : (members.map Prod.fst).Nodup) :
    platform.properties members [] =
      members.map fun member => (member.1, platform.value member.2) := by
  refine Host.loop_puts (l := platform.properties) (d := fun out => out) ?_ members [] ?_ ?_
  · intro out
    rw [Platform.properties]
  · rintro ⟨name, value⟩ - rest out
    rw [Platform.properties]
  · rw [List.nil_append, List.map_map]
    exact nodup

theorem perm_ownProperties {α : Type} (properties : List (String × α)) :
    (ownProperties properties).Perm properties := by
  have none : (fun property : String × α => (index property.1).isNone) =
      fun property => !(index property.1).isSome := by
    funext property
    rw [Option.not_isSome]
  rw [ownProperties, none]
  exact ((List.mergeSort_perm _ _).append_right _).trans (List.filter_append_perm _ properties)

/-- The object of a JSON object. -/
def own (platform : Platform) (members : List (String × JsonValue)) : List (String × JsonValue) :=
  ownProperties (platform.properties members [])

theorem value_object (members : List (String × JsonValue)) :
    platform.value (.object members) = .object (own platform members) := by
  rw [Platform.value, own]

theorem lookup_own {members : List (String × JsonValue)} (nodup : (members.map Prod.fst).Nodup) :
    ∀ field ∈ members, (own platform members).lookup field.1 = some (platform.value field.2) := by
  intro field mem
  have order := perm_ownProperties (platform.properties members [])
  have names : ((own platform members).map Prod.fst).Nodup := by
    refine (order.map Prod.fst).nodup_iff.mpr ?_
    rw [properties_eq nodup, List.map_map]
    exact nodup
  refine lookup_of_nodup names (field.1, platform.value field.2) (order.mem_iff.mpr ?_)
  rw [properties_eq nodup]
  exact List.mem_map_of_mem mem

theorem index_attributeType {t : Nat} (small : t < 2 ^ 31) : index (toString t) = some t := by
  have name : toString t = toString (t : Int) := rfl
  rw [index, name, parseI64_toString (isI64_attributeType small), Option.bind_some,
    if_pos ⟨by omega, by omega, rfl⟩, Int.toNat_natCast]

/-- Attributes in ascending order are in the order of their keys. -/
theorem ownProperties_attributes {α : Type} {attributes : UnknownAttributes}
    (types : TypesFit attributes) (value : List Bytes → α) :
    ownProperties (attributes.toList.map fun entry => (toString entry.1, value entry.2)) =
      attributes.toList.map fun entry => (toString entry.1, value entry.2) := by
  have indexed : ∀ entry ∈ attributes.toList, index (toString entry.1) = some entry.1 :=
    fun entry mem => index_attributeType (types.lt mem)
  have every : ∀ property ∈ attributes.toList.map fun entry => (toString entry.1, value entry.2),
      (index property.1).isSome = true := by
    intro property mem
    obtain ⟨entry, own, rfl⟩ := List.mem_map.mp mem
    rw [indexed entry own, Option.isSome_some]
  have ascending : (attributes.toList.map fun entry => (toString entry.1, value entry.2)).Pairwise
      fun property property' =>
        decide ((index property.1).getD 0 ≤ (index property'.1).getD 0) = true := by
    have types := pairwise_attributeTypes attributes
    rw [List.pairwise_map] at types ⊢
    refine types.imp_of_mem ?_
    intro entry entry' own own' less
    rw [indexed entry own, indexed entry' own']
    exact decide_eq_true (Nat.le_of_lt less)
  rw [ownProperties, List.filter_eq_self.mpr every, List.mergeSort_of_pairwise ascending,
    List.filter_eq_nil_iff.mpr, List.append_nil]
  intro property mem
  rw [Option.isNone_iff_eq_none]
  intro none
  have some := every property mem
  rw [none] at some
  cases some

theorem value_textValue (text : Option String) :
    platform.value (textValue text) = textValue text := by
  cases text <;> simp only [textValue, JsonValue.ofOption, Platform.value]

theorem value_numberValue (n : Option Int) :
    platform.value (numberValue n) = numberValue (n.map double) := by
  cases n <;> simp only [numberValue, JsonValue.ofOption, Platform.value, Option.map_none,
    Option.map_some]

theorem value_boolValue (value : Option Bool) :
    platform.value (boolValue value) = boolValue value := by
  cases value <;> simp only [boolValue, JsonValue.ofOption, Platform.value]

theorem str_textValue {obj : List (String × JsonValue)} {key : String} {text : Option String}
    (h : obj.lookup key = some (platform.value (textValue text))) : str obj key = .ok text := by
  rw [value_textValue] at h
  rw [str, field, h]
  cases text <;> rfl

theorem num_numberValue {obj : List (String × JsonValue)} {key : String} {n : Option Int}
    (h : obj.lookup key = some (platform.value (numberValue n))) :
    num obj key = .ok (n.map double) := by
  rw [value_numberValue] at h
  rw [num, field, h]
  cases n <;> rfl

theorem bool_boolValue {obj : List (String × JsonValue)} {key : String} {value : Option Bool}
    (h : obj.lookup key = some (platform.value (boolValue value))) : bool obj key = .ok value := by
  rw [value_boolValue] at h
  rw [bool, field, h]
  cases value <;> rfl

end

/-! ## What the host holds -/

/-- The purchase the host holds: its numbers doubles, its id a text. -/
def heldPurchase (purchase : InAppPurchase) : Host.InAppPurchase String where
  quantity := purchase.quantity.map double
  productId := purchase.productId
  transactionId := purchase.transactionId
  purchaseDateMs := purchase.purchaseDateMs.map double
  originalTransactionId := purchase.originalTransactionId
  originalPurchaseDateMs := purchase.originalPurchaseDateMs.map double
  expiresDateMs := purchase.expiresDateMs.map double
  webOrderLineItemId := purchase.webOrderLineItemId.map toString
  cancellationDateMs := purchase.cancellationDateMs.map double
  cancellationReason := purchase.cancellationReason.map double
  isTrialPeriod := purchase.isTrialPeriod
  isInIntroOfferPeriod := purchase.isInIntroOfferPeriod
  unknownAttributes := Host.rawAttributes purchase.unknownAttributes

def held (receipt : ReceiptPayload) : Host.ReceiptPayload String where
  receiptType := receipt.receiptType
  appItemId := receipt.appItemId.map toString
  bundleId := receipt.bundleId
  bundleIdBytes := receipt.bundleIdBytes
  applicationVersion := receipt.applicationVersion
  opaqueValue := receipt.opaqueValue
  sha1Hash := receipt.sha1Hash
  receiptCreationDateMs := receipt.receiptCreationDateMs.map double
  downloadId := receipt.downloadId.map toString
  versionExternalIdentifier := receipt.versionExternalIdentifier.map toString
  inApp := receipt.inApp.map heldPurchase
  originalPurchaseDateMs := receipt.originalPurchaseDateMs.map double
  preorderDateMs := receipt.preorderDateMs.map double
  originalApplicationVersion := receipt.originalApplicationVersion
  expirationDateMs := receipt.expirationDateMs.map double
  unknownAttributes := Host.rawAttributes receipt.unknownAttributes
  environment := receipt.environment

/-- `JSON.parse` reads every text as the value it spells, `Number` reads a decimal, and the base64
is the module's. -/
structure Reads (base64 : Base64) (platform : Platform) : Prop where
  texts : ∀ value : JsonValue, value.Fits answerDepth → ∀ text : String,
    value.tree.Text text.toList →
    platform.parse text = some value
  number : ∀ t : Nat, t < 2 ^ 53 → platform.number (toString t) = some (t : Int)
  atob : Decodes base64 platform.atob
  btoa : ∀ bytes, platform.btoa bytes = base64.encode bytes

section

variable {platform : Platform} {base64 : Base64} (reads : Reads base64 platform)

include reads

theorem bytesField_bytesValue {obj : List (String × JsonValue)} {key : String}
    {value : Option Bytes} (h : obj.lookup key = some (platform.value (bytesValue base64 value))) :
    bytesField platform obj key = .ok value := by
  rw [bytesField, str_textValue h, ok_bind]
  cases value with
  | none => rfl
  | some value =>
    rw [Option.map_some]
    dsimp only
    rw [bytesFromBase64, reads.atob]
    rfl

theorem attributeValues_eq (values : List Bytes) :
    (values.map fun value => JsonValue.string (base64.encode value)).mapM
      (attributeValue platform) = .ok values := by
  have read : ∀ value ∈ values,
      attributeValue platform (.string (base64.encode value)) = .ok (id value) := by
    intro value _
    rw [attributeValue, bytesFromBase64, reads.atob]
    rfl
  have every := mapM_eq read
  rwa [List.map_id] at every

theorem unknownAttributesField_attributesValue {obj : List (String × JsonValue)}
    {attributes : UnknownAttributes}
    (h : obj.lookup "unknown_attributes" =
      some (platform.value (attributesValue base64 attributes))) (types : TypesFit attributes) :
    unknownAttributesField platform obj = .ok (Host.rawAttributes attributes) := by
  have entries : platform.value (attributesValue base64 attributes) =
      .object (attributes.toList.map fun entry =>
        (toString entry.1, .array (entry.2.map fun value => .string (base64.encode value)))) := by
    have ordered := ownProperties_attributes types fun list =>
      JsonValue.array (list.map fun value => .string (base64.encode value))
    rw [attributesValue, Platform.value, properties_eq, List.map_map, ← ordered]
    · congr 2
      refine List.map_congr_left fun entry _ => ?_
      simp only [Function.comp_apply, Platform.value, elements_eq, List.map_map]
      congr 3
    · rw [List.map_map]
      exact nodup_attributeNames attributes
  rw [unknownAttributesField, h, entries, object, ok_bind]
  refine Host.loop_puts (l := fun entries out => unknownAttributesLoop platform (entries.map _) out)
    (d := .ok) (fun _ => rfl) attributes.toList [] ?_ ?_
  · rintro ⟨attributeType, values⟩ mem rest out
    have small := types.lt mem
    have safe : isSafeInteger (attributeType : Int) = true := by
      simp only [isSafeInteger, Bool.and_eq_true, decide_eq_true_eq]
      omega
    have name : toString (attributeType : Int) = toString attributeType := rfl
    rw [List.map_cons, unknownAttributesLoop, reads.number attributeType (by omega)]
    dsimp only
    rw [if_neg (by simp [safe, name]), attributeValues_eq reads, ok_bind]
  · rw [List.nil_append, List.map_map]
    exact nodup_attributeTypes attributes

theorem inAppFromWire_wirePurchase {purchase : InAppPurchase} (h : PurchaseFits purchase) :
    inAppFromWire platform (platform.value (wirePurchase base64 purchase)) =
      .ok (heldPurchase purchase) := by
  have fields := @lookup_own platform _ (nodup_purchaseFieldValues base64 purchase)
  nth_rewrite 1 [purchaseFieldValues] at fields
  simp only [List.forall_mem_cons] at fields
  obtain ⟨quantity, product, transaction, purchased, originalTransaction, original, expires,
    webOrder, cancelled, reason, trial, intro, attributes, -⟩ := fields
  rw [wirePurchase, value_object]
  simp only [inAppFromWire, object, ok_bind, num_numberValue quantity, str_textValue product,
    str_textValue transaction, num_numberValue purchased, str_textValue originalTransaction,
    num_numberValue original, num_numberValue expires, str_textValue webOrder,
    num_numberValue cancelled, num_numberValue reason, bool_boolValue trial, bool_boolValue intro,
    unknownAttributesField_attributesValue reads attributes h.types]
  rfl

theorem receiptPayloadFromWire_payloadValue {payload : ReceiptPayload} (h : PayloadFits payload) :
    receiptPayloadFromWire platform (some (platform.value (payloadValue base64 payload)))
      payload.environment = .ok (held payload) := by
  have purchases : (payload.inApp.map fun purchase => platform.value (wirePurchase base64 purchase)
      ).mapM (inAppFromWire platform) = .ok (payload.inApp.map heldPurchase) :=
    mapM_eq fun purchase mem => inAppFromWire_wirePurchase reads (h.inApp purchase mem)
  have fields := @lookup_own platform _ (nodup_payloadFieldValues base64 payload)
  nth_rewrite 1 [payloadFieldValues] at fields
  simp only [List.forall_mem_cons] at fields
  obtain ⟨type, item, bundle, bundleBytes, version, opaqueBytes, hash, created, download, external,
    bought, original, preorder, originalVersion, expires, attributes, -⟩ := fields
  rw [Platform.value, elements_eq, List.map_map] at bought
  rw [payloadValue, value_object]
  simp only [receiptPayloadFromWire, object, ok_bind, bought, Function.comp_def, purchases,
    str_textValue type, str_textValue item, str_textValue bundle,
    bytesField_bytesValue reads bundleBytes, str_textValue version,
    bytesField_bytesValue reads opaqueBytes, bytesField_bytesValue reads hash,
    num_numberValue created, str_textValue download, str_textValue external,
    num_numberValue original, num_numberValue preorder, str_textValue originalVersion,
    num_numberValue expires, unknownAttributesField_attributesValue reads attributes h.types]
  rfl

/-- The host never refuses the answer for a payload. -/
theorem receiptAnswer_answer {payload : ReceiptPayload} (h : PayloadFits payload) :
    receiptAnswer platform (verifyReceiptResult base64 (.ok payload)) =
      .ok (.ok (held payload)) := by
  have fits : (answerValue base64 payload).Fits answerDepth := fits_answerValue base64 h
  have names : ((answerFieldValues base64 payload).map Prod.fst).Nodup := by
    simp [answerFieldValues]
  have fields := @lookup_own platform _ names
  nth_rewrite 1 [answerFieldValues] at fields
  simp only [List.forall_mem_cons] at fields
  obtain ⟨verified, carried, environment, -⟩ := fields
  rw [Platform.value] at verified
  rw [value_textValue] at environment
  have stated : environmentMember (own platform (answerFieldValues base64 payload)) =
      .ok payload.environment := by
    rw [environmentMember, environment]
    rcases payload.environment with _ | _ | _ <;> rfl
  rw [receiptAnswer, reads.texts _ fits _ (text_answerValue base64 payload), Option.map_some,
    answerValue, value_object]
  dsimp only
  rw [verified]
  dsimp only
  rw [stated, ok_bind, carried, receiptPayloadFromWire_payloadValue reads h]
  rfl

/-! ## What it writes -/

omit reads in
theorem binaryFrom_eq (binary bytes : Bytes) : binaryFrom binary bytes = binary ++ bytes := by
  fun_induction binaryFrom binary bytes with
  | case1 binary bytes _ ih => rw [ih, List.append_assoc, List.take_append_drop]
  | case2 binary bytes empty =>
    have none : bytes = [] := List.length_eq_zero_iff.mp (by omega)
    rw [none, List.append_nil]

theorem base64FromBytes_eq (bytes : Bytes) :
    base64FromBytes platform bytes = base64.encode bytes := by
  rw [base64FromBytes, binaryFrom_eq, List.nil_append, reads.btoa]

omit reads in
/-- A number is written as the core writes it exactly when it is canonical. -/
theorem sameValue_numberJson_iff {n : Option Int} (h : ∀ m ∈ n, IsI64 m) :
    SameValue (numberJson (n.map double)) (numberValue n) ↔ ∀ m ∈ n, Canonical m := by
  cases n with
  | none =>
    refine ⟨?_, fun _ => .null⟩
    rintro - m mem
    cases mem
  | some n =>
    have written := stringify_double_iff (h n rfl)
    constructor
    · intro same m mem
      cases mem
      refine written.mp ?_
      change SameValue (.number (stringify (double n))) (.number n) at same
      generalize stringify (double n) = shown at same
      cases same with
      | number => rfl
    · intro canonical
      change SameValue (.number (stringify (double n))) (.number n)
      rw [written.mpr (canonical n rfl)]
      exact .number n

omit reads in
theorem sameValue_date {millis : Option Int} (h : ∀ m ∈ millis, renders m = true) :
    SameValue (numberJson (millis.map double)) (numberValue millis) := by
  cases millis with
  | none => exact .null
  | some m =>
    change SameValue (.number (stringify (double m))) (.number m)
    rw [stringify_double_of_renders (h m rfl)]
    exact .number m

theorem unknownAttributesJson_rawAttributes {attributes : UnknownAttributes}
    (types : TypesFit attributes) :
    unknownAttributesJson platform (Host.rawAttributes attributes) =
      attributesValue base64 attributes := by
  have puts : (Host.rawAttributes attributes).foldl (fun out entry =>
      Host.put out (toString entry.1) (.array (entry.2.map fun value =>
        .string (base64FromBytes platform value)))) [] =
      attributes.toList.map fun entry => (toString entry.1,
        JsonValue.array (entry.2.map fun value => .string (base64.encode value))) := by
    rw [Host.rawAttributes, List.foldl_map]
    simp only [base64FromBytes_eq reads]
    refine Host.loop_puts (l := fun entries out => List.foldl _ out entries) (d := fun out => out)
      (fun _ => rfl) attributes.toList [] (fun _ _ _ _ => rfl) ?_
    rw [List.nil_append, List.map_map]
    exact nodup_attributeNames attributes
  rw [unknownAttributesJson, puts, ownProperties_attributes types fun list =>
    JsonValue.array (list.map fun value => .string (base64.encode value))]
  rfl

theorem sameValue_base64OrNull (bytes : Option Bytes) :
    SameValue (base64OrNull platform bytes) (bytesValue base64 bytes) := by
  cases bytes with
  | none => exact .null
  | some bytes =>
    change SameValue (.string (base64FromBytes platform bytes)) (.string (base64.encode bytes))
    rw [base64FromBytes_eq reads]
    exact .string _

/-- The two numbers of a purchase that no range of the decoder keeps small. -/
def CanonicalPurchase (purchase : InAppPurchase) : Prop :=
  (∀ n ∈ purchase.quantity, Canonical n) ∧ ∀ n ∈ purchase.cancellationReason, Canonical n

theorem sameValue_inAppJson_iff {purchase : InAppPurchase}
    (h : PurchaseFits purchase) (dates : DatesRender purchase.dates) :
    SameValue (inAppJson platform (heldPurchase purchase)) (wirePurchase base64 purchase) ↔
      CanonicalPurchase purchase := by
  have quantity := @sameValue_numberJson_iff purchase.quantity
    (h.integers _ (by simp [InAppPurchase.integers]))
  have reason := @sameValue_numberJson_iff purchase.cancellationReason
    (h.integers _ (by simp [InAppPurchase.integers]))
  simp only [DatesRender, InAppPurchase.dates, List.forall_mem_cons] at dates
  obtain ⟨purchased, original, expires, cancelled, -⟩ := dates
  constructor
  · intro same
    rw [wirePurchase, inAppJson] at same
    refine ⟨quantity.mp (same.member "quantity" ?_ ?_),
      reason.mp (same.member "cancellation_reason" ?_ ?_)⟩
    all_goals simp [heldPurchase, purchaseFieldValues]
  · intro canonical
    refine .members (nodup_purchaseFieldValues base64 purchase) ?_
    simp only [purchaseFieldValues, heldPurchase, List.forall₂_cons, textValue, boolValue, idValue,
      quantity.mpr canonical.1, reason.mpr canonical.2, sameValue_date purchased,
      sameValue_date original, sameValue_date expires, sameValue_date cancelled,
      SameValue.ofOption .string, SameValue.ofOption .bool,
      unknownAttributesJson_rawAttributes reads h.types, sameValue_attributesValue,
      List.Forall₂.nil, and_true]

/-- The value `toJson()` writes of the payload held is the core's exactly when every purchase's
numbers are canonical. -/
theorem sameValue_toJson_iff {payload : ReceiptPayload} (h : PayloadFits payload)
    (renders : PayloadRenders payload) :
    SameValue (toJson platform (held payload)) (payloadValue base64 payload) ↔
      ∀ purchase ∈ payload.inApp, CanonicalPurchase purchase := by
  have purchase : ∀ purchase ∈ payload.inApp,
      (SameValue (inAppJson platform (heldPurchase purchase)) (wirePurchase base64 purchase) ↔
        CanonicalPurchase purchase) :=
    fun purchase mem => sameValue_inAppJson_iff reads (h.inApp purchase mem)
      (renders.inApp purchase mem)
  have dates := renders.dates
  simp only [DatesRender, ReceiptPayload.dates, List.forall_mem_cons] at dates
  obtain ⟨created, original, preorder, expires, -⟩ := dates
  constructor
  · intro same bought mem
    rw [payloadValue, toJson] at same
    have purchases : SameValue
        (.array (payload.inApp.map fun purchase => inAppJson platform (heldPurchase purchase)))
        (.array (payload.inApp.map (wirePurchase base64))) := by
      refine same.member "in_app" ?_ ?_
      all_goals simp [held, payloadFieldValues]
    exact (purchase bought mem).mp (purchases.of_map bought mem)
  · intro canonical
    have purchases : SameValue
        (.array ((payload.inApp.map heldPurchase).map (inAppJson platform)))
        (.array (payload.inApp.map (wirePurchase base64))) := by
      rw [List.map_map]
      exact .map fun bought mem => (purchase bought mem).mpr (canonical bought mem)
    refine .members (nodup_payloadFieldValues base64 payload) ?_
    simp only [payloadFieldValues, held, List.forall₂_cons, textValue, idValue,
      sameValue_base64OrNull reads, sameValue_date created, sameValue_date original,
        sameValue_date preorder,
      sameValue_date expires, SameValue.ofOption .string, purchases,
      unknownAttributesJson_rawAttributes reads h.types, sameValue_attributesValue,
      List.Forall₂.nil, and_true]

/-- The host reads the answer for a payload, and the JSON value `toJson()` then writes is the one
the core writes. -/
def WritesSame (base64 : Base64) (platform : Platform) (payload : ReceiptPayload) : Prop :=
  ∃ receipt core, receiptAnswer platform (verifyReceiptResult base64 (.ok payload)) =
      .ok (.ok receipt) ∧
    parseText (payload.toJson base64) = some core ∧ SameValue (toJson platform receipt) core

theorem writesSame_iff_sameValue {payload : ReceiptPayload} (h : PayloadFits payload) :
    WritesSame base64 platform payload ↔
      SameValue (toJson platform (held payload)) (payloadValue base64 payload) := by
  have read := receiptAnswer_answer reads h
  have fits : (payloadValue base64 payload).Fits answerDepth := fits_payloadValue base64 h
  have core := parseText_eq fits (text_payloadValue base64 payload)
  constructor
  · rintro ⟨receipt, value, answered, parsed, same⟩
    cases read.symm.trans answered
    cases core.symm.trans parsed
    exact same
  · intro same
    exact ⟨_, _, read, core, same⟩

end

end Node

/-- **When the Node host writes the core's value.** For a payload in the decoder's ranges, the host
reads the answer and writes the JSON value the core writes if and only if the quantity and the
cancellation reason of every purchase are canonical: JavaScript rounds the others. -/
theorem node_writes_same_iff {base64 : Base64} {platform : Node.Platform}
    (reads : Node.Reads base64 platform) {payload : ReceiptPayload} (h : PayloadFits payload)
    (renders : PayloadRenders payload) :
    Node.WritesSame base64 platform payload ↔
      ∀ purchase ∈ payload.inApp, Node.CanonicalPurchase purchase :=
  (Node.writesSame_iff_sameValue reads h).trans (Node.sameValue_toJson_iff reads h renders)

namespace Sample

def nodePlatform : Node.Platform where
  parse := parseText
  integer _ := none
  number text := Json.decimal text.toList
  atob := decodeBase64
  btoa := standardBase64.encode

theorem nodeReads : Node.Reads standardBase64 nodePlatform where
  texts _ fits _ spelt := parseText_eq fits spelt
  number := by
    intro t _
    have name : toString t = toString (t : Int) := rfl
    change Json.decimal (toString t).toList = some (t : Int)
    rw [name, Int.toString_eq_repr, Json.decimal_repr]
  atob := decodeBase64_encode
  btoa _ := rfl

theorem payloadRenders : PayloadRenders payload where
  dates := by
    simp only [DatesRender, ReceiptPayload.dates, payload, List.forall_mem_cons]
    decide
  inApp := by
    simp only [payload, List.forall_mem_cons, DatesRender, InAppPurchase.dates]
    decide

/-- A purchase whose quantity has 54 significant bits. -/
def bulk : ReceiptPayload where
  inApp := [{ quantity := some 9007199254740993 }]

theorem bulkFits : PayloadFits bulk where
  integers := by simp [IntegersFit, ReceiptPayload.integers, bulk]
  types := by simp [TypesFit, bulk]
  inApp := by
    simp only [bulk, List.forall_mem_cons]
    refine ⟨⟨?_, by simp [TypesFit]⟩, by simp⟩
    simp [IntegersFit, InAppPurchase.integers, IsI64]

theorem bulkRenders : PayloadRenders bulk where
  dates := by
    simp only [DatesRender, ReceiptPayload.dates, bulk, List.forall_mem_cons]
    decide
  inApp := by
    simp only [bulk, List.forall_mem_cons, DatesRender, InAppPurchase.dates]
    decide

end Sample

theorem node_writes_same_iff_payload :
    Node.WritesSame Sample.standardBase64 Sample.nodePlatform Sample.payload := by
  refine (node_writes_same_iff Sample.nodeReads Sample.payloadFits Sample.payloadRenders).mpr ?_
  simp only [Sample.payload, List.forall_mem_cons, Node.CanonicalPurchase]
  refine ⟨⟨?_, by simp⟩, by simp, by simp⟩
  intro n mem
  cases mem
  exact Node.canonical_of_lt (by decide) (by decide)

/-- A quantity of 9007199254740993 is written as 9007199254740992. -/
theorem node_rounds_quantity :
    ¬ Node.WritesSame Sample.standardBase64 Sample.nodePlatform Sample.bulk := by
  intro same
  have values := (Node.writesSame_iff_sameValue Sample.nodeReads Sample.bulkFits).mp same
  have canonical := (Node.sameValue_toJson_iff Sample.nodeReads Sample.bulkFits
    Sample.bulkRenders).mp values _ List.mem_cons_self
  have fits : IsI64 9007199254740993 := ⟨by decide, by decide⟩
  have written := (Node.stringify_double_iff fits).mpr (canonical.1 _ rfl)
  revert written
  decide +kernel

end ReceiptVerifier
