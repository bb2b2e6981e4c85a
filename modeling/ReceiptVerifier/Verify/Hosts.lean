import ReceiptVerifier.Go.ReceiptPayload
import ReceiptVerifier.JavaWasm.Wire
import ReceiptVerifier.Php.Wire
import ReceiptVerifier.Verify.HostPayload

/-!
# Every host reads back what the module verified

The answer for a payload is read by three readers, each with its own rules for `null`, ids, numbers,
base64 and attribute types. On the value the answer spells each comes to the same payload, `ofCore`,
whatever the fields are, as long as the integers are of 64 bits and the attribute types of 31.
-/

namespace ReceiptVerifier

/-! ## Go -/

namespace Go

section

variable {encoding : Encoding} {base64 : Base64}

/-- A name of the struct is its own field. -/
theorem fieldNamed_of_mem {fields : List String} {key : String} (h : key ∈ fields) :
    encoding.fieldNamed fields key = some key := by
  have found : fields.find? (· == key) = some key := by
    cases same : fields.find? (· == key) with
    | none => exact absurd (beq_self_eq_true key) (List.find?_eq_none.mp same key h)
    | some field =>
      have own := List.find?_some same
      rw [beq_iff_eq] at own
      rw [own]
  rw [Encoding.fieldNamed, found, Option.some_or]

theorem decodeText_textValue (text : Option String) : decodeText (textValue text) = .ok text := by
  cases text <;> rfl

theorem decodeInt64_numberValue {n : Option Int} (h : ∀ m ∈ n, IsI64 m) :
    decodeInt64 (numberValue n) = .ok n := by
  cases n with
  | none => rfl
  | some n => exact if_pos (h n rfl)

theorem decodeBool_boolValue (value : Option Bool) : decodeBool (boolValue value) = .ok value := by
  cases value <;> rfl


/-- A list of texts decodes to the texts. -/
theorem decodeStrings_texts (texts : List String) :
    decodeStrings (.array (texts.map .string)) = .ok texts := by
  rw [decodeStrings]
  induction texts with
  | nil => rfl
  | cons text texts ih =>
    rw [List.map_cons, List.mapM_cons, ih]
    rfl

/-- The raw attributes decode to the map they are. -/
theorem decodeMap_attributesValue (attributes : UnknownAttributes) :
    decodeMap (attributesValue base64 attributes) =
      .ok (Host.wireAttributes base64 attributes) := by
  refine Host.loop_puts (l := fun entries out => decodeEntries (entries.map _) out)
    (d := .ok) (fun _ => rfl) attributes.toList [] ?_ ?_
  · rintro ⟨attributeType, values⟩ - rest out
    have texts := decodeStrings_texts (values.map base64.encode)
    rw [List.map_map] at texts
    rw [List.map_cons, decodeEntries]
    exact congrArg (· >>= _) texts
  · rw [List.nil_append, List.map_map]
    exact nodup_attributeNames attributes

/-- The purchase as the wire carries it. -/
def InAppJson.ofCore (base64 : Base64) (purchase : InAppPurchase) : InAppJson where
  quantity := purchase.quantity
  productId := purchase.productId
  transactionId := purchase.transactionId
  purchaseDateMs := purchase.purchaseDateMs
  originalTransactionId := purchase.originalTransactionId
  originalPurchaseDateMs := purchase.originalPurchaseDateMs
  expiresDateMs := purchase.expiresDateMs
  webOrderLineItemId := purchase.webOrderLineItemId.map toString
  cancellationDateMs := purchase.cancellationDateMs
  cancellationReason := purchase.cancellationReason
  isTrialPeriod := purchase.isTrialPeriod
  isInIntroOfferPeriod := purchase.isInIntroOfferPeriod
  unknownAttributes := Host.wireAttributes base64 purchase.unknownAttributes

/-- A purchase decodes to itself as the wire carries it. -/
theorem decodeStruct_wirePurchase {purchase : InAppPurchase}
    (h : IntegersFit purchase.integers) :
    decodeStruct encoding inAppFields InAppJson.assign {} (wirePurchase base64 purchase) =
      .ok (InAppJson.ofCore base64 purchase) := by
  simp only [IntegersFit, InAppPurchase.integers, List.forall_mem_cons] at h
  obtain ⟨quantity, bought, original, expires, -, cancelled, reason, -⟩ := h
  rw [wirePurchase, decodeStruct, purchaseFieldValues]
  simp (disch := decide) only [idValue, decodeMembers, fieldNamed_of_mem, InAppJson.assign,
    decodeText_textValue,
    decodeBool_boolValue, decodeMap_attributesValue, decodeInt64_numberValue quantity,
    decodeInt64_numberValue bought, decodeInt64_numberValue original,
    decodeInt64_numberValue expires, decodeInt64_numberValue cancelled,
    decodeInt64_numberValue reason]
  rfl

/-- A 64-bit id is read back from its decimal string. -/
theorem idFromJson_id {name : String} {id : Option Int} (h : ∀ n ∈ id, IsI64 n) :
    idFromJson name (id.map toString) = .ok id := by
  cases id with
  | none => rfl
  | some id =>
    rw [Option.map_some, idFromJson, parseI64_toString (h id rfl)]

theorem decodeInApp_wirePurchase {inApp : List InAppPurchase}
    (h : ∀ purchase ∈ inApp, PurchaseFits purchase) :
    decodeInApp encoding (.array (inApp.map (wirePurchase base64))) =
      .ok (inApp.map (InAppJson.ofCore base64)) :=
  mapM_eq fun purchase mem => decodeStruct_wirePurchase (h purchase mem).integers

/-- The answer to a receipt that verified reads as its payload. -/
theorem readResult_answer (reads : ReadsTexts encoding.parse) {receipt : ReceiptPayload}
    (h : PayloadFits receipt) :
    readResult encoding (verifyReceiptResult base64 (.ok receipt)) =
      .ok (payloadValue base64 receipt, receipt.environment) := by
  have parsed := reads _ (fits_answerValue base64 h) _ (text_answerValue base64 receipt)
  have filled : decodeStruct encoding resultFields ResultJson.assign {} (answerValue base64 receipt)
      = .ok { verified := some true, payload := some (payloadValue base64 receipt)
              environment := some (textValue (receipt.environment.map Environment.asStr)) } := by
    rw [answerValue, decodeStruct, answerFieldValues]
    simp (disch := decide) only [decodeMembers, fieldNamed_of_mem, ResultJson.assign]
    rfl
  have known : environmentFromJson
      (some (textValue (receipt.environment.map Environment.asStr))) =
        some receipt.environment := by
    rcases receipt.environment with _ | _ | _ <;> rfl
  rw [readResult, parsed]
  dsimp only
  rw [filled]
  dsimp only
  rw [known]
  rfl

section

variable (decodes : Decodes base64 encoding.decodeString)

include decodes

theorem decodeBytes_bytesValue (bytes : Option Bytes) :
    decodeBytes encoding (bytesValue base64 bytes) = .ok bytes := by
  cases bytes with
  | none => rfl
  | some bytes =>
    change decodeBytes encoding (.string (base64.encode bytes)) = _
    rw [decodeBytes, decodes]

/-- The values of an attribute come out of base64 in order. -/
theorem decodeValues_texts (key : String) : ∀ (values : List Bytes) (i : Nat),
    decodeValues encoding key i (values.map base64.encode) = .ok values := by
  intro values
  induction values with
  | nil =>
    intro _
    rfl
  | cons value values ih =>
    intro i
    rw [List.map_cons, decodeValues, decodes]
    dsimp only
    rw [ih]
    rfl


/-- The raw attributes come out under their types. -/
theorem attributesFromJson_wireAttributes {attributes : UnknownAttributes}
    (types : TypesFit attributes) :
    attributesFromJson encoding (Host.wireAttributes base64 attributes) =
      .ok (Host.rawAttributes attributes) := by
  refine Host.loop_puts (l := fun entries out => attributesLoop encoding (entries.map _) out)
    (d := .ok) (fun _ => rfl) attributes.toList [] ?_ ?_
  · rintro ⟨attributeType, values⟩ mem rest out
    have small := types.lt mem
    have name : toString attributeType = toString (attributeType : Int) := rfl
    rw [List.map_cons, attributesLoop, name, parseI64_toString (isI64_attributeType small)]
    dsimp only
    rw [decodeValues_texts decodes]
    rfl
  · rw [List.nil_append, List.map_map]
    exact nodup_attributeTypes attributes

/-- A purchase comes out as the core has it. -/
theorem purchase_ofCore {purchase : InAppPurchase} (h : PurchaseFits purchase) :
    (InAppJson.ofCore base64 purchase).purchase encoding =
      .ok (Host.InAppPurchase.ofCore purchase) := by
  have line : ∀ n ∈ purchase.webOrderLineItemId, IsI64 n :=
    h.integers _ (by simp [InAppPurchase.integers])
  simp only [InAppJson.purchase, InAppJson.ofCore, idFromJson_id line,
    attributesFromJson_wireAttributes decodes h.types]
  rfl

theorem purchases_ofCore : ∀ (inApp : List InAppPurchase) (i : Nat),
    (∀ purchase ∈ inApp, PurchaseFits purchase) →
      purchases encoding i (inApp.map (InAppJson.ofCore base64)) =
        .ok (inApp.map Host.InAppPurchase.ofCore) := by
  intro inApp
  induction inApp with
  | nil =>
    intro _ _
    rfl
  | cons purchase inApp ih =>
    intro i h
    rw [List.forall_mem_cons] at h
    rw [List.map_cons, purchases, purchase_ofCore decodes h.1]
    dsimp only
    rw [ih _ h.2]
    rfl

/-- The shape `encoding/json` fills from the payload. -/
def ReceiptJson.ofCore (base64 : Base64) (receipt : ReceiptPayload) : ReceiptJson where
  receiptType := receipt.receiptType
  appItemId := receipt.appItemId.map toString
  bundleId := receipt.bundleId
  bundleIdBytes := receipt.bundleIdBytes
  applicationVersion := receipt.applicationVersion
  opaqueValue := receipt.opaqueValue
  sha1Hash := receipt.sha1Hash
  receiptCreationDateMs := receipt.receiptCreationDateMs
  downloadId := receipt.downloadId.map toString
  versionExternalIdentifier := receipt.versionExternalIdentifier.map toString
  inApp := receipt.inApp.map (InAppJson.ofCore base64)
  originalPurchaseDateMs := receipt.originalPurchaseDateMs
  preorderDateMs := receipt.preorderDateMs
  originalApplicationVersion := receipt.originalApplicationVersion
  expirationDateMs := receipt.expirationDateMs
  unknownAttributes := Host.wireAttributes base64 receipt.unknownAttributes

/-- A payload decodes to itself as the wire carries it. -/
theorem decodeStruct_payloadValue {receipt : ReceiptPayload} (h : PayloadFits receipt) :
    decodeStruct encoding receiptJsonFields (ReceiptJson.assign encoding) {}
      (payloadValue base64 receipt) = .ok (ReceiptJson.ofCore base64 receipt) := by
  have integers := h.integers
  simp only [IntegersFit, ReceiptPayload.integers, List.forall_mem_cons] at integers
  obtain ⟨-, created, -, -, original, preorder, expires, -⟩ := integers
  rw [payloadValue, decodeStruct, payloadFieldValues]
  simp (disch := decide) only [idValue, decodeMembers, fieldNamed_of_mem, ReceiptJson.assign,
    decodeText_textValue, decodeBytes_bytesValue decodes, decodeMap_attributesValue,
    decodeInApp_wirePurchase h.inApp, decodeInt64_numberValue created,
      decodeInt64_numberValue original,
    decodeInt64_numberValue preorder, decodeInt64_numberValue expires]
  rfl

/-- A payload comes out as the core has it. -/
theorem receiptFromJson_payloadValue {receipt : ReceiptPayload} (h : PayloadFits receipt) :
    receiptFromJson encoding (payloadValue base64 receipt) receipt.environment =
      .ok (Host.ReceiptPayload.ofCore receipt) := by
  have integers := h.integers
  simp only [IntegersFit, ReceiptPayload.integers, List.forall_mem_cons] at integers
  obtain ⟨item, -, download, version, -⟩ := integers
  simp only [receiptFromJson, decodeStruct_payloadValue decodes h, ReceiptJson.ofCore,
    ok_bind, idFromJson_id item, idFromJson_id download, idFromJson_id version,
    attributesFromJson_wireAttributes decodes h.types, purchases_ofCore decodes _ _ h.inApp]
  rfl

/-- **The Go host reads back what the module verified.** -/
theorem receiptAnswer_answer (reads : ReadsTexts encoding.parse) {receipt : ReceiptPayload}
    (h : PayloadFits receipt) :
    receiptAnswer encoding (verifyReceiptResult base64 (.ok receipt)) =
      .ok (Host.ReceiptPayload.ofCore receipt) := by
  rw [receiptAnswer, readResult_answer reads h]
  dsimp only
  rw [receiptFromJson_payloadValue decodes h]

end

section

variable (encodes : ∀ bytes, encoding.encodeToString bytes = base64.encode bytes)

include encodes

/-- Go writes the raw attributes as the core does, in its own order. -/
theorem sameValue_attributesJson (attributes : UnknownAttributes) :
    SameValue (attributesJson encoding (Host.rawAttributes attributes))
      (attributesValue base64 attributes) := by
  have written : attributesJson encoding (Host.rawAttributes attributes) =
      .object (insertAll [] (attributes.toList.map fun entry =>
        (toString entry.1, .array (entry.2.map fun value => .string (base64.encode value))))) := by
    rw [attributesJson, Host.rawAttributes, insertAll, List.foldl_map, List.foldl_map]
    simp only [encodes]
    rfl
  rw [written]
  refine .perm (perm_insertAll _ _ ?_) (sameValue_attributesValue base64 attributes)
  rw [List.nil_append, List.map_map]
  exact nodup_attributeNames attributes

/-- Go writes a purchase as the core does, in its own order. -/
theorem sameValue_jsonValue (purchase : InAppPurchase) :
    SameValue (jsonValue encoding (Host.InAppPurchase.ofCore purchase))
      (wirePurchase base64 purchase) := by
  refine .members (nodup_purchaseFieldValues base64 purchase) ?_
  simp only [purchaseFieldValues, Host.InAppPurchase.ofCore, List.forall₂_cons, pointer, idJson,
    numberValue, textValue, boolValue, idValue, SameValue.ofOption .number,
    SameValue.ofOption .string, SameValue.ofOption .bool, sameValue_attributesJson encodes,
    List.Forall₂.nil, and_true]

/-- **The value `ToJSON` writes of the payload read back is the core's.** -/
theorem sameValue_toJson (receipt : ReceiptPayload) :
    SameValue (toJson encoding (Host.ReceiptPayload.ofCore receipt))
      (payloadValue base64 receipt) := by
  have purchases : SameValue
      (.array ((receipt.inApp.map Host.InAppPurchase.ofCore).map (jsonValue encoding)))
      (.array (receipt.inApp.map (wirePurchase base64))) := by
    rw [List.map_map]
    exact .map fun purchase _ => sameValue_jsonValue encodes purchase
  refine .members (nodup_payloadFieldValues base64 receipt) ?_
  simp only [payloadFieldValues, Host.ReceiptPayload.ofCore, List.forall₂_cons, pointer, idJson,
    numberValue, textValue, idValue, bytesValue, funext encodes, SameValue.ofOption .number,
    SameValue.ofOption .string, purchases, sameValue_attributesJson encodes, List.Forall₂.nil,
    and_true]

end

end

end Go

/-! ## java-wasm -/

namespace JavaWasm.Wire

mutual

/-- The strict tree of a value of 64-bit integers and distinct names is the value. -/
theorem readTree_eq : ∀ {value : JsonValue} {depth : Nat}, value.Fits depth →
    readTree value = .ok value
  | .null, _, _ => rfl
  | .bool _, _, _ => rfl
  | .number _, _, h => if_pos h
  | .float _, _, h => h.elim
  | .string _, _, _ => rfl
  | .array _, 0, h => h.elim
  | .object _, 0, h => h.elim
  | .array elements, depth + 1, h => by
    rw [JsonValue.Fits] at h
    rw [readTree, readElements_eq h]
  | .object members, depth + 1, h => by
    rw [JsonValue.Fits] at h
    rw [readTree, readMembers_eq h.2 h.1 (by simp)]

/-- Elements in range are read as they are. -/
theorem readElements_eq : ∀ {values : List JsonValue} {depth : Nat},
    JsonValue.ElementsFit values depth → readElements values = .ok values
  | [], _, _ => rfl
  | value :: values, _, h => by
    rw [JsonValue.ElementsFit] at h
    rw [readElements, readTree_eq h.1, ok_bind, readElements_eq h.2]
    rfl

/-- Members in range, of names not seen before, are read as they are. -/
theorem readMembers_eq : ∀ {members : List (String × JsonValue)} {seen : List String}
    {depth : Nat}, JsonValue.MembersFit members depth → (members.map Prod.fst).Nodup →
      (∀ name ∈ seen, name ∉ members.map Prod.fst) → readMembers members seen = .ok members
  | [], _, _, _, _, _ => rfl
  | (name, value) :: members, seen, _, h, nodup, fresh => by
    rw [JsonValue.MembersFit] at h
    rw [List.map_cons, List.nodup_cons] at nodup
    have unseen : name ∉ seen := fun mem => fresh name mem List.mem_cons_self
    have later : ∀ known ∈ name :: seen, known ∉ members.map Prod.fst := by
      rw [List.forall_mem_cons]
      refine ⟨nodup.1, ?_⟩
      intro known mem inside
      exact fresh known mem (List.mem_cons_of_mem _ inside)
    rw [readMembers, if_neg unseen, readTree_eq h.1, ok_bind, readMembers_eq h.2 nodup.2 later]
    rfl

end

section

variable {platform : Platform} {base64 : Base64}

theorem string_textValue {m : List (String × JsonValue)} {key : String} {text : Option String}
    (h : m.lookup key = some (textValue text)) : string m key = .ok text := by
  rw [string, h]
  cases text <;> rfl

theorem number_numberValue {m : List (String × JsonValue)} {key : String} {n : Option Int}
    (h : m.lookup key = some (numberValue n)) : number m key = .ok n := by
  rw [number, h]
  cases n <;> rfl

theorem bool_boolValue {m : List (String × JsonValue)} {key : String} {value : Option Bool}
    (h : m.lookup key = some (boolValue value)) : bool m key = .ok value := by
  rw [bool, h]
  cases value <;> rfl

theorem id_idValue {m : List (String × JsonValue)} {key : String} {id : Option Int}
    (h : m.lookup key = some (idValue id)) (fits : ∀ n ∈ id, IsI64 n) :
    Wire.id m key = .ok id := by
  rw [Wire.id, string_textValue h, ok_bind]
  cases id with
  | none => rfl
  | some id =>
    rw [Option.map_some]
    dsimp only
    rw [parseI64_toString (fits id rfl)]
    exact if_neg (not_not.mpr rfl)

/-- An attribute type is its own decimal. -/
theorem parseInt_attributeType {t : Nat} (small : t < 2 ^ 31) :
    parseInt (toString t) = some (t : Int) := by
  have name : toString t = toString (t : Int) := rfl
  rw [parseInt, name, parseI64_toString (isI64_attributeType small)]
  exact Option.filter_eq_some_iff.mpr ⟨rfl, decide_eq_true (by omega)⟩

/-- The members are the expected ones. -/
theorem keys_eq {m : List (String × JsonValue)} {what : String} {expected : List String}
    (h : m.map Prod.fst = expected) : keys m what expected = .ok () := by
  have every : expected.find? (fun key => (m.lookup key).isNone) = none := by
    rw [List.find?_eq_none]
    rintro key mem missing
    rw [Option.isNone_iff_eq_none, List.lookup_eq_none_iff] at missing
    rw [← h] at mem
    obtain ⟨member, own, rfl⟩ := List.mem_map.mp mem
    simpa using missing member own
  rw [keys, if_neg (by rw [← h]; simp), every]

/-- The base64 of the module: padded, and read back by the decoder. -/
structure ReadsBase64 (base64 : Base64) (platform : Platform) : Prop where
  decodes : Decodes base64 platform.decode
  padded : ∀ bytes, (Utf16.encode (base64.encode bytes).toList).length % 4 = 0

variable (reads : ReadsBase64 base64 platform)

include reads

theorem base64_encode (value : Bytes) (what : String) :
    Wire.base64 platform (base64.encode value) what = .ok value := by
  rw [Wire.base64, if_neg (not_not.mpr (reads.padded value)), reads.decodes]

theorem bytes_bytesValue {m : List (String × JsonValue)} {key : String} {value : Option Bytes}
    (h : m.lookup key = some (bytesValue base64 value)) : bytes platform m key = .ok value := by
  rw [bytes, string_textValue h, ok_bind]
  cases value with
  | none => rfl
  | some value =>
    rw [Option.map_some]
    dsimp only
    rw [base64_encode reads]
    rfl

/-- The values of an attribute come out of base64 in order. -/
theorem attributeValues_eq (values : List Bytes) :
    attributeValues platform (values.map fun value => .string (base64.encode value)) =
      .ok values := by
  induction values with
  | nil => rfl
  | cons value values ih =>
    rw [List.map_cons, attributeValues, base64_encode reads, ok_bind, ih]
    rfl

/-- The raw attributes come out under their types. -/
theorem attributes_attributesValue {m : List (String × JsonValue)} {unknown : UnknownAttributes}
    (h : m.lookup "unknown_attributes" = some (attributesValue base64 unknown))
    (types : TypesFit unknown) : attributes platform m = .ok (Host.rawAttributes unknown) := by
  rw [attributes, h, attributesValue, object, ok_bind]
  refine Host.loop_puts (l := fun entries out => attributesLoop platform (entries.map _) out)
    (d := .ok) (fun _ => rfl) unknown.toList [] ?_ ?_
  · rintro ⟨attributeType, values⟩ mem rest out
    have name : toString (attributeType : Int) = toString attributeType := rfl
    rw [List.map_cons, attributesLoop, parseInt_attributeType (types.lt mem)]
    dsimp only
    rw [if_neg (not_not.mpr name), attributeValues_eq reads, ok_bind]
  · rw [List.nil_append, List.map_map]
    exact nodup_attributeTypes unknown

/-- A purchase comes out as the core has it. -/
theorem purchase_wirePurchase {bought : InAppPurchase} (h : PurchaseFits bought) :
    purchase platform (wirePurchase base64 bought) = .ok (Host.InAppPurchase.ofCore bought) := by
  have line : ∀ n ∈ bought.webOrderLineItemId, IsI64 n :=
    h.integers _ (by simp [InAppPurchase.integers])
  have complete : keys (purchaseFieldValues base64 bought) "in_app element" purchaseKeys = .ok () :=
    keys_eq rfl
  have fields := lookup_of_nodup (nodup_purchaseFieldValues base64 bought)
  nth_rewrite 1 [purchaseFieldValues] at fields
  simp only [List.forall_mem_cons] at fields
  obtain ⟨quantity, product, transaction, purchased, originalTransaction, original, expires,
    webOrder, cancelled, reason, trial, intro, unknown, -⟩ := fields
  simp only [purchase, wirePurchase, object, ok_bind, complete, number_numberValue quantity,
    string_textValue product, string_textValue transaction, number_numberValue purchased,
    string_textValue originalTransaction, number_numberValue original, number_numberValue expires,
    id_idValue webOrder line, number_numberValue cancelled, number_numberValue reason,
    bool_boolValue trial, bool_boolValue intro, attributes_attributesValue reads unknown h.types]
  rfl

/-- A payload comes out as the core has it. -/
theorem receipt_payloadValue {payload : ReceiptPayload} (h : PayloadFits payload) :
    receipt platform (payloadFieldValues base64 payload) payload.environment =
      .ok (Host.ReceiptPayload.ofCore payload) := by
  have integers := h.integers
  simp only [IntegersFit, ReceiptPayload.integers, List.forall_mem_cons] at integers
  obtain ⟨itemFits, -, downloadFits, versionFits, -⟩ := integers
  have complete : keys (payloadFieldValues base64 payload) "payload" receiptKeys = .ok () :=
    keys_eq rfl
  have purchases : (payload.inApp.map (wirePurchase base64)).mapM (purchase platform) =
      .ok (payload.inApp.map Host.InAppPurchase.ofCore) :=
    mapM_eq fun bought mem => purchase_wirePurchase reads (h.inApp bought mem)
  have fields := lookup_of_nodup (nodup_payloadFieldValues base64 payload)
  nth_rewrite 1 [payloadFieldValues] at fields
  simp only [List.forall_mem_cons] at fields
  obtain ⟨type, item, bundle, bundleBytes, version, opaqueBytes, hash, created, download, external,
    inApp, original, preorder, originalVersion, expires, unknown, -⟩ := fields
  simp only [receipt, complete, ok_bind, inApp, purchases, string_textValue type,
    id_idValue item itemFits, string_textValue bundle, bytes_bytesValue reads bundleBytes,
    string_textValue version, bytes_bytesValue reads opaqueBytes, bytes_bytesValue reads hash,
    number_numberValue created, id_idValue download downloadFits,
    id_idValue external versionFits, number_numberValue original, number_numberValue preorder,
    string_textValue originalVersion, number_numberValue expires,
    attributes_attributesValue reads unknown h.types]
  rfl

/-- **The java-wasm host reads back what the module verified.** -/
theorem receiptAnswer_answer (texts : ReadsTexts platform.parse) {payload : ReceiptPayload}
    (h : PayloadFits payload) :
    receiptAnswer platform (verifyReceiptResult base64 (.ok payload)) =
      .ok (.ok (Host.ReceiptPayload.ofCore payload)) := by
  have fits : (answerValue base64 payload).Fits answerDepth := fits_answerValue base64 h
  have tree : parse platform (verifyReceiptResult base64 (.ok payload)) =
      .ok (answerValue base64 payload) := by
    rw [parse, texts _ fits _ (text_answerValue base64 payload)]
    dsimp only
    rw [readTree_eq fits]
    rfl
  have known : ∀ (m : List (String × JsonValue)) (named : Option Environment),
      m.lookup "environment" = some (textValue (named.map Environment.asStr)) →
        environment m = .ok named := by
    intro m named h
    rw [environment, h]
    rcases named with _ | _ | _ <;> rfl
  have answered : verified (answerFieldValues base64 payload) "verify-receipt answer" =
      .ok true := rfl
  have stated := known (answerFieldValues base64 payload) payload.environment rfl
  have carried : (answerFieldValues base64 payload).lookup "payload" =
      some (.object (payloadFieldValues base64 payload)) := rfl
  rw [receiptAnswer, tree, ok_bind, answerValue, object, ok_bind, answered, ok_bind, if_pos rfl,
    carried, object, ok_bind, stated, ok_bind, receipt_payloadValue reads h]
  rfl

end

end JavaWasm.Wire

/-! ## PHP -/

namespace Php.Wire

/-- A key of a PHP array is the name it was made of. -/
theorem name_of_keyOf (name : String) :
    keyOf name = .string name ∨ ∃ n, keyOf name = .int n ∧ toString n = name := by
  unfold keyOf
  split
  · next n _ =>
    split
    · next same => exact .inr ⟨n, rfl, same⟩
    · exact .inl rfl
  · exact .inl rfl

/-- Two names have two keys. -/
theorem keyOf_injective : Function.Injective keyOf := by
  intro name name' same
  rcases name_of_keyOf name with text | ⟨n, int, rfl⟩
  · rcases name_of_keyOf name' with text' | ⟨n', int', -⟩
    · rw [text, text'] at same
      exact Key.string.inj same
    · rw [text, int'] at same
      cases same
  · rcases name_of_keyOf name' with text' | ⟨n', int', rfl⟩
    · rw [int, text'] at same
      cases same
    · rw [int, int'] at same
      rw [Key.int.inj same]

/-- An attribute type becomes an integer key. -/
theorem keyOf_attributeType {t : Nat} (small : t < 2 ^ 31) : keyOf (toString t) = .int t := by
  have name : toString t = toString (t : Int) := rfl
  rw [keyOf, name, parseI64_toString (isI64_attributeType small)]
  exact if_pos rfl

/-- An object without a repeated name is the array of its members. -/
theorem ofMembers_eq {members : List (String × JsonValue)}
    (nodup : (members.map Prod.fst).Nodup) :
    ofMembers members [] = members.map fun member => (keyOf member.1, ofJson member.2) := by
  refine Host.loop_puts (l := ofMembers) (d := fun out => out) ?_ members [] ?_ ?_
  · intro out
    rw [ofMembers]
  · rintro ⟨name, value⟩ - rest out
    rw [ofMembers]
  · have keys := List.Nodup.map keyOf_injective nodup
    rw [List.map_map] at keys
    rw [List.nil_append, List.map_map]
    exact keys

/-- What the array has under a member's name. -/
theorem lookup_ofMembers {members : List (String × JsonValue)}
    (nodup : (members.map Prod.fst).Nodup) :
    ∀ field ∈ members, (ofMembers members []).lookup (keyOf field.1) = some (ofJson field.2) := by
  intro field mem
  have keys : ((ofMembers members []).map Prod.fst).Nodup := by
    have distinct := List.Nodup.map keyOf_injective nodup
    rw [ofMembers_eq nodup, List.map_map]
    rwa [List.map_map] at distinct
  refine lookup_of_nodup keys (keyOf field.1, ofJson field.2) ?_
  rw [ofMembers_eq nodup]
  exact List.mem_map_of_mem mem

/-- A PHP array made of members has each under the key of its name. -/
theorem member_ofMembers {members : List (String × JsonValue)}
    (nodup : (members.map Prod.fst).Nodup) :
    ∀ field ∈ members, member (ofMembers members []) field.1 = ofJson field.2 := by
  intro field mem
  rw [member, lookup_ofMembers nodup field mem, Option.getD_some]

/-- A PHP list has the elements at 0, 1 and on. -/
theorem ofElements_values : ∀ (elements : List JsonValue) (i : Nat),
    (ofElements i elements).map Prod.snd = elements.map ofJson := by
  intro elements
  induction elements with
  | nil =>
    intro i
    rw [ofElements]
    rfl
  | cons element elements ih =>
    intro i
    rw [ofElements, List.map_cons, List.map_cons, ih]

theorem string_textValue (text : Option String) : string (ofJson (textValue text)) = .ok text := by
  cases text with
  | none => rw [textValue, JsonValue.ofOption, ofJson, string]
  | some text => rw [textValue, JsonValue.ofOption, ofJson, string]

theorem int_numberValue {n : Option Int} (h : ∀ m ∈ n, IsI64 m) :
    int (ofJson (numberValue n)) = .ok n := by
  cases n with
  | none => rw [numberValue, JsonValue.ofOption, ofJson, int]
  | some n =>
    have own : ofJson (.number n) = .int n := by
      rw [ofJson]
      exact if_pos (h n rfl)
    rw [numberValue, JsonValue.ofOption, own, int]

theorem flag_boolValue (value : Option Bool) : flag (ofJson (boolValue value)) = .ok value := by
  cases value with
  | none => rw [boolValue, JsonValue.ofOption, ofJson, flag]
  | some value => rw [boolValue, JsonValue.ofOption, ofJson, flag]

section

variable {platform : Platform} {base64 : Base64}

/-- `json_decode`, the cast and `base64_decode` read what the module writes. -/
structure Reads (base64 : Base64) (platform : Platform) : Prop where
  texts : ∀ value : JsonValue, value.Fits answerDepth → ∀ text : String,
    value.tree.Text text.toList →
    platform.parse text = some value
  decodes : Decodes base64 platform.base64Decode
  intval : ∀ n, IsI64 n → platform.intval (toString n) = n

variable (reads : Reads base64 platform)

include reads

theorem id_idValue {value : Option Int} (h : ∀ n ∈ value, IsI64 n) :
    Wire.id platform (ofJson (idValue value)) = .ok value := by
  rw [Wire.id, idValue, string_textValue, ok_bind]
  cases value with
  | none => rfl
  | some n =>
    rw [Option.map_some]
    dsimp only
    rw [reads.intval n (h n rfl)]
    exact if_neg (not_not.mpr rfl)

theorem octets_bytesValue (value : Option Bytes) :
    octets platform (ofJson (bytesValue base64 value)) = .ok value := by
  rw [octets, bytesValue, string_textValue, ok_bind]
  cases value with
  | none => rfl
  | some value =>
    rw [Option.map_some]
    dsimp only
    rw [reads.decodes]
    rfl

/-- The values of an attribute come out of base64 in order. -/
theorem values_eq : ∀ (list : List Bytes) (i : Nat),
    values platform (ofElements i (list.map fun value => .string (base64.encode value))) =
      .ok list := by
  intro list
  induction list with
  | nil =>
    intro i
    rw [List.map_nil, ofElements, values]
  | cons value list ih =>
    intro i
    have own := octets_bytesValue reads (some value)
    rw [bytesValue, textValue, Option.map_some, JsonValue.ofOption] at own
    rw [List.map_cons, ofElements, values, own, ok_bind]
    dsimp only
    rw [ih, ok_bind]
    rfl

/-- The raw attributes come out under their types. -/
theorem unknown_attributesValue {attributes : UnknownAttributes} (types : TypesFit attributes) :
    unknown platform (ofJson (attributesValue base64 attributes)) =
      .ok (Host.rawAttributes attributes) := by
  have entries : ofJson (attributesValue base64 attributes) =
      .array (attributes.toList.map fun entry => (keyOf (toString entry.1),
        ofJson (.array (entry.2.map fun value => .string (base64.encode value))))) := by
    rw [attributesValue, ofJson, ofMembers_eq, List.map_map]
    · rfl
    · rw [List.map_map]
      exact nodup_attributeNames attributes
  rw [entries]
  refine Host.loop_puts (l := fun entries out => unknownLoop platform (entries.map _) out)
    (d := .ok) (fun _ => rfl) attributes.toList [] ?_ ?_
  · rintro ⟨attributeType, list⟩ mem rest out
    rw [List.map_cons, keyOf_attributeType (types.lt mem), ofJson,
      unknownLoop, values_eq reads, ok_bind]
  · rw [List.nil_append, List.map_map]
    exact nodup_attributeTypes attributes

/-- A purchase comes out as the core has it. -/
theorem inApp_wirePurchase {purchase : InAppPurchase} (h : PurchaseFits purchase) :
    inApp platform (ofJson (wirePurchase base64 purchase)) =
      .ok (Host.InAppPurchase.ofCore purchase) := by
  have integers := h.integers
  simp only [IntegersFit, InAppPurchase.integers, List.forall_mem_cons] at integers
  obtain ⟨quantityFits, boughtFits, originalFits, expiresFits, lineFits, cancelledFits, reasonFits,
    -⟩ := integers
  have fields := member_ofMembers (nodup_purchaseFieldValues base64 purchase)
  nth_rewrite 1 [purchaseFieldValues] at fields
  simp only [List.forall_mem_cons] at fields
  obtain ⟨quantity, product, transaction, purchased, originalTransaction, original, expires,
    webOrder, cancelled, reason, trial, intro, attributes, -⟩ := fields
  simp only [inApp, wirePurchase, ofJson, asObject, ok_bind, quantity, product, transaction,
    purchased, originalTransaction, original, expires, webOrder, cancelled, reason, trial, intro,
    attributes, string_textValue, flag_boolValue, int_numberValue quantityFits,
    int_numberValue boughtFits, int_numberValue originalFits, int_numberValue expiresFits,
    int_numberValue cancelledFits, int_numberValue reasonFits, id_idValue reads lineFits,
    unknown_attributesValue reads h.types]
  rfl

/-- A payload comes out as the core has it. -/
theorem receiptPayload_payloadValue {payload : ReceiptPayload} (h : PayloadFits payload) :
    receiptPayload platform (ofJson (payloadValue base64 payload)) payload.environment =
      .ok (Host.ReceiptPayload.ofCore payload) := by
  have integers := h.integers
  simp only [IntegersFit, ReceiptPayload.integers, List.forall_mem_cons] at integers
  obtain ⟨itemFits, createdFits, downloadFits, versionFits, originalFits, preorderFits, expiresFits,
    -⟩ := integers
  have listed : purchaseList (ofJson (.array (payload.inApp.map (wirePurchase base64)))) =
      .ok (payload.inApp.map fun purchase => ofJson (wirePurchase base64 purchase)) := by
    rw [ofJson, purchaseList, ofElements_values, List.map_map]
    rfl
  have purchases : (payload.inApp.map fun purchase => ofJson (wirePurchase base64 purchase)).mapM
      (inApp platform) = .ok (payload.inApp.map Host.InAppPurchase.ofCore) :=
    mapM_eq fun purchase mem => inApp_wirePurchase reads (h.inApp purchase mem)
  have fields := member_ofMembers (nodup_payloadFieldValues base64 payload)
  nth_rewrite 1 [payloadFieldValues] at fields
  simp only [List.forall_mem_cons] at fields
  obtain ⟨type, item, bundle, bundleBytes, version, opaqueBytes, hash, created, download, external,
    bought, original, preorder, originalVersion, expires, attributes, -⟩ := fields
  rw [payloadValue, ofJson]
  simp only [receiptPayload, asObject, ok_bind, type, item, bundle, bundleBytes, version,
    opaqueBytes, hash, created, download, external, bought, original, preorder, originalVersion,
    expires, attributes, listed, purchases, string_textValue, octets_bytesValue reads,
    id_idValue reads itemFits, id_idValue reads downloadFits, id_idValue reads versionFits,
    int_numberValue createdFits, int_numberValue originalFits, int_numberValue preorderFits,
    int_numberValue expiresFits, unknown_attributesValue reads h.types]
  rfl

/-- **The PHP host reads back what the module verified.** -/
theorem receiptResult_answer {payload : ReceiptPayload} (h : PayloadFits payload) :
    receiptResult platform (verifyReceiptResult base64 (.ok payload)) =
      .ok (.ok (Host.ReceiptPayload.ofCore payload)) := by
  have fits : (answerValue base64 payload).Fits answerDepth := fits_answerValue base64 h
  have names : ((answerFieldValues base64 payload).map Prod.fst).Nodup := by
    simp [answerFieldValues]
  have parsed : object platform (verifyReceiptResult base64 (.ok payload)) =
      .ok (ofMembers (answerFieldValues base64 payload) []) := by
    rw [object, reads.texts _ fits _ (text_answerValue base64 payload)]
    dsimp only
    rw [answerValue, ofJson, asObject]
  have found := lookup_ofMembers names
  have fields := member_ofMembers names
  nth_rewrite 1 [answerFieldValues] at found fields
  simp only [List.forall_mem_cons] at found fields
  obtain ⟨-, -, environmentFound, -⟩ := found
  obtain ⟨verified, carried, -⟩ := fields
  have stated : environment (ofMembers (answerFieldValues base64 payload) []) =
      .ok payload.environment := by
    rw [environment, environmentFound]
    rcases payload.environment with _ | _ | _
    all_goals
      rw [textValue]
      simp only [Option.map_none, Option.map_some, JsonValue.ofOption, ofJson, Environment.asStr]
  rw [ofJson] at verified
  rw [receiptResult, parsed, ok_bind, verified]
  dsimp only
  rw [stated, ok_bind, carried, receiptPayload_payloadValue reads h]
  rfl

end

end Php.Wire

/-! ## The hosts together -/

/-- The parsers read every text of a value as the value, and the base64 of a host is the
module's. -/
structure Platforms (base64 : Base64) (encoding : Go.Encoding) (java : JavaWasm.Wire.Platform)
    (php : Php.Platform) : Prop where
  goTexts : ReadsTexts encoding.parse
  goDecodes : Decodes base64 encoding.decodeString
  goEncodes : ∀ bytes, encoding.encodeToString bytes = base64.encode bytes
  javaTexts : ReadsTexts java.parse
  javaBase64 : JavaWasm.Wire.ReadsBase64 base64 java
  php : Php.Wire.Reads base64 php

/-- **Every host reads back what the module verified.** The answer for a payload of 64-bit integers
and 31-bit attribute types is read by Go, by java-wasm and by PHP without a failure, and each comes
to the payload field by field, with the environment it names. What Go then writes of it is the JSON
value the core writes. -/
theorem hosts_read_back {base64 : Base64} {encoding : Go.Encoding} {java : JavaWasm.Wire.Platform}
    {php : Php.Platform} (platforms : Platforms base64 encoding java php)
    {payload : ReceiptPayload} (h : PayloadFits payload) :
    Go.receiptAnswer encoding (verifyReceiptResult base64 (.ok payload)) =
      .ok (Host.ReceiptPayload.ofCore payload) ∧
    JavaWasm.Wire.receiptAnswer java (verifyReceiptResult base64 (.ok payload)) =
      .ok (.ok (Host.ReceiptPayload.ofCore payload)) ∧
    Php.Wire.receiptResult php (verifyReceiptResult base64 (.ok payload)) =
      .ok (.ok (Host.ReceiptPayload.ofCore payload)) ∧
    ∃ value : JsonValue, value.tree.Text (payload.toJson base64).toList ∧
      SameValue (Go.toJson encoding (Host.ReceiptPayload.ofCore payload)) value := by
  refine ⟨Go.receiptAnswer_answer platforms.goDecodes platforms.goTexts h,
    JavaWasm.Wire.receiptAnswer_answer platforms.javaBase64 platforms.javaTexts h,
    Php.Wire.receiptResult_answer platforms.php h, payloadValue base64 payload,
    text_payloadValue base64 payload, ?_⟩
  exact Go.sameValue_toJson platforms.goEncodes payload

namespace Sample

/-- `encoding/json` and `encoding/base64` by their standards, with ASCII case folded. -/
def goEncoding : Go.Encoding where
  parse text := (parseText text).map fun value => (value, false)
  foldName := String.toLower
  decodeString := decodeBase64
  encodeToString := standardBase64.encode

def javaPlatform : JavaWasm.Wire.Platform where
  parse text := (parseText text).map fun value => (value, false)
  decode := decodeBase64

def phpPlatform : Php.Platform where
  parse := parseText
  base64Decode := decodeBase64
  intval text := (parseI64 text.toList).getD 0

theorem readsTexts_parseText :
    ReadsTexts fun text => (parseText text).map fun value => (value, false) := by
  intro value fits text spelt
  dsimp only
  rw [parseText_eq fits spelt, Option.map_some]

theorem platforms : Platforms standardBase64 goEncoding javaPlatform phpPlatform where
  goTexts := readsTexts_parseText
  goDecodes := decodeBase64_encode
  goEncodes _ := rfl
  javaTexts := readsTexts_parseText
  javaBase64 := {
    decodes := decodeBase64_encode
    padded := by
      intro bytes
      have units : ∀ c ∈ Rfc4648.encode bytes, c.toNat < 0x10000 :=
        fun c mem => Nat.lt_trans (Rfc4648.encode_ascii bytes c mem) (by decide)
      rw [standardBase64, String.toList_ofList, Utf16.length_encode units, Rfc4648.encode_length] }
  php := {
    texts := fun _ fits _ spelt => parseText_eq fits spelt
    decodes := decodeBase64_encode
    intval := by
      intro n fits
      change (parseI64 (toString n).toList).getD 0 = n
      rw [parseI64_toString fits, Option.getD_some] }

end Sample

theorem hosts_read_back_payload :
    PayloadFits Sample.payload ∧
    Go.receiptAnswer Sample.goEncoding
      (verifyReceiptResult Sample.standardBase64 (.ok Sample.payload)) =
        .ok (Host.ReceiptPayload.ofCore Sample.payload) :=
  ⟨Sample.payloadFits, (hosts_read_back Sample.platforms Sample.payloadFits).1⟩

end ReceiptVerifier
