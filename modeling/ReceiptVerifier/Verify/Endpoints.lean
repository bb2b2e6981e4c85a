import ReceiptVerifier.Java.Endpoint
import ReceiptVerifier.Verify.Endpoint
import ReceiptVerifier.Verify.JavaJws
import ReceiptVerifier.Verify.Values

/-!
# The two endpoints answer alike

Rust inserts the members of the receipt object into a map, Java writes them as fields in order. Both
go through the same fields, and no name comes twice, so the map is the fields in another order
(`perm_insertAll`). Ahead of that, both take the last `receipt-data` of the request and the same
status. They part on a request with a lone surrogate in a member's name, which `serde_json` refuses
and Jackson reads.
-/

namespace ReceiptVerifier

open Java Java.JwsCore

/-! ## Maps of fields -/

open EndpointResponse (Fields Rendering)

theorem presentString_eq (json : JsonMap) (key : String) (value : Option String) :
    presentString json key value = insertAll json (EndpointResponse.string key value) := by
  cases value <;> rfl

theorem presentNumber_eq (json : JsonMap) (key : String) (value : Option Int) :
    presentNumber json key value = insertAll json (EndpointResponse.number key value) := by
  cases value <;> rfl

theorem numberOrNull_eq (json : JsonMap) (key : String) (value : Option Int) :
    numberOrNull json key value = insertAll json (EndpointResponse.objectField key value) := rfl

theorem presentNumberAsString_eq (json : JsonMap) (key : String) (value : Option Int) :
    presentNumberAsString json key value =
      insertAll json (EndpointResponse.numberAsString key value) := by
  cases value <;> rfl

/-! ## Dates -/

/-- The two ports have the same texts for an instant. -/
def SameDates (jiff : Jiff) (rendering : Rendering) : Prop :=
  ∀ millis, renders millis = true → formatEtcGmt jiff millis = some (rendering.gmt millis) ∧
    formatPacific jiff millis = some (rendering.pacific millis)

/-- Java's dates are those of its zone. -/
theorem appleDates_ofTime (time : JavaTime) (name : String) (epochMillis : Option Int) :
    EndpointResponse.appleDates (.ofTime time) name epochMillis =
      (Java.appleDates time name epochMillis).map fun (key, text) => (key, .string text) := by
  cases epochMillis <;> rfl

variable {jiff : Jiff} {rendering : Rendering}

theorem appleDates_eq (same : SameDates jiff rendering) (json : JsonMap) (name : String)
    {millis : Option Int} (h : ∀ m ∈ millis, renders m = true) :
    appleDates jiff json name millis =
      some (insertAll json (EndpointResponse.appleDates rendering name millis)) := by
  cases millis with
  | none => rfl
  | some m =>
    obtain ⟨gmt, pacific⟩ := same m (h m rfl)
    simp only [appleDates, gmt, pacific]
    rfl

/-! ## Purchases -/

def InAppPurchase.dates (purchase : InAppPurchase) : List (Option Int) :=
  [purchase.purchaseDateMs, purchase.originalPurchaseDateMs, purchase.expiresDateMs,
    purchase.cancellationDateMs]

def ReceiptPayload.dates (receipt : ReceiptPayload) : List (Option Int) :=
  [receipt.receiptCreationDateMs, receipt.originalPurchaseDateMs, receipt.preorderDateMs,
    receipt.expirationDateMs]

/-- Every date that is there renders. -/
def DatesRender (dates : List (Option Int)) : Prop :=
  ∀ date ∈ dates, ∀ millis ∈ date, renders millis = true

/-- Java's test of `web_order_line_item_id` is Rust's filter. -/
theorem webOrderLineItemId_eq (id : Option Int) :
    EndpointResponse.webOrderLineItemId id =
      EndpointResponse.numberAsString "web_order_line_item_id" (id.filter (· != 0)) := by
  cases id with
  | none => rfl
  | some id =>
    by_cases zero : id = 0
    · simp only [EndpointResponse.webOrderLineItemId, zero]
      rfl
    · simp [EndpointResponse.webOrderLineItemId, Option.filter, zero]

theorem flag_eq (key : String) (flag : Option Bool) :
    EndpointResponse.flag key flag = EndpointResponse.string key (flag.map toString) := by
  cases flag <;> rfl

theorem purchaseJson_eq (same : SameDates jiff rendering) {purchase : InAppPurchase}
    (h : DatesRender purchase.dates) :
    purchaseJson jiff purchase =
      some (.object (insertAll [] (EndpointResponse.purchaseFields rendering purchase))) := by
  have bought := h purchase.purchaseDateMs (by simp [InAppPurchase.dates])
  have original := h purchase.originalPurchaseDateMs (by simp [InAppPurchase.dates])
  have expires := h purchase.expiresDateMs (by simp [InAppPurchase.dates])
  have cancelled := h purchase.cancellationDateMs (by simp [InAppPurchase.dates])
  unfold purchaseJson EndpointResponse.purchaseFields
  rw [webOrderLineItemId_eq, flag_eq, flag_eq]
  rcases purchase.webOrderLineItemId.filter (· != 0) with _ | id <;>
    simp only [presentNumberAsString_eq, presentString_eq, appleDates_eq same _ _ bought,
      appleDates_eq same _ _ original, appleDates_eq same _ _ expires,
      appleDates_eq same _ _ cancelled, Option.bind_eq_bind, Option.bind_some, insertAll_append]
  rfl

theorem mapM_some {α β : Type} {f : α → Option β} {g : α → β} : ∀ {l : List α},
    (∀ a ∈ l, f a = some (g a)) → l.mapM f = some (l.map g) := by
  intro l
  induction l with
  | nil =>
    intro _
    rfl
  | cons a l ih =>
    intro h
    obtain ⟨own, rest⟩ := List.forall_mem_cons.mp h
    simp [List.mapM_cons, own, ih rest]

/-- Every date of a payload and of its purchases renders. -/
structure PayloadRenders (receipt : ReceiptPayload) : Prop where
  dates : DatesRender receipt.dates
  inApp : ∀ purchase ∈ receipt.inApp, DatesRender purchase.dates

/-- Every payload the decoder makes. -/
theorem payloadRenders_parseReceiptPayload {ssl : Openssl.OpenSsl} (attributes : List Attribute) :
    PayloadRenders (parseReceiptPayload ssl jiff attributes) := by
  constructor
  · rw [parseReceiptPayload_eq_ofFirsts]
    simp only [DatesRender, ReceiptPayload.dates, List.forall_mem_cons]
    exact ⟨renders_of_firstDate, renders_of_firstDate, renders_of_firstDate, renders_of_firstDate,
      fun date mem => nomatch mem⟩
  · rw [inApp_parseReceiptPayload]
    intro purchase mem
    obtain ⟨v, -, parsed⟩ := List.mem_filterMap.mp mem
    unfold parseInApp at parsed
    split at parsed
    · cases parsed
    · cases parsed
      rw [inAppPurchase_eq_ofFirsts]
      simp only [DatesRender, InAppPurchase.dates, List.forall_mem_cons]
      exact ⟨renders_of_firstDate, renders_of_firstDate, renders_of_firstDate, renders_of_firstDate,
        fun date mem => nomatch mem⟩

/-- The purchase object Rust makes. -/
def purchaseValue (rendering : Rendering) (purchase : InAppPurchase) : JsonValue :=
  .object (insertAll [] (EndpointResponse.purchaseFields rendering purchase))

theorem receiptJson_eq (same : SameDates jiff rendering) {receipt : ReceiptPayload} {now : Int}
    (h : PayloadRenders receipt) (clock : renders now = true) :
    receiptJson jiff receipt now =
      some (.object (insertAll [] (EndpointResponse.receiptFields rendering receipt now ++
        [("in_app", .array (receipt.inApp.map (purchaseValue rendering)))]))) := by
  have created := h.dates receipt.receiptCreationDateMs (by simp [ReceiptPayload.dates])
  have original := h.dates receipt.originalPurchaseDateMs (by simp [ReceiptPayload.dates])
  have preorder := h.dates receipt.preorderDateMs (by simp [ReceiptPayload.dates])
  have expires := h.dates receipt.expirationDateMs (by simp [ReceiptPayload.dates])
  have asked : ∀ m ∈ some now, renders m = true := by simpa using clock
  have inApp : receipt.inApp.mapM (purchaseJson jiff) =
      some (receipt.inApp.map (purchaseValue rendering)) :=
    mapM_some fun purchase mem => purchaseJson_eq same (h.inApp purchase mem)
  unfold receiptJson EndpointResponse.receiptFields
  simp only [presentNumber_eq, presentString_eq, numberOrNull_eq, appleDates_eq same _ _ created,
    appleDates_eq same _ _ original, appleDates_eq same _ _ preorder,
    appleDates_eq same _ _ expires, appleDates_eq same _ _ asked, inApp, Option.bind_eq_bind,
    Option.bind_some, insertAll_append]
  rfl

/-! ## Names -/

section

open EndpointResponse

theorem names_string (key : String) (value : Option String) :
    ((EndpointResponse.string key value).map Prod.fst).Sublist [key] := by
  cases value with
  | none => exact List.nil_sublist _
  | some value => exact .refl _

theorem names_number (key : String) (value : Option Int) :
    ((EndpointResponse.number key value).map Prod.fst).Sublist [key] := by
  cases value with
  | none => exact List.nil_sublist _
  | some value => exact .refl _

theorem names_numberAsString (key : String) (value : Option Int) :
    ((numberAsString key value).map Prod.fst).Sublist [key] := names_string key _

theorem names_appleDates (rendering : Rendering) (name : String) (epochMillis : Option Int) :
    ((EndpointResponse.appleDates rendering name epochMillis).map Prod.fst).Sublist
      [name, name ++ "_ms", name ++ "_pst"] := by
  cases epochMillis with
  | none => exact List.nil_sublist _
  | some millis => exact .refl _

/-- No name of a purchase is written twice. -/
theorem nodup_purchaseFields (rendering : Rendering) (purchase : InAppPurchase) :
    ((purchaseFields rendering purchase).map Prod.fst).Nodup := by
  rw [purchaseFields, webOrderLineItemId_eq, flag_eq, flag_eq]
  simp only [List.map_append]
  have front := (((names_numberAsString "quantity" purchase.quantity).append
    (names_string "product_id" purchase.productId)).append
    (names_string "transaction_id" purchase.transactionId)).append
    (names_string "original_transaction_id" purchase.originalTransactionId)
  have dates := (((front.append
    (names_appleDates rendering "purchase_date" purchase.purchaseDateMs)).append
    (names_appleDates rendering "original_purchase_date" purchase.originalPurchaseDateMs)).append
    (names_appleDates rendering "expires_date" purchase.expiresDateMs)).append
    (names_appleDates rendering "cancellation_date" purchase.cancellationDateMs)
  have names := ((dates.append
    (names_numberAsString "cancellation_reason" purchase.cancellationReason)).append
    (names_numberAsString "web_order_line_item_id"
      (purchase.webOrderLineItemId.filter (· != 0)))).append
    (names_string "is_trial_period" (purchase.isTrialPeriod.map toString))
  refine (names.append (names_string "is_in_intro_offer_period"
    (purchase.isInIntroOfferPeriod.map toString))).nodup ?_
  decide +kernel

/-- No name of a receipt is written twice, and `in_app` comes after them. -/
theorem nodup_receiptFields (rendering : Rendering) (receipt : ReceiptPayload) (now : Int) :
    ((EndpointResponse.receiptFields rendering receipt now).map Prod.fst ++ ["in_app"]).Nodup := by
  unfold EndpointResponse.receiptFields
  simp only [List.map_append]
  have front := ((((names_string "receipt_type" receipt.receiptType).append
    (names_number "adam_id" receipt.appItemId)).append
    (names_number "app_item_id" receipt.appItemId)).append
    (names_string "bundle_id" receipt.bundleId)).append
    (names_string "application_version" receipt.applicationVersion)
  have numbers := ((front.append
    (List.Sublist.refl ((objectField "download_id" receipt.downloadId).map Prod.fst))).append
    (names_number "version_external_identifier" receipt.versionExternalIdentifier)).append
    (names_string "original_application_version" receipt.originalApplicationVersion)
  have dates := ((((numbers.append
    (names_appleDates rendering "receipt_creation_date" receipt.receiptCreationDateMs)).append
    (names_appleDates rendering "request_date" (some now))).append
    (names_appleDates rendering "original_purchase_date" receipt.originalPurchaseDateMs)).append
    (names_appleDates rendering "preorder_date" receipt.preorderDateMs)).append
    (names_appleDates rendering "expiration_date" receipt.expirationDateMs)
  refine (dates.append (List.Sublist.refl ["in_app"])).nodup ?_
  change (_ ++ ["download_id"] ++ _ ++ _ ++ _ ++ _ ++ _ ++ _ ++ _ ++ _ : List String).Nodup
  decide +kernel

/-! ## Fields are scalars -/

/-- Every field's value equals itself. -/
def Scalars (fields : Fields) : Prop := ∀ field ∈ fields, SameValue field.2 field.2

theorem scalars_append {fields fields' : Fields} (h : Scalars fields) (h' : Scalars fields') :
    Scalars (fields ++ fields') := List.forall_mem_append.mpr ⟨h, h'⟩

theorem scalars_string (key : String) (value : Option String) :
    Scalars (EndpointResponse.string key value) := by
  cases value with
  | none => exact fun field mem => nomatch mem
  | some value => exact List.forall_mem_singleton.mpr (.string value)

theorem scalars_number (key : String) (value : Option Int) :
    Scalars (EndpointResponse.number key value) := by
  cases value with
  | none => exact fun field mem => nomatch mem
  | some value => exact List.forall_mem_singleton.mpr (.number value)

theorem scalars_numberAsString (key : String) (value : Option Int) :
    Scalars (numberAsString key value) := scalars_string key _

theorem scalars_objectField (key : String) (value : Option Int) :
    Scalars (objectField key value) := by
  cases value with
  | none => exact List.forall_mem_singleton.mpr .null
  | some value => exact List.forall_mem_singleton.mpr (.number value)

theorem scalars_appleDates (name : String) (epochMillis : Option Int) :
    Scalars (EndpointResponse.appleDates rendering name epochMillis) := by
  cases epochMillis with
  | none => exact fun field mem => nomatch mem
  | some millis =>
    refine scalars_append (scalars_append ?_ (scalars_numberAsString _ _)) ?_
    · exact List.forall_mem_singleton.mpr (.string _)
    · exact List.forall_mem_singleton.mpr (.string _)

theorem scalars_purchaseFields (purchase : InAppPurchase) :
    Scalars (purchaseFields rendering purchase) := by
  rw [purchaseFields, webOrderLineItemId_eq, flag_eq, flag_eq]
  refine scalars_append (scalars_append (scalars_append (scalars_append ?_
    (scalars_numberAsString _ _)) (scalars_numberAsString _ _)) (scalars_string _ _))
    (scalars_string _ _)
  refine scalars_append (scalars_append (scalars_append (scalars_append ?_
    (scalars_appleDates _ _)) (scalars_appleDates _ _)) (scalars_appleDates _ _))
    (scalars_appleDates _ _)
  exact scalars_append (scalars_append (scalars_append (scalars_numberAsString _ _)
    (scalars_string _ _)) (scalars_string _ _)) (scalars_string _ _)

theorem scalars_receiptFields (receipt : ReceiptPayload) (now : Int) :
    Scalars (EndpointResponse.receiptFields rendering receipt now) := by
  unfold EndpointResponse.receiptFields
  refine scalars_append (scalars_append (scalars_append (scalars_append (scalars_append ?_
    (scalars_appleDates _ _)) (scalars_appleDates _ _)) (scalars_appleDates _ _))
    (scalars_appleDates _ _)) (scalars_appleDates _ _)
  refine scalars_append (scalars_append (scalars_append ?_ (scalars_objectField _ _))
    (scalars_number _ _)) (scalars_string _ _)
  exact scalars_append (scalars_append (scalars_append (scalars_append (scalars_string _ _)
    (scalars_number _ _)) (scalars_number _ _)) (scalars_string _ _)) (scalars_string _ _)

/-! ## Receipts -/

theorem sameValue_purchase (purchase : InAppPurchase) :
    SameValue (purchaseValue rendering purchase) (writePurchase rendering purchase) := by
  have nodup := nodup_purchaseFields rendering purchase
  exact .perm (perm_insertAll _ [] nodup) (.self nodup (scalars_purchaseFields purchase))

theorem sameValue_receipt (same : SameDates jiff rendering) {receipt : ReceiptPayload} {now : Int}
    (h : PayloadRenders receipt) (clock : renders now = true) :
    ∃ rust, receiptJson jiff receipt now = some rust ∧
      SameValue rust (writeReceipt rendering receipt now) := by
  refine ⟨_, receiptJson_eq same h clock, ?_⟩
  have nodup := nodup_receiptFields rendering receipt now
  obtain ⟨own, -, apart⟩ := List.nodup_append.mp nodup
  have fresh : "in_app" ∉ (EndpointResponse.receiptFields rendering receipt now).map Prod.fst :=
    fun mem => apart _ mem _ (List.mem_singleton_self _) rfl
  refine .perm (perm_insertAll _ [] ?_) ?_
  · rw [List.nil_append, List.map_append]
    exact nodup
  · refine .snoc (.self own (scalars_receiptFields receipt now)) fresh ?_
    exact .map fun purchase _ => sameValue_purchase purchase

end

/-! ## The size of a request -/

section

open Utf8Length

theorem getBytesLength_cons {unit : UInt16} (rest : List UInt16)
    (scalar : unit.toNat < 0xd800 ∨ 0xe000 ≤ unit.toNat) :
    getBytesLength (unit :: rest) =
      (if unit.toNat < 0x80 then 1 else if unit.toNat < 0x800 then 2 else 3) +
        getBytesLength rest := by
  cases rest with
  | nil =>
    unfold getBytesLength
    split_ifs <;> simp
  | cons low rest =>
    rw [getBytesLength]
    split_ifs <;> rfl

theorem getBytesLength_pair {unit low : UInt16} (rest : List UInt16)
    (high : 0xd800 ≤ unit.toNat ∧ unit.toNat < 0xdc00)
    (paired : 0xdc00 ≤ low.toNat ∧ low.toNat < 0xe000) :
    getBytesLength (unit :: low :: rest) = 4 + getBytesLength rest := by
  rw [getBytesLength, if_neg (by omega), if_neg (by omega), if_neg (by omega), if_pos (by omega)]

theorem length_utf8EncodeChar (c : Char) : (String.utf8EncodeChar c).length =
    if c.toNat < 0x80 then 1 else if c.toNat < 0x800 then 2
    else if c.toNat < 0x10000 then 3 else 4 := by
  rw [String.length_utf8EncodeChar, Char.utf8Size]
  simp only [UInt32.le_iff_toNat_le, Char.toNat]
  split_ifs <;> simp_all <;> omega

theorem getBytesLength_encodeChar (c : Char) (rest : List UInt16) :
    getBytesLength (Utf16.encodeChar c ++ rest) =
      (String.utf8EncodeChar c).length + getBytesLength rest := by
  have bounds := Utf16.toNat_bounds c
  rw [length_utf8EncodeChar]
  unfold Utf16.encodeChar
  split
  next one =>
    have unit := Utf16.toNat_unit one
    rw [List.singleton_append, getBytesLength_cons rest (by rw [unit]; omega), unit]
  next pair =>
    have high := @Utf16.toNat_unit (0xd800 + (c.toNat - 0x10000) / 0x400) (by omega)
    have low := @Utf16.toNat_unit (0xdc00 + (c.toNat - 0x10000) % 0x400) (by omega)
    rw [List.cons_append, List.singleton_append,
      getBytesLength_pair rest (by rw [high]; omega) (by rw [low]; omega), if_neg (by omega),
      if_neg (by omega)]

theorem getBytesLength_units (text : String) :
    getBytesLength (units text) = (utf8 text).length := by
  unfold units Utf16.encode utf8
  induction text.toList with
  | nil => rfl
  | cons c chars ih =>
    rw [List.flatMap_cons, List.flatMap_cons, getBytesLength_encodeChar, ih, List.length_append]

theorem length_units_le (text : String) : (units text).length ≤ (utf8 text).length := by
  unfold units Utf16.encode utf8
  induction text.toList with
  | nil => exact Nat.le_refl 0
  | cons c chars ih =>
    have own : (Utf16.encodeChar c).length ≤ (String.utf8EncodeChar c).length := by
      rw [length_utf8EncodeChar, Utf16.encodeChar]
      split_ifs <;> simp only [List.length_cons, List.length_nil] <;> omega
    rw [List.flatMap_cons, List.flatMap_cons, List.length_append, List.length_append]
    omega

/-- Java counts the bytes Rust is given. -/
theorem exceeds_units (text : String) (limit : Nat) :
    exceeds (units text) limit = decide (limit < (utf8 text).length) := by
  have shorter := length_units_le text
  rw [exceeds, getBytesLength_units, ← Bool.decide_or]
  congr 1
  rw [eq_iff_iff]
  omega

end

/-! ## Which `receipt-data` counts -/

/-- A request that starts with an object, as the two parsers read it. -/
structure RequestReads (serde : SerdeJson) (reader : Endpoint.Reader) (request raw : String)
    (members : List (List UInt16 × Doc)) : Prop where
  object : serde.leadingObject request = rawMembers members
  values : Doc.MembersReadBy serde members
  tokens : reader (units request) = some (Doc.object raw members).tokens

/-- The text of the last `receipt-data`, when it is a string. -/
def lastReceiptData (members : List (List UInt16 × Doc)) : Option (List UInt16) :=
  (lastOf (units "receipt-data") members).bind Doc.text

theorem read_receiptDataField (raw : String) (members : List (List UInt16 × Doc)) :
    JwsCore.read Endpoint.receiptDataField none ⟨none, (Doc.object raw members).tokens⟩ =
      some (lastReceiptData members, onLast (.object raw members) []) := by
  have visits : Visits Endpoint.receiptDataField (fun cell name doc =>
      if name = units "receipt-data" then doc.text else cell) := by
    intro cell name doc rest
    refine ⟨onFirst doc rest, ?_, skipChildren_onFirst doc rest⟩
    rw [Endpoint.receiptDataField, onFirst, stringOf_first]
  have start : (JsonParser.nextToken ⟨none, (Doc.object raw members).tokens⟩) =
      onFirst (.object raw members) [] := by
    simp [JsonParser.nextToken, Doc.tokens, onFirst]
  have object : (onFirst (.object raw members) []).current = some .startObject := rfl
  unfold JwsCore.read
  dsimp only
  rw [start, if_pos object, members_eq_foldl visits, foldl_lastOf, lastReceiptData]
  cases lastOf (units "receipt-data") members <;> rfl

section

variable {serde : SerdeJson} {reader : Endpoint.Reader} {request raw : String}
  {members : List (List UInt16 × Doc)}

/-- Rust finds the last `receipt-data` when it decodes every name, and the text. -/
theorem requestData_eq (reads : RequestReads serde reader request raw members) :
    requestData serde (utf8 request) =
      if NamesDecode members then (lastReceiptData members).bind decodes else none := by
  unfold requestData topLevelMembers
  rw [fromUtf8_utf8, Option.bind_some, reads.object]
  split
  next decode =>
    obtain ⟨raws, list, looked⟩ := foldl_insert_rawMembers "receipt-data" members ∅ decode
    rw [list, Option.map_some, Option.bind_some, ReceiptVerifier.string, membersOf, looked,
      Std.ExtTreeMap.getElem?_empty, Option.or_none, lastReceiptData]
    cases last : lastOf (units "receipt-data") members with
    | none => rfl
    | some doc =>
      obtain ⟨_, as⟩ := readsAs_raw (readBy_lastOf reads.values last)
      exact as.string
  next undecoded =>
    rw [rawMembers_of_not_decode undecoded]
    rfl

/-- Java finds the last `receipt-data`, whatever the names. -/
theorem java_receiptData (reads : RequestReads serde reader request raw members)
    (capped : (utf8 request).length ≤ maxRequestBytes) {text : List UInt16}
    (last : lastReceiptData members = some text) :
    Endpoint.receiptData reader (some (units request)) = .ok text := by
  have within : Utf8Length.exceeds (units request) Endpoint.maxRequestBytes = false := by
    rw [exceeds_units, decide_eq_false_iff_not]
    exact Nat.not_lt.mpr capped
  simp only [Endpoint.receiptData, within, reads.tokens, read_receiptDataField, last,
    Bool.false_eq_true, if_false]

/-- What Java answers where Rust finds nothing. -/
theorem java_receiptData_none (reads : RequestReads serde reader request raw members)
    (h : maxRequestBytes < (utf8 request).length ∨ lastReceiptData members = none) :
    ∃ failure, Endpoint.receiptData reader (some (units request)) = .error failure ∧
      Endpoint.status failure.reason = AppleStatus.malformedReceiptData := by
  unfold Endpoint.receiptData
  dsimp only
  split
  · exact ⟨_, rfl, rfl⟩
  next within =>
    rw [exceeds_units, decide_eq_true_eq] at within
    rw [reads.tokens]
    dsimp only
    rw [read_receiptDataField, h.resolve_left within]
    exact ⟨_, rfl, rfl⟩

end

/-! ## Statuses -/

theorem java_status (reason : Reason) : Endpoint.status reason = status reason := by
  cases reason <;> rfl

/-- The two ladders of a receipt that verifies. -/
theorem receiptStatus_eq (environment : Environment) (payload : ReceiptPayload) :
    Endpoint.receiptStatus environment payload =
      if routingStatus environment payload = AppleStatus.ok ∧ 17 ∈ payload.unknownAttributes then
        AppleStatus.internalDataAccessError
      else routingStatus environment payload := by
  have raw : payload.unknownAttributes.contains attrInApp =
      decide (17 ∈ payload.unknownAttributes) := by
    rw [Bool.eq_iff_iff, decide_eq_true_eq, Std.ExtTreeMap.contains_iff_mem]
    rfl
  unfold Endpoint.receiptStatus routingStatus
  rw [raw]
  cases environment <;> cases payload.environment == some .production <;>
    by_cases mem : 17 ∈ payload.unknownAttributes <;> simp [mem, AppleStatus.ok,
      AppleStatus.sandboxReceiptOnProduction, AppleStatus.productionReceiptOnSandbox]

/-! ## The answers -/

/-- `respond` over a verification that is given, with the clock it leaves. -/
def respondWith (jiff : Jiff) (json : SerdeJson)
    (verify : String → Except Failure ReceiptPayload × Clock) (environment : Environment)
    (request : Bytes) : String :=
  match receiptData json request with
  | .error failure => statusOnly (status failure.reason)
  | .ok data =>
    match verify data with
    | (.ok payload, clock) => (respondVerified jiff environment payload clock).1
    | (.error failure, _) => statusOnly (status failure.reason)

/-- The endpoint is this at its own verification. -/
theorem value_respond_eq_respondWith (ssl : Openssl.OpenSsl) (jiff : Jiff) (base64 : Base64)
    (json : SerdeJson) (environment : Environment) (request : Bytes) (anchors : List TrustAnchor)
    (clock : Clock) :
    (respond ssl jiff base64 json environment request anchors clock).value.1 =
      respondWith jiff json
        (fun data => (verifyReceipt ssl jiff base64 (utf8 data) anchors clock).value) environment
        request := by
  unfold respond respondWith
  cases receiptData json request with
  | error failure => rfl
  | ok data =>
    simp only [Traced.value_bind]
    rcases (verifyReceipt ssl jiff base64 (utf8 data) anchors clock).value with ⟨_ | _, _⟩ <;> rfl

/-- A text is that of a value equal to the other port's. -/
def SameAnswers (text : String) (java : JsonValue) : Prop :=
  ∃ rust : JsonValue, text = rust.display ∧ SameValue rust java

/-- The names of an answer's fields, quoted, and what stands before their values. -/
theorem quoted_fields :
    (displayString "status" = "\"status\"" ∧
      displayString "environment" = "\"environment\"" ∧
      displayString "receipt" = "\"receipt\"") ∧
    "\x7b\"status\":" = "\x7b" ++ ("\"status\"" ++ ":") ∧
    ",\"environment\":" = "," ++ ("\"environment\"" ++ ":") ∧
    ",\"receipt\":" = "," ++ ("\"receipt\"" ++ ":") := by
  decide +kernel

theorem statusOnly_eq_display (n : Int) :
    statusOnly n = (EndpointResponse.statusOnly n).display := by
  obtain ⟨⟨name, -, -⟩, front, -, -⟩ := quoted_fields
  simp only [statusOnly, EndpointResponse.statusOnly, JsonValue.display, JsonValue.displayMembers,
    name, front, String.append_assoc]

theorem sameAnswers_statusOnly (n : Int) :
    SameAnswers (statusOnly n) (EndpointResponse.statusOnly n) := by
  refine ⟨EndpointResponse.statusOnly n, statusOnly_eq_display n, .self (by simp) ?_⟩
  exact List.forall_mem_singleton.mpr (.number n)

theorem okResponse_eq_display (environment : Environment) (receipt : JsonValue) :
    okResponse environment receipt = (JsonValue.object [("status", .number AppleStatus.ok),
      ("environment", .string environment.asStr), ("receipt", receipt)]).display := by
  obtain ⟨names, front, middle, back⟩ := quoted_fields
  delta okResponse
  simp only [JsonValue.display, JsonValue.displayMembers, names, front, middle, back,
    String.append_assoc]

theorem sameAnswers_render {environment : Environment} {receipt java : JsonValue}
    (h : SameValue receipt java) :
    SameAnswers (okResponse environment receipt) (.object [("status", .number AppleStatus.ok),
      ("environment", .string environment.asStr), ("receipt", java)]) := by
  refine ⟨_, okResponse_eq_display environment receipt, ?_⟩
  have front : SameValue
      (.object [("status", .number AppleStatus.ok), ("environment", .string environment.asStr)])
      (.object [("status", .number AppleStatus.ok), ("environment", .string environment.asStr)]) :=
    .self (by simp)
      (List.forall_mem_cons.mpr ⟨.number _, List.forall_mem_singleton.mpr (.string _)⟩)
  exact front.snoc (by simp) h

/-- A receipt that verifies is answered alike. -/
theorem sameAnswers_verified (same : SameDates jiff rendering) {environment : Environment}
    {payload : ReceiptPayload} {clock : Clock} {now : Int} (h : PayloadRenders payload)
    (given : clock.instant = some now) (shown : renders now = true) :
    SameAnswers (respondVerified jiff environment payload clock).1
      (EndpointResponse.render rendering (Endpoint.receiptStatus environment payload) environment
        (some payload) now) := by
  rw [receiptStatus_eq]
  by_cases routed : Routed environment payload
  · have ok := routingStatus_ok_iff.mpr routed
    by_cases raw : 17 ∈ payload.unknownAttributes
    · rw [respondVerified_undecoded routed raw, if_pos ⟨ok, raw⟩]
      exact sameAnswers_statusOnly _
    · obtain ⟨_, read, -⟩ := Clock.now_of_instant given
      obtain ⟨rust, made, value⟩ := sameValue_receipt same h shown
      rw [respondVerified_routed routed raw, read, if_neg (fun both => raw both.2), ok]
      dsimp only
      rw [render, made]
      exact sameAnswers_render value
  · have other : routingStatus environment payload ≠ AppleStatus.ok :=
      fun ok => routed (routingStatus_ok_iff.mp ok)
    rw [respondVerified_misrouted routed, if_neg (fun both => other both.1),
      ← routingStatus_of_not_routed routed]
    have refused : EndpointResponse.render rendering (routingStatus environment payload) environment
        (some payload) now = EndpointResponse.statusOnly (routingStatus environment payload) :=
      if_pos other
    rw [refused]
    exact sameAnswers_statusOnly _

/-- A verification of receipts the two ports share. -/
structure SharedVerification (verify : List UInt16 → Except Failure ReceiptPayload) : Prop where
  /-- A payload has dates the grammar of receipt dates accepts. -/
  dates : ∀ {text payload}, verify text = .ok payload → PayloadRenders payload
  /-- A lone surrogate is no base64. -/
  surrogate : ∀ {text}, decodes text = none → ∃ failure, verify text = .error failure ∧
    status failure.reason = AppleStatus.malformedReceiptData

section

variable {serde : SerdeJson} {reader : Endpoint.Reader} {request raw : String}
  {members : List (List UInt16 × Doc)} {environment : Environment}
  {rust : String → Except Failure ReceiptPayload × Clock}
  {java : List UInt16 → Except Failure ReceiptPayload} {now : Int}

/-- Rust's answer where it finds no `receipt-data`. -/
theorem respondWith_none (h : maxRequestBytes < (utf8 request).length ∨
    requestData serde (utf8 request) = none) :
    respondWith jiff serde rust environment (utf8 request) =
      statusOnly AppleStatus.malformedReceiptData := by
  obtain ⟨failure, read, same⟩ := receiptData_of_no_data h
  rw [respondWith, read, ← same]

/-- Java's answer for a failure. -/
theorem respond_error {failure : Failure} (h : (Endpoint.receiptData reader
    (some (units request))).bind java = .error failure) :
    Endpoint.respond reader rendering java environment (some (units request)) now =
      EndpointResponse.statusOnly (status failure.reason) := by
  rw [Endpoint.respond, h]
  dsimp only
  rw [java_status]
  rfl

/-- Java's answer where it finds no `receipt-data`. -/
theorem respond_none (reads : RequestReads serde reader request raw members)
    (h : maxRequestBytes < (utf8 request).length ∨ lastReceiptData members = none) :
    Endpoint.respond reader rendering java environment (some (units request)) now =
      EndpointResponse.statusOnly AppleStatus.malformedReceiptData := by
  obtain ⟨failure, read, same⟩ := java_receiptData_none reads h
  rw [← same, java_status]
  exact respond_error (by rw [read]; rfl)

/-- The two answers for a receipt text of both ports. -/
theorem sameAnswers_of_data (same : SameDates jiff rendering) (shared : SharedVerification java)
    (agree : ∀ data, (rust data).1 = java (units data))
    (clock : ∀ data payload, (rust data).1 = .ok payload → (rust data).2.instant = some now)
    (shown : renders now = true) {data : String}
    (found : receiptData serde (utf8 request) = .ok data)
    (found' : Endpoint.receiptData reader (some (units request)) = .ok (units data)) :
    SameAnswers (respondWith jiff serde rust environment (utf8 request))
      (Endpoint.respond reader rendering java environment (some (units request)) now) := by
  have verdict := agree data
  have instant := clock data
  rw [respondWith, found]
  dsimp only
  cases verified : java (units data) with
  | error failure =>
    rw [verified] at verdict
    rw [respond_error (by rw [found']; exact verified)]
    generalize rust data = answer at verdict ⊢
    obtain ⟨_, _⟩ := answer
    subst verdict
    exact sameAnswers_statusOnly _
  | ok payload =>
    rw [verified] at verdict
    have instant := instant payload verdict
    have bound : (Endpoint.receiptData reader (some (units request))).bind java = .ok payload := by
      rw [found']
      exact verified
    rw [Endpoint.respond, bound]
    generalize rust data = answer at verdict instant ⊢
    obtain ⟨_, _⟩ := answer
    subst verdict
    exact sameAnswers_verified same (shared.dates verified) instant shown

/-- The two answers for a request whose names both ports read. -/
theorem sameAnswers_request (same : SameDates jiff rendering) (shared : SharedVerification java)
    (agree : ∀ data, (rust data).1 = java (units data))
    (clock : ∀ data payload, (rust data).1 = .ok payload → (rust data).2.instant = some now)
    (shown : renders now = true) (reads : RequestReads serde reader request raw members)
    (decode : NamesDecode members) :
    SameAnswers (respondWith jiff serde rust environment (utf8 request))
      (Endpoint.respond reader rendering java environment (some (units request)) now) := by
  have data := requestData_eq reads
  rw [if_pos decode] at data
  by_cases large : maxRequestBytes < (utf8 request).length
  · rw [respondWith_none (.inl large), respond_none reads (.inl large)]
    exact sameAnswers_statusOnly _
  cases last : lastReceiptData members with
  | none =>
    rw [last] at data
    rw [respondWith_none (.inr data), respond_none reads (.inr last)]
    exact sameAnswers_statusOnly _
  | some text =>
    rw [last, Option.bind_some] at data
    have found' := java_receiptData reads (Nat.not_lt.mp large) last
    cases decoded : decodes text with
    | none =>
      -- a text that is no Unicode: Rust refuses it here, Java as base64
      obtain ⟨failure, refused, status⟩ := shared.surrogate decoded
      rw [respondWith_none (.inr (data.trans decoded)),
        respond_error (by rw [found']; exact refused), status]
      exact sameAnswers_statusOnly _
    | some own =>
      obtain rfl := decodes_eq_some_iff.mp decoded
      have found := receiptData_of_requestData (Nat.not_lt.mp large) (data.trans decoded)
      exact sameAnswers_of_data same shared agree clock shown found found'

/-- The endpoint itself, beside a Java verification that has its verdicts: every payload it returns
has dates that render. -/
theorem respond_agrees {ssl : Openssl.OpenSsl} {base64 : Base64} {anchors : List TrustAnchor}
    {clock : Clock} (environment : Environment) (same : SameDates jiff rendering)
    (agree : ∀ data, (verifyReceipt ssl jiff base64 (utf8 data) anchors clock).value.1 =
      java (units data))
    (surrogate : ∀ {text}, decodes text = none → ∃ failure, java text = .error failure ∧
      status failure.reason = AppleStatus.malformedReceiptData)
    (given : clock.instant = some now) (shown : renders now = true)
    (reads : RequestReads serde reader request raw members) (decode : NamesDecode members) :
    SameAnswers (respond ssl jiff base64 serde environment (utf8 request) anchors clock).value.1
      (Endpoint.respond reader rendering java environment (some (units request)) now) := by
  have shared : SharedVerification java := by
    refine ⟨?_, surrogate⟩
    intro text payload verified
    cases decoded : decodes text with
    | none =>
      obtain ⟨_, refused, -⟩ := surrogate decoded
      cases refused.symm.trans verified
    | some data =>
      obtain rfl := decodes_eq_some_iff.mp decoded
      obtain ⟨_, attributes, -, -, rfl, -⟩ := verifyReceipt_ok ((agree data).trans verified)
      exact payloadRenders_parseReceiptPayload attributes
  rw [value_respond_eq_respondWith]
  refine sameAnswers_request same shared agree ?_ shown reads decode
  intro data payload verified
  obtain ⟨_, _, -, -, -, kept⟩ := verifyReceipt_ok verified
  exact kept.trans given

/-- **The two endpoints answer the same JSON value** for every request whose member names hold no
lone surrogate: the same `receipt-data` counts, the statuses are equal, and the receipt and every
purchase have the same members, none of them twice. A request with such a name Rust refuses. -/
theorem endpoints_agree (environment : Environment) (same : SameDates jiff rendering)
    (shared : SharedVerification java) (agree : ∀ data, (rust data).1 = java (units data))
    (clock : ∀ data payload, (rust data).1 = .ok payload → (rust data).2.instant = some now)
    (shown : renders now = true) (reads : RequestReads serde reader request raw members) :
    (NamesDecode members → SameAnswers (respondWith jiff serde rust environment (utf8 request))
      (Endpoint.respond reader rendering java environment (some (units request)) now)) ∧
    (¬ NamesDecode members → respondWith jiff serde rust environment (utf8 request) =
      statusOnly AppleStatus.malformedReceiptData) := by
  constructor
  · exact sameAnswers_request same shared agree clock shown reads
  · intro undecoded
    have data := requestData_eq reads
    rw [if_neg undecoded] at data
    exact respondWith_none (.inr data)

end

namespace Java.Endpoint.Sample

/-- The texts `jiff` renders. -/
def texts (jiff : Jiff) : Rendering where
  gmt millis := (formatEtcGmt jiff millis).getD ""
  pacific millis := (formatPacific jiff millis).getD ""

theorem sameDates (jiff : Jiff) : SameDates jiff (texts jiff) := by
  intro millis shown
  obtain ⟨gmt, own⟩ := Option.isSome_iff_exists.mp
    ((formatEtcGmt_isSome_iff : (formatEtcGmt jiff millis).isSome = true ↔ _).mpr shown)
  obtain ⟨pacific, own'⟩ := Option.isSome_iff_exists.mp (@formatPacific_isSome jiff millis shown)
  simp [texts, own, own']

/-- A receipt with a purchase that has no `web_order_line_item_id` to show. -/
def oneTime : ReceiptPayload where
  receiptType := some "Production"
  receiptCreationDateMs := some 0
  inApp := [{ quantity := some 1, purchaseDateMs := some 0, webOrderLineItemId := some 0 }]

/-- Every Unicode text verifies to one payload. -/
def verify (text : List UInt16) : Except Failure ReceiptPayload :=
  if (decodes text).isSome then .ok oneTime else .error (malformed "receipt is not base64")

theorem shared : SharedVerification verify where
  dates := by
    intro text payload' verified
    unfold verify at verified
    split at verified
    · cases verified
      constructor <;> simp only [DatesRender, oneTime, ReceiptPayload.dates, InAppPurchase.dates,
        List.forall_mem_cons] <;> decide
    · cases verified
  surrogate := by
    intro text lone
    exact ⟨_, by rw [verify, lone]; rfl, rfl⟩

def rust (data : String) : Except Failure ReceiptPayload × Clock :=
  (verify (units data), .new fun _ => some 0)

def dataRaw : String := "\"r\""

/-- `receipt-data` as a number and then as a string. -/
def repeated : List (List UInt16 × Doc) :=
  [(units "receipt-data", .number "1"), (units "receipt-data", .string dataRaw (units "r"))]

def repeatedRequest : String := "\x7b\"receipt-data\":1,\"receipt-data\":\"r\"\x7d"

/-- The escape `\ud800`, which no low surrogate follows, as a name. -/
def lone : List (List UInt16 × Doc) :=
  [([0xd800], .number "1"), (units "receipt-data", .string dataRaw (units "r"))]

def loneRequest : String := "\x7b\"\\ud800\":1,\"receipt-data\":\"r\"\x7d"

/-- `serde_json` on these texts. -/
def serde : SerdeJson where
  wholeObject _ := none
  leadingObject text := if text = repeatedRequest then
      some [("receipt-data", "1"), ("receipt-data", dataRaw)]
    else none
  value _ := .error "expected value"
  string text := if text = dataRaw then some "r" else none
  strings _ := none
  double _ := none

/-- Jackson on these texts. -/
def reader : Reader := fun text =>
  if text = units repeatedRequest then some (Doc.object repeatedRequest repeated).tokens
  else if text = units loneRequest then some (Doc.object loneRequest lone).tokens
  else none

/-- What `serde_json` and Jackson make of the texts. -/
theorem texts_read :
    ((ReadsAs serde "1" none none true ∧ trim "1".toList = "1".toList) ∧
      ReadsAs serde dataRaw none (decodes (units "r")) false) ∧
    (serde.leadingObject repeatedRequest = rawMembers repeated ∧
      serde.leadingObject loneRequest = rawMembers lone) ∧
    units loneRequest ≠ units repeatedRequest := by
  refine ⟨⟨⟨⟨?_, ?_, ?_⟩, ?_⟩, ?_, ?_, ?_⟩, ⟨?_, ?_⟩, ?_⟩ <;> decide +kernel

theorem membersReadBy (name name' : List UInt16) : Doc.MembersReadBy serde
    [(name, .number "1"), (name', .string dataRaw (units "r"))] := by
  rw [Doc.MembersReadBy, Doc.MembersReadBy, Doc.MembersReadBy, Doc.ReadBy, Doc.ReadBy]
  obtain ⟨⟨one, data⟩, -⟩ := texts_read
  exact ⟨one, data, trivial⟩

theorem reads_repeated : RequestReads serde reader repeatedRequest repeatedRequest repeated where
  object := texts_read.2.1.1
  values := membersReadBy _ _
  tokens := if_pos rfl

theorem reads_lone : RequestReads serde reader loneRequest loneRequest lone where
  object := texts_read.2.1.2
  values := membersReadBy _ _
  tokens := by rw [reader, if_neg texts_read.2.2, if_pos rfl]

/-- Rust's answer to a request for production. -/
def rustAnswer (request : String) : String :=
  respondWith .gregorian serde rust .production (utf8 request)

/-- Java's answer to it. -/
def javaAnswer (request : String) : JsonValue :=
  respond reader (texts .gregorian) verify .production (some (units request)) 0

end Java.Endpoint.Sample

open Java.Endpoint in
/-- The last of two `receipt-data` counts, in both ports. -/
theorem endpoints_agree_repeated :
    NamesDecode Sample.repeated ∧ SameAnswers (Sample.rustAnswer Sample.repeatedRequest)
      (Sample.javaAnswer Sample.repeatedRequest) := by
  have decode : NamesDecode Sample.repeated := by decide +kernel
  exact ⟨decode, (endpoints_agree .production (Sample.sameDates .gregorian) Sample.shared
    (fun _ => rfl) (fun _ _ _ => rfl) (by decide) Sample.reads_repeated).1 decode⟩

open Java.Endpoint in
/-- A lone surrogate in a name: Rust answers 21002, and Java reads on and answers 0. -/
theorem endpoints_differ_lone :
    SameDates .gregorian (Sample.texts .gregorian) ∧ SharedVerification Sample.verify ∧
    RequestReads Sample.serde Sample.reader Sample.loneRequest Sample.loneRequest Sample.lone ∧
    Sample.rustAnswer Sample.loneRequest = (EndpointResponse.statusOnly 21002).display ∧
    ¬ SameValue (EndpointResponse.statusOnly 21002) (Sample.javaAnswer Sample.loneRequest) := by
  refine ⟨Sample.sameDates _, Sample.shared, Sample.reads_lone, ?_, ?_⟩
  · have none : requestData Sample.serde (utf8 Sample.loneRequest) = none := by
      rw [requestData_eq Sample.reads_lone, if_neg (by decide +kernel)]
    exact (respondWith_none (.inr none)).trans (statusOnly_eq_display _)
  · have data := java_receiptData Sample.reads_lone (by decide +kernel)
      (show lastReceiptData Sample.lone = some (units "r") from rfl)
    have ok : receiptStatus .production Sample.oneTime = AppleStatus.ok := by decide +kernel
    rw [Sample.javaAnswer, Endpoint.respond, data]
    change ¬ SameValue _ (EndpointResponse.render _ (receiptStatus .production Sample.oneTime) _
      (some Sample.oneTime) _)
    rw [ok]
    intro same
    cases same with
    | object nodup nodup' names values =>
      have environment := (names "environment").mpr (by simp)
      simp at environment

end ReceiptVerifier
