import ReceiptVerifier.Endpoint
import ReceiptVerifier.Verify.Envelope
import ReceiptVerifier.Verify.Payload

/-!
# The endpoint answers what the receipt verifies to

A status-0 answer needs a request within the cap that carries a receipt, a receipt that verifies,
the environment it is asked for, every purchase decoded and a clock the dates render; the first of
these that fails gives the status. Every date a receipt can carry renders (`renders_of_date`), so
only the clock can fail the rendering.
-/

namespace ReceiptVerifier

open Openssl

variable {ssl : OpenSsl} {jiff : Jiff}

/-! ## Dates render -/

theorem formatCivil_isSome {millis offset : Int} {label : String} (h : renders millis = true)
    (early : millis / 1000 ≤ timestampMaxSecond →
      -offsetMaxSeconds ≤ offset ∧ offset ≤ offsetMaxSeconds)
    (late : timestampMaxSecond < millis / 1000 → -offsetMaxSeconds ≤ offset ∧ offset ≤ 0) :
    (formatCivil jiff millis offset label).isSome = true := by
  simp only [renders, Bool.and_eq_true, decide_eq_true_eq] at h
  unfold formatCivil
  have civil : isOffset (offset + (millis / 1000 - min (millis / 1000) timestampMaxSecond)) &&
      isTimestamp (min (millis / 1000) timestampMaxSecond) := by
    simp only [isOffset, isTimestamp, Bool.and_eq_true, decide_eq_true_eq]
    simp only [timestampMinSecond, timestampMaxSecond, offsetMaxSeconds, lastMillis] at *
    omega
  simp only [civil, if_true, Option.isSome_some]

theorem formatEtcGmt_isSome_iff {millis : Int} :
    (formatEtcGmt jiff millis).isSome = true ↔ renders millis = true := by
  unfold formatEtcGmt
  cases h : renders millis with
  | false => simp
  | true =>
    simp only [Bool.not_true, Bool.false_eq_true, if_false, iff_true]
    exact formatCivil_isSome h (fun _ => by decide) (fun _ => by decide)

theorem formatPacific_isSome {millis : Int} (h : renders millis = true) :
    (formatPacific jiff millis).isSome = true := by
  have bounds := h
  simp only [renders, Bool.and_eq_true, decide_eq_true_eq] at bounds
  have timestamp : isTimestamp (min (millis / 1000) timestampMaxSecond) = true := by
    simp only [isTimestamp, Bool.and_eq_true, decide_eq_true_eq]
    simp only [timestampMinSecond, timestampMaxSecond, lastMillis] at *
    omega
  rw [formatPacific, pacificOffsetSeconds, h]
  simp only [timestamp, Bool.not_true, Bool.false_eq_true, if_false, if_true, Option.bind_some]
  apply formatCivil_isSome h
  · intro _
    exact jiff.pacificOffset_bound _
  · intro late
    -- the zone is at PST where the offset carries the seconds past the last timestamp
    rw [Int.min_eq_right (Int.le_of_lt late), jiff.pacificOffset_max]
    decide

theorem appleDates_isSome_iff {json : JsonMap} {name : String} {millis : Option Int} :
    (appleDates jiff json name millis).isSome = true ↔ ∀ m ∈ millis, renders m = true := by
  cases millis with
  | none => simp [appleDates]
  | some m =>
    have gmt := @formatEtcGmt_isSome_iff jiff m
    rw [appleDates]
    simp only [Option.mem_def, Option.some.injEq, forall_eq']
    cases rendered : formatEtcGmt jiff m with
    | none => simpa [rendered] using gmt
    | some text =>
      have own : renders m = true := gmt.mp (by rw [rendered]; rfl)
      obtain ⟨pacific, same⟩ := Option.isSome_iff_exists.mp (@formatPacific_isSome jiff m own)
      simp [same, own]

/-- Every instant a receipt date names renders. -/
theorem renders_of_parseReceiptDate {text : String} {millis : Int}
    (h : parseReceiptDate jiff text = some millis) : renders millis = true := by
  unfold parseReceiptDate at h
  split at h
  · split at h
    · simp only [Option.bind_eq_bind, Option.bind_eq_some_iff] at h
      obtain ⟨read, -, offset, -, second, -, h⟩ := h
      split at h
      · cases h
      simp only [Option.bind_eq_some_iff] at h
      obtain ⟨year, -, month, -, day, -, h⟩ := h
      split at h
      · cases h
      simp only [Option.bind_eq_some_iff] at h
      obtain ⟨hour, -, minute, -, h⟩ := h
      split at h
      · cases h
      split at h
      next within =>
        cases h
        simp only [renders, Bool.and_eq_true, decide_eq_true_eq]
        simp only [firstMillis, timestampMinSecond] at within ⊢
        omega
      · cases h
    · cases h
  · cases h

theorem renders_of_firstDate {first : Nat → Option Bytes} {t : Nat} :
    ∀ m ∈ firstDate ssl jiff first t, renders m = true := by
  intro m mem
  unfold firstDate at mem
  obtain ⟨v, -, read⟩ := Option.bind_eq_some_iff.mp mem
  have read : date ssl jiff v = some (some m) := Option.join_eq_some_iff.mp read
  unfold date at read
  split at read
  · cases read
  · split at read
    · cases read
    · obtain ⟨m', parsed, same⟩ := Option.map_eq_some_iff.mp read
      cases same
      exact renders_of_parseReceiptDate parsed

/-! ## The receipt object -/

theorem appleDates_bind_isSome {json : JsonMap} {name : String} {millis : Option Int}
    {next : JsonMap → Option JsonValue} (h : ∀ m ∈ millis, renders m = true)
    (rest : ∀ json', (next json').isSome = true) :
    (appleDates jiff json name millis >>= next).isSome = true := by
  obtain ⟨json', rendered⟩ := Option.isSome_iff_exists.mp
    (appleDates_isSome_iff.mpr h : (appleDates jiff json name millis).isSome = true)
  rw [rendered]
  exact rest json'

theorem purchaseJson_isSome (attributes : List Attribute) :
    (purchaseJson jiff (inAppPurchase ssl jiff attributes)).isSome = true := by
  rw [inAppPurchase_eq_ofFirsts]
  unfold purchaseJson
  refine appleDates_bind_isSome renders_of_firstDate fun json => ?_
  refine appleDates_bind_isSome renders_of_firstDate fun json => ?_
  refine appleDates_bind_isSome renders_of_firstDate fun json => ?_
  exact appleDates_bind_isSome renders_of_firstDate fun json => rfl

theorem purchaseJson_isSome_of_parseInApp {v : Bytes} {purchase : InAppPurchase}
    (h : parseInApp ssl jiff v = some purchase) : (purchaseJson jiff purchase).isSome = true := by
  unfold parseInApp at h
  split at h
  · cases h
  · cases h
    exact purchaseJson_isSome _

theorem mapM_isSome {α β : Type} {f : α → Option β} {l : List α}
    (h : ∀ a ∈ l, (f a).isSome = true) : ∃ l', l.mapM f = some l' ∧ l.map f = l'.map some := by
  induction l with
  | nil => exact ⟨[], rfl, rfl⟩
  | cons a l ih =>
    obtain ⟨own, rest⟩ := List.forall_mem_cons.mp h
    obtain ⟨b, hb⟩ := Option.isSome_iff_exists.mp own
    obtain ⟨l', mapped, same⟩ := ih rest
    exact ⟨b :: l', by simp [List.mapM_cons, hb, mapped], by simp [hb, same]⟩

theorem inApp_mapM (attributes : List Attribute) :
    ∃ entries,
      (parseReceiptPayload ssl jiff attributes).inApp.mapM (purchaseJson jiff) = some entries ∧
      (parseReceiptPayload ssl jiff attributes).inApp.map (purchaseJson jiff) =
        entries.map some := by
  apply mapM_isSome
  rw [inApp_parseReceiptPayload]
  intro purchase mem
  obtain ⟨v, -, parsed⟩ := List.mem_filterMap.mp mem
  exact purchaseJson_isSome_of_parseInApp parsed

/-- The receipt object of a decoded payload: there when the request date renders, with the purchases
in `in_app`. -/
theorem receiptJson_some (attributes : List Attribute) {now : Int} (h : renders now = true) :
    ∃ receipt entries,
      receiptJson jiff (parseReceiptPayload ssl jiff attributes) now = some (.object receipt) ∧
      receipt.lookup "in_app" = some (.array entries) ∧
      (parseReceiptPayload ssl jiff attributes).inApp.map (purchaseJson jiff) =
        entries.map some := by
  obtain ⟨entries, mapped, same⟩ := @inApp_mapM ssl jiff attributes
  have built : (receiptJson jiff (parseReceiptPayload ssl jiff attributes) now).isSome = true := by
    rw [receiptJson, mapped, parseReceiptPayload_eq_ofFirsts]
    refine appleDates_bind_isSome renders_of_firstDate fun json => ?_
    refine appleDates_bind_isSome (by simpa using h) fun json => ?_
    refine appleDates_bind_isSome renders_of_firstDate fun json => ?_
    refine appleDates_bind_isSome renders_of_firstDate fun json => ?_
    exact appleDates_bind_isSome renders_of_firstDate fun json => rfl
  obtain ⟨value, made⟩ := Option.isSome_iff_exists.mp built
  have last := made
  simp only [receiptJson, mapped, Option.bind_eq_bind, Option.bind_some,
    Option.bind_eq_some_iff] at last
  obtain ⟨_, -, _, -, _, -, _, -, json, -, whole⟩ := last
  cases whole
  exact ⟨_, entries, made, JsonMap.lookup_insert_self json _ _, same⟩

theorem receiptJson_none {receipt : ReceiptPayload} {now : Int} (h : renders now = false) :
    receiptJson jiff receipt now = none := by
  have undated : ∀ json, appleDates jiff json "request_date" (some now) = none := by
    intro json
    rw [← Option.not_isSome_iff_eq_none, appleDates_isSome_iff]
    simp [h]
  simp only [receiptJson, undated]
  simp

/-! ## The clock after a verification -/

theorem chainInstant_instant {attributes : SignedAttributes} {clock clock' : Clock} {millis : Int}
    (h : chainInstant ssl jiff attributes clock = (.ok millis, clock')) :
    clock'.instant = clock.instant := by
  unfold chainInstant at h
  split at h
  · cases h
    rfl
  · cases given : clock.instant with
    | none =>
      have broken := Clock.now_of_no_instant given
      rw [h] at broken
      cases broken
    | some now =>
      obtain ⟨_, read, kept⟩ := Clock.now_of_instant given
      cases read.symm.trans h
      exact kept

theorem chainInstant_error {attributes : SignedAttributes} {clock clock' : Clock}
    {failure : Failure}
    (h : chainInstant ssl jiff attributes clock = (.error failure, clock')) :
    failure = clockPanicked := by
  cases given : instantOf ssl jiff attributes clock with
  | none =>
    have broken := chainInstant_none given
    rw [h] at broken
    exact Except.error.inj broken
  | some millis =>
    obtain ⟨_, taken, -⟩ := chainInstant_some given
    cases taken.symm.trans h

/-- A verification that passes leaves the clock giving what it gave: a broken clock ends it. -/
theorem instant_verifySignerInfos {cms : SignedData} {embedded : Embedded}
    {anchors : List TrustAnchor} {attributes : SignedAttributes} : ∀ (infos : List SignerInfo)
    (loop : SignerLoop),
    (verifySignerInfos ssl jiff cms embedded anchors infos loop).value.1 = .ok attributes →
    (verifySignerInfos ssl jiff cms embedded anchors infos loop).value.2.instant =
      loop.clock.instant := by
  intro infos
  induction infos with
  | nil =>
    intro loop passed
    cases passed
  | cons info infos ih =>
    intro loop passed
    rw [verifySignerInfos] at passed ⊢
    cases signers : signerCertificates ssl info embedded with
    | error failure =>
      simp only [signers] at passed ⊢
      exact ih _ passed
    | ok matched =>
      obtain ⟨first, others⟩ := matched
      simp only [signers, Traced.value_bind] at passed ⊢
      generalize loop.parsed.getD (parsePayloadAttributes ssl cms.content) = read at passed ⊢
      rcases taken : chainInstant ssl jiff read loop.clock with ⟨instant, clock⟩
      simp only [taken] at passed ⊢
      cases instant with
      | error failure =>
        rw [chainInstant_error taken] at passed
        cases passed
      | ok millis =>
        have kept := chainInstant_instant taken
        generalize (loop.verdict ssl cms embedded anchors info first others (.ok millis)).value =
          verdict at passed ⊢
        obtain ⟨verdict, authenticated⟩ := verdict
        cases verdict with
        | ok => exact kept
        | error failure =>
          dsimp only at passed ⊢
          split at passed
          · cases passed
          next input =>
            rw [if_neg input]
            exact (ih _ passed).trans kept

theorem instant_verifyEnvelope {der : Bytes} {anchors : List TrustAnchor} {clock : Clock}
    {attributes : SignedAttributes}
    (h : (verifyEnvelope ssl jiff der anchors clock).value.1 = .ok attributes) :
    (verifyEnvelope ssl jiff der anchors clock).value.2.instant = clock.instant := by
  unfold verifyEnvelope at h ⊢
  split at h
  · cases h
  · exact instant_verifySignerInfos _ _ h

/-- A receipt that verifies: the attributes its signature covers, decoded. -/
theorem verifyReceipt_ok {base64 : Base64} {text : Bytes} {anchors : List TrustAnchor}
    {clock : Clock} {payload : ReceiptPayload}
    (h : (verifyReceipt ssl jiff base64 text anchors clock).value.1 = .ok payload) :
    ∃ der attributes, decodeReceiptData base64 text = .ok der ∧
      (verifyEnvelope ssl jiff der anchors clock).value.1 = .ok (.ok attributes) ∧
      payload = parseReceiptPayload ssl jiff attributes ∧
      (verifyReceipt ssl jiff base64 text anchors clock).value.2.instant = clock.instant := by
  unfold verifyReceipt at h ⊢
  split at h
  · cases h
  next within =>
    rw [if_neg within]
    cases decoded : decodeReceiptData base64 text with
    | error failure =>
      rw [decoded] at h
      cases h
    | ok der =>
      rw [decoded] at h
      simp only [Traced.value_bind] at h ⊢
      have kept := @instant_verifyEnvelope ssl jiff der anchors clock
      rcases run : (verifyEnvelope ssl jiff der anchors clock).value with ⟨verdict, clock'⟩
      rw [run] at h kept
      cases verdict with
      | error failure => cases h
      | ok attributes =>
        cases attributes with
        | error err => cases h
        | ok attributes =>
          cases h
          exact ⟨der, attributes, rfl, by rw [run], rfl, kept rfl⟩

/-! ## Purchases -/

/-- Without a raw attribute 17 every copy of it is a purchase. -/
theorem map_parseInApp {attributes : List Attribute}
    (h : 17 ∉ (parseReceiptPayload ssl jiff attributes).unknownAttributes) :
    (valuesOf attributes attrInApp).map (parseInApp ssl jiff) =
      (parseReceiptPayload ssl jiff attributes).inApp.map some := by
  have none_raw := @unknown_inApp ssl jiff attributes
  rw [Std.ExtTreeMap.getD_eq_fallback (show attrInApp ∉ _ from h)] at none_raw
  rw [inApp_parseReceiptPayload, ← filter_isSome_map]
  congr 1
  refine (List.filter_eq_self.mpr ?_).symm
  intro v mem
  have parsed := List.filter_eq_nil_iff.mp none_raw.symm v mem
  rwa [Option.isNone_iff_eq_none, ← Option.not_isSome_iff_eq_none, not_not] at parsed

/-- One entry of `in_app` for each attribute 17, in order. -/
theorem map_purchaseJson {attributes : List Attribute} {entries : List JsonValue}
    (h : 17 ∉ (parseReceiptPayload ssl jiff attributes).unknownAttributes)
    (rendered : (parseReceiptPayload ssl jiff attributes).inApp.map (purchaseJson jiff) =
      entries.map some) :
    (valuesOf attributes attrInApp).map
        (fun v => (parseInApp ssl jiff v).bind (purchaseJson jiff)) = entries.map some := by
  have parsed := congrArg (List.map fun purchase => purchase.bind (purchaseJson jiff))
    (map_parseInApp h)
  rw [List.map_map, List.map_map] at parsed
  exact parsed.trans rendered

/-! ## Answers -/

/-- The statuses of the answers that carry nothing else. -/
def failureStatuses : List Int :=
  [AppleStatus.malformedReceiptData, AppleStatus.receiptNotAuthenticated,
    AppleStatus.sandboxReceiptOnProduction, AppleStatus.productionReceiptOnSandbox,
    AppleStatus.internalDataAccessError]

theorem status_mem (reason : Reason) : status reason ∈ failureStatuses := by
  cases reason <;> decide

/-- A status-0 answer is none of the others. -/
theorem okResponse_ne_statusOnly {environment : Environment} {receipt : JsonValue} {n : Int}
    (h : n ∈ failureStatuses) : okResponse environment receipt ≠ statusOnly n := by
  intro same
  have front : (okResponse environment receipt).toList.take 11 = "\x7b\"status\":0".toList := by
    have zero : (Int.repr 0).toList = ['0'] := by decide
    delta okResponse
    simp [AppleStatus.ok, zero]
  have differs : ∀ n ∈ failureStatuses,
      (statusOnly n).toList.take 11 ≠ "\x7b\"status\":0".toList := by decide +kernel
  exact differs n h (by rw [← same, front])

variable (ssl jiff) (base64 : Base64) (json : SerdeJson)

/-- The `receipt-data` string of the object a body starts with. -/
def requestData (request : Bytes) : Option String :=
  ((fromUtf8 request).bind (topLevelMembers json)).bind fun members =>
    string json members "receipt-data"

/-- The receipt a request asks about: its text, within the cap, and what it verifies to. -/
structure Verified (request : Bytes) (anchors : List TrustAnchor) (clock : Clock)
    (verdict : Except Failure ReceiptPayload) : Prop where
  capped : request.length ≤ maxRequestBytes
  verdict : ∃ data, requestData json request = some data ∧
    (verifyReceipt ssl jiff base64 (utf8 data) anchors clock).value.1 = verdict

/-- The asked environment is the one that is answered for the receipt: production for a receipt of
production, the sandbox for every other. -/
def Routed (environment : Environment) (payload : ReceiptPayload) : Prop :=
  environment = .production ↔ payload.environment = some .production

variable {ssl jiff base64 json}

theorem receiptData_of_requestData {request : Bytes} {data : String}
    (capped : request.length ≤ maxRequestBytes) (h : requestData json request = some data) :
    receiptData json request = .ok data := by
  unfold requestData at h
  obtain ⟨members, read, own⟩ := Option.bind_eq_some_iff.mp h
  obtain ⟨text, utf8, object⟩ := Option.bind_eq_some_iff.mp read
  rw [receiptData, if_neg (Nat.not_lt.mpr capped)]
  simp only [utf8, object, own]

theorem receiptData_of_no_data {request : Bytes}
    (h : maxRequestBytes < request.length ∨ requestData json request = none) :
    ∃ failure, receiptData json request = .error failure ∧
      status failure.reason = AppleStatus.malformedReceiptData := by
  unfold receiptData
  split
  · exact ⟨_, rfl, rfl⟩
  next capped =>
    have missing := h.resolve_left capped
    unfold requestData at missing
    cases utf8 : fromUtf8 request with
    | none => exact ⟨_, rfl, rfl⟩
    | some text =>
      rw [utf8, Option.bind_some] at missing
      dsimp only
      cases object : topLevelMembers json text with
      | none => exact ⟨_, rfl, rfl⟩
      | some members =>
        rw [object, Option.bind_some] at missing
        dsimp only
        rw [missing]
        exact ⟨_, rfl, rfl⟩

theorem routingStatus_ok_iff {environment : Environment} {payload : ReceiptPayload} :
    routingStatus environment payload = AppleStatus.ok ↔ Routed environment payload := by
  unfold routingStatus Routed
  cases environment <;> cases production : payload.environment == some .production <;>
    simp_all [AppleStatus.ok, AppleStatus.sandboxReceiptOnProduction,
      AppleStatus.productionReceiptOnSandbox]

/-- The status of a receipt that is not of the asked environment. -/
def misroutedStatus : Environment → Int
  | .production => AppleStatus.sandboxReceiptOnProduction
  | .sandbox => AppleStatus.productionReceiptOnSandbox

theorem routingStatus_of_not_routed {environment : Environment} {payload : ReceiptPayload}
    (h : ¬ Routed environment payload) :
    routingStatus environment payload = misroutedStatus environment := by
  unfold routingStatus misroutedStatus
  unfold Routed at h
  cases environment <;> cases production : payload.environment == some .production <;> simp_all

theorem value_respond (environment : Environment) {request : Bytes} {anchors : List TrustAnchor}
    {clock : Clock} {verdict : Except Failure ReceiptPayload}
    (h : Verified ssl jiff base64 json request anchors clock verdict) :
    (∀ failure, verdict = .error failure →
      (respond ssl jiff base64 json environment request anchors clock).value.1 =
        statusOnly (status failure.reason)) ∧
    (∀ payload, verdict = .ok payload → ∃ attributes clock',
      payload = parseReceiptPayload ssl jiff attributes ∧ clock'.instant = clock.instant ∧
      (∃ data der, requestData json request = some data ∧
        decodeReceiptData base64 (utf8 data) = .ok der ∧
        (verifyEnvelope ssl jiff der anchors clock).value.1 = .ok (.ok attributes)) ∧
      (respond ssl jiff base64 json environment request anchors clock).value.1 =
        (respondVerified jiff environment payload clock').1) := by
  obtain ⟨capped, data, own, verified⟩ := h
  unfold respond
  rw [receiptData_of_requestData capped own]
  simp only [Traced.value_bind]
  have passed := @verifyReceipt_ok ssl jiff base64 (utf8 data) anchors clock
  rcases run : (verifyReceipt ssl jiff base64 (utf8 data) anchors clock).value with
    ⟨verdict', clock'⟩
  rw [run] at verified passed
  subst verified
  refine ⟨?_, ?_⟩
  · rintro failure rfl
    rfl
  · rintro payload rfl
    obtain ⟨der, attributes, decoded, accepted, same, kept⟩ := passed rfl
    exact ⟨attributes, clock', same, kept, ⟨data, der, own, decoded, accepted⟩, rfl⟩

section

variable {environment : Environment} {payload : ReceiptPayload} {clock : Clock}

theorem respondVerified_misrouted (h : ¬ Routed environment payload) :
    (respondVerified jiff environment payload clock).1 =
      statusOnly (misroutedStatus environment) := by
  have refused : (misroutedStatus environment == AppleStatus.ok) = false := by
    cases environment <;> rfl
  simp only [respondVerified, routingStatus_of_not_routed h, refused, Bool.false_and,
    Bool.false_eq_true, if_false]

theorem respondVerified_undecoded (routed : Routed environment payload)
    (h : 17 ∈ payload.unknownAttributes) :
    (respondVerified jiff environment payload clock).1 =
      statusOnly AppleStatus.internalDataAccessError := by
  simp only [respondVerified, routingStatus_ok_iff.mpr routed, BEq.rfl,
    Std.ExtTreeMap.contains_iff_mem.mpr h, Bool.and_self, if_true]

/-- What is left once the receipt is routed and its purchases are decoded. -/
theorem respondVerified_routed (routed : Routed environment payload)
    (h : 17 ∉ payload.unknownAttributes) :
    (respondVerified jiff environment payload clock).1 =
      match clock.now.1 with
      | .ok now => (render jiff environment payload now).getD
          (statusOnly AppleStatus.internalDataAccessError)
      | .error failure => statusOnly (status failure.reason) := by
  have decoded : payload.unknownAttributes.contains 17 = false := by
    rwa [← Bool.not_eq_true, Std.ExtTreeMap.contains_iff_mem]
  simp only [respondVerified, routingStatus_ok_iff.mpr routed, BEq.rfl, decoded, Bool.and_false,
    Bool.false_eq_true, if_false, if_true]
  rcases clock.now with ⟨_ | _, _⟩ <;> rfl

theorem respondVerified_undated (routed : Routed environment payload)
    (decoded : 17 ∉ payload.unknownAttributes)
    (h : ∀ millis, clock.instant = some millis → renders millis = false) :
    (respondVerified jiff environment payload clock).1 =
      statusOnly AppleStatus.internalDataAccessError := by
  rw [respondVerified_routed routed decoded]
  cases given : clock.instant with
  | none =>
    rw [Clock.now_of_no_instant given]
    rfl
  | some millis =>
    obtain ⟨_, read, -⟩ := Clock.now_of_instant given
    rw [read]
    dsimp only
    rw [render, receiptJson_none (h millis given)]
    rfl

theorem respondVerified_ok {attributes : List Attribute} {millis : Int}
    (routed : Routed environment (parseReceiptPayload ssl jiff attributes))
    (decoded : 17 ∉ (parseReceiptPayload ssl jiff attributes).unknownAttributes)
    (given : clock.instant = some millis) (h : renders millis = true) :
    ∃ receipt entries,
      (respondVerified jiff environment (parseReceiptPayload ssl jiff attributes) clock).1 =
        okResponse environment (.object receipt) ∧
      receipt.lookup "in_app" = some (.array entries) ∧
      (valuesOf attributes attrInApp).map
        (fun v => (parseInApp ssl jiff v).bind (purchaseJson jiff)) = entries.map some := by
  obtain ⟨_, read, -⟩ := Clock.now_of_instant given
  obtain ⟨receipt, entries, made, inApp, same⟩ := @receiptJson_some ssl jiff attributes millis h
  refine ⟨receipt, entries, ?_, inApp, map_purchaseJson decoded same⟩
  rw [respondVerified_routed routed decoded, read]
  dsimp only
  rw [render, made]
  rfl

end

/-! ## The endpoint -/

section

variable (ssl jiff base64 json) (environment : Environment) (request : Bytes)
  (anchors : List TrustAnchor) (clock : Clock)

/-- The answer is a receipt whose `in_app` has one entry for each attribute 17 of the signed
payload, in order. -/
def AnswersPurchases (payload : ReceiptPayload) (answer : String) : Prop :=
  ∃ data der attributes receipt entries,
    requestData json request = some data ∧ decodeReceiptData base64 (utf8 data) = .ok der ∧
    (verifyEnvelope ssl jiff der anchors clock).value.1 = .ok (.ok attributes) ∧
    payload = parseReceiptPayload ssl jiff attributes ∧
    answer = okResponse environment (.object receipt) ∧
    receipt.lookup "in_app" = some (.array entries) ∧
    (valuesOf attributes attrInApp).map
      (fun v => (parseInApp ssl jiff v).bind (purchaseJson jiff)) = entries.map some

/-- What an answer says about a request. -/
structure Answers (answer : String) : Prop where
  /-- It is status 0 with a receipt iff everything asked for is there. -/
  ok_iff : (∃ environment' receipt, answer = okResponse environment' (.object receipt)) ↔
    ∃ payload millis, Verified ssl jiff base64 json request anchors clock (.ok payload) ∧
      Routed environment payload ∧ 17 ∉ payload.unknownAttributes ∧
      clock.instant = some millis ∧ renders millis = true
  /-- Otherwise it is the status of the first that is not: the request, -/
  unread : maxRequestBytes < request.length ∨ requestData json request = none →
    answer = statusOnly 21002
  /-- the verification, -/
  refused : ∀ failure, Verified ssl jiff base64 json request anchors clock (.error failure) →
    answer = statusOnly (status failure.reason)
  /-- the environment, -/
  misrouted : ∀ payload, Verified ssl jiff base64 json request anchors clock (.ok payload) →
    ¬ Routed environment payload → answer = statusOnly (misroutedStatus environment)
  /-- the purchases, -/
  undecoded : ∀ payload, Verified ssl jiff base64 json request anchors clock (.ok payload) →
    Routed environment payload → 17 ∈ payload.unknownAttributes → answer = statusOnly 21009
  /-- the clock. -/
  undated : ∀ payload, Verified ssl jiff base64 json request anchors clock (.ok payload) →
    Routed environment payload → 17 ∉ payload.unknownAttributes →
    (∀ millis, clock.instant = some millis → renders millis = false) → answer = statusOnly 21009
  /-- A status-0 answer lacks no signed purchase. -/
  purchases : ∀ payload millis, Verified ssl jiff base64 json request anchors clock (.ok payload) →
    Routed environment payload → 17 ∉ payload.unknownAttributes → clock.instant = some millis →
    renders millis = true →
    AnswersPurchases ssl jiff base64 json environment request anchors clock payload answer

end

section

variable {environment : Environment} {request : Bytes} {anchors : List TrustAnchor} {clock : Clock}

theorem value_respond_unread
    (h : maxRequestBytes < request.length ∨ requestData json request = none) :
    (respond ssl jiff base64 json environment request anchors clock).value.1 =
      statusOnly AppleStatus.malformedReceiptData := by
  obtain ⟨failure, read, same⟩ := receiptData_of_no_data h
  rw [respond, read, ← same]
  rfl

theorem value_respond_refused {failure : Failure}
    (verified : Verified ssl jiff base64 json request anchors clock (.error failure)) :
    (respond ssl jiff base64 json environment request anchors clock).value.1 =
      statusOnly (status failure.reason) :=
  (value_respond environment verified).1 failure rfl

section

variable {payload : ReceiptPayload}
  (verified : Verified ssl jiff base64 json request anchors clock (.ok payload))

include verified

theorem value_respond_misrouted (other : ¬ Routed environment payload) :
    (respond ssl jiff base64 json environment request anchors clock).value.1 =
      statusOnly (misroutedStatus environment) := by
  obtain ⟨_, _, -, -, -, answered⟩ := (value_respond environment verified).2 payload rfl
  exact answered.trans (respondVerified_misrouted other)

variable (routed : Routed environment payload)

include routed

theorem value_respond_undecoded (raw : 17 ∈ payload.unknownAttributes) :
    (respond ssl jiff base64 json environment request anchors clock).value.1 =
      statusOnly AppleStatus.internalDataAccessError := by
  obtain ⟨_, _, -, -, -, answered⟩ := (value_respond environment verified).2 payload rfl
  exact answered.trans (respondVerified_undecoded routed raw)

variable (decoded : 17 ∉ payload.unknownAttributes)

include decoded

theorem value_respond_undated
    (broken : ∀ millis, clock.instant = some millis → renders millis = false) :
    (respond ssl jiff base64 json environment request anchors clock).value.1 =
      statusOnly AppleStatus.internalDataAccessError := by
  obtain ⟨_, _, -, kept, -, answered⟩ := (value_respond environment verified).2 payload rfl
  rw [← kept] at broken
  exact answered.trans (respondVerified_undated routed decoded broken)

theorem value_respond_purchases {millis : Int} (given : clock.instant = some millis)
    (h : renders millis = true) :
    AnswersPurchases ssl jiff base64 json environment request anchors clock payload
      (respond ssl jiff base64 json environment request anchors clock).value.1 := by
  obtain ⟨attributes, clock', rfl, kept, ⟨data, der, own, der', accepted⟩, answered⟩ :=
    (value_respond environment verified).2 payload rfl
  obtain ⟨receipt, entries, same, inApp, mapped⟩ :=
    respondVerified_ok routed decoded (kept.trans given) h
  exact ⟨data, der, attributes, receipt, entries, own, der', accepted, rfl, answered.trans same,
    inApp, mapped⟩

end

/-- Every request is unread or verified, one way or the other. -/
theorem unread_or_verified (ssl : OpenSsl) (jiff : Jiff) (base64 : Base64) (json : SerdeJson)
    (request : Bytes) (anchors : List TrustAnchor) (clock : Clock) :
    (maxRequestBytes < request.length ∨ requestData json request = none) ∨
      (∃ failure, Verified ssl jiff base64 json request anchors clock (.error failure)) ∨
      ∃ payload, Verified ssl jiff base64 json request anchors clock (.ok payload) := by
  by_cases capped : request.length ≤ maxRequestBytes
  · cases own : requestData json request with
    | none => exact .inl (.inr rfl)
    | some data =>
      cases verdict : (verifyReceipt ssl jiff base64 (utf8 data) anchors clock).value.1 with
      | error failure => exact .inr (.inl ⟨failure, capped, data, own, verdict⟩)
      | ok payload => exact .inr (.inr ⟨payload, capped, data, own, verdict⟩)
  · exact .inl (.inl (Nat.lt_of_not_le capped))

/-- A status-0 answer leaves nothing that could have failed. -/
theorem answerable_of_okResponse {environment' : Environment} {receipt : JsonValue}
    (h : (respond ssl jiff base64 json environment request anchors clock).value.1 =
      okResponse environment' receipt) :
    ∃ payload millis, Verified ssl jiff base64 json request anchors clock (.ok payload) ∧
      Routed environment payload ∧ 17 ∉ payload.unknownAttributes ∧
      clock.instant = some millis ∧ renders millis = true := by
  have other : ∀ n ∈ failureStatuses,
      (respond ssl jiff base64 json environment request anchors clock).value.1 ≠ statusOnly n :=
    fun n mem same => okResponse_ne_statusOnly mem (h.symm.trans same)
  rcases unread_or_verified ssl jiff base64 json request anchors clock with
    unread | ⟨failure, verified⟩ | ⟨payload, verified⟩
  · exact absurd (value_respond_unread unread) (other _ (by decide))
  · exact absurd (value_respond_refused verified) (other _ (status_mem _))
  by_cases routed : Routed environment payload
  · by_cases raw : 17 ∈ payload.unknownAttributes
    · exact absurd (value_respond_undecoded verified routed raw) (other _ (by decide))
    · by_cases broken : ∀ millis, clock.instant = some millis → renders millis = false
      · exact absurd (value_respond_undated verified routed raw broken) (other _ (by decide))
      · push Not at broken
        obtain ⟨millis, given, shown⟩ := broken
        exact ⟨payload, millis, verified, routed, raw, given, by simpa using shown⟩
  · refine absurd (value_respond_misrouted verified routed) (other _ ?_)
    cases environment <;> decide

end

/-- **The endpoint answers what the receipt verifies to**: status 0 when everything holds, otherwise
the status of the first thing that does not, and no status 0 without every signed purchase. -/
theorem respond_exact (ssl : OpenSsl) (jiff : Jiff) (base64 : Base64) (json : SerdeJson)
    (environment : Environment) (request : Bytes) (anchors : List TrustAnchor) (clock : Clock) :
    Answers ssl jiff base64 json environment request anchors clock
      (respond ssl jiff base64 json environment request anchors clock).value.1 where
  ok_iff := by
    constructor
    · rintro ⟨environment', receipt, same⟩
      exact answerable_of_okResponse same
    · rintro ⟨payload, millis, verified, routed, decoded, given, h⟩
      obtain ⟨_, _, _, receipt, _, -, -, -, -, same, -⟩ :=
        value_respond_purchases verified routed decoded given h
      exact ⟨environment, receipt, same⟩
  unread := value_respond_unread
  refused _ := value_respond_refused
  misrouted _ := value_respond_misrouted
  undecoded _ := value_respond_undecoded
  undated _ := value_respond_undated
  purchases _ _ verified routed decoded := value_respond_purchases verified routed decoded

end ReceiptVerifier
