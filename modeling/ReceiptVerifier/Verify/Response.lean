import ReceiptVerifier.Verify.Answers
import ReceiptVerifier.Verify.Endpoints

/-!
# The endpoint's answer as a value

The response is put together in a map whose order is the names'. Whatever was asked, it is the text
of one object without a repeated name, whose numbers are 64-bit integers and whose `status` is one
(`respondsWith_endpoint`), so that a host that looks for a status finds it.
-/

namespace ReceiptVerifier

open Openssl

/-! ## The text of a value -/

/-- A writer of strings that spells each. -/
def Quotes (quote : String → String) : Prop :=
  ∀ text, (textTree text).Spells (quote text).toList

mutual

/-- A text whose strings are spelled is one of the value. -/
theorem spells_displayWith {quote : String → String} (quotes : Quotes quote) :
    ∀ {value : JsonValue} {depth : Nat}, value.Fits depth →
      value.tree.Spells (value.displayWith quote).toList
  | .null, _, _ => by rw [JsonValue.tree, Json.Spells, JsonValue.displayWith]
  | .bool value, _, _ => by
    have spelt := spells_bool value
    rwa [json, JsonValue.display] at spelt
  | .number n, _, _ => by
    have spelt := spells_number n
    rwa [json, JsonValue.display] at spelt
  | .float _, _, fits => by rw [JsonValue.Fits] at fits; exact fits.elim
  | .string text, _, _ => quotes text
  | .array _, 0, fits => fits.elim
  | .object _, 0, fits => fits.elim
  | .array elements, depth + 1, fits => by
    rw [JsonValue.Fits] at fits
    exact spells_arrayJson (spells_displayElementsWith quotes fits)
  | .object members, depth + 1, fits => by
    rw [JsonValue.Fits] at fits
    have spelt := Json.spells_object (spells_displayMembersWith quotes fits.2)
    rw [JsonValue.displayWith, JsonValue.tree]
    simpa [String.toList_intercalate, Function.comp_def] using spelt

theorem spells_displayElementsWith {quote : String → String} (quotes : Quotes quote) :
    ∀ {values : List JsonValue} {depth : Nat}, JsonValue.ElementsFit values depth →
      List.Forall₂ (fun text tree => tree.Spells text.toList)
        (JsonValue.displayElementsWith quote values) (JsonValue.elementTrees values)
  | [], _, _ => .nil
  | value :: values, _, fits => by
    rw [JsonValue.ElementsFit] at fits
    exact .cons (spells_displayWith quotes fits.1) (spells_displayElementsWith quotes fits.2)

theorem spells_displayMembersWith {quote : String → String} (quotes : Quotes quote) :
    ∀ {members : List (String × JsonValue)} {depth : Nat}, JsonValue.MembersFit members depth →
      List.Forall₂ Json.SpellsMember
        ((JsonValue.displayMembersWith quote members).map String.toList)
        (JsonValue.memberTrees members)
  | [], _, _ => .nil
  | (name, value) :: members, _, fits => by
    rw [JsonValue.MembersFit] at fits
    have named := quotes name
    rw [textTree, Json.Spells] at named
    refine .cons ⟨_, _, named, spells_displayWith quotes fits.1, ?_⟩
      (spells_displayMembersWith quotes fits.2)
    simp

end

mutual

/-- `Display` writes a string as `displayString` does. -/
theorem display_eq : ∀ value : JsonValue, value.display = value.displayWith displayString
  | .null | .bool _ | .number _ | .float _ | .string _ => by
    rw [JsonValue.display, JsonValue.displayWith]
  | .array elements => by
    rw [JsonValue.display, JsonValue.displayWith, displayElements_eq, map_display]
  | .object members => by
    rw [JsonValue.display, JsonValue.displayWith, displayMembers_eq, map_displayMember]

theorem map_display : ∀ values : List JsonValue,
    values.map JsonValue.display = JsonValue.displayElementsWith displayString values
  | [] => rfl
  | value :: values => by
    rw [List.map_cons, JsonValue.displayElementsWith, display_eq value, map_display values]

theorem map_displayMember : ∀ members : List (String × JsonValue),
    members.map displayMember = JsonValue.displayMembersWith displayString members
  | [] => rfl
  | (name, value) :: members => by
    rw [List.map_cons, JsonValue.displayMembersWith, displayMember, display_eq value,
      map_displayMember members]

end

/-- `Display` writes a text of the value. -/
theorem spells_display {value : JsonValue} {depth : Nat} (fits : value.Fits depth) :
    value.tree.Spells value.display.toList := by
  rw [display_eq]
  exact spells_displayWith spells_displayString fits

/-! ## Maps in range -/

/-- A map in the order of its names, whose values are in range. -/
structure JsonMap.Sound (members : JsonMap) (depth : Nat) : Prop where
  sorted : (members.map Prod.fst).Pairwise (· < ·)
  fits : ∀ member ∈ members, member.2.Fits depth

/-- A map in range is an object in range: two of its names differ. -/
theorem JsonMap.Sound.object {members : JsonMap} {depth : Nat} (sound : members.Sound depth) :
    (JsonValue.object members).Fits (depth + 1) := by
  refine fits_object (sound.sorted.imp fun {a b} before same => ?_) sound.fits
  rw [same] at before
  exact String.lt_irrefl b before

theorem JsonMap.sound_nil {depth : Nat} : JsonMap.Sound [] depth := ⟨.nil, by simp⟩

/-- A map holds what is put in and what was there. -/
theorem JsonMap.mem_insert {members : JsonMap} {key : String} {value : JsonValue}
    {member : String × JsonValue} (mem : member ∈ members.insert key value) :
    member = (key, value) ∨ member ∈ members := by
  induction members with
  | nil => exact .inl (List.mem_singleton.mp mem)
  | cons first members ih =>
    obtain ⟨key', value'⟩ := first
    rw [JsonMap.insert] at mem
    split at mem
    · exact List.mem_cons.mp mem
    · split at mem
      · exact (List.mem_cons.mp mem).imp_right (List.mem_cons_of_mem _)
      · rcases List.mem_cons.mp mem with same | mem
        · exact .inr (same ▸ List.mem_cons_self)
        · exact (ih mem).imp_right (List.mem_cons_of_mem _)

/-- A map stays in the order of its names. -/
theorem JsonMap.sorted_insert {members : JsonMap} {key : String} {value : JsonValue}
    (sorted : (members.map Prod.fst).Pairwise (· < ·)) :
    ((members.insert key value).map Prod.fst).Pairwise (· < ·) := by
  induction members with
  | nil => exact List.pairwise_singleton _ _
  | cons first members ih =>
    obtain ⟨key', value'⟩ := first
    have below := List.pairwise_cons.mp sorted
    rw [JsonMap.insert]
    split
    next before =>
      refine List.pairwise_cons.mpr ⟨fun name mem => ?_, sorted⟩
      rcases List.mem_cons.mp mem with rfl | later
      · exact before
      · exact String.lt_trans before (below.1 name later)
    next notBefore =>
      split
      next same =>
        rw [List.map_cons, beq_iff_eq.mp same]
        exact sorted
      next differs =>
        refine List.pairwise_cons.mpr ⟨fun name mem => ?_, ih below.2⟩
        obtain ⟨member, own, rfl⟩ := List.mem_map.mp mem
        rcases JsonMap.mem_insert own with rfl | own
        · refine Decidable.by_contra fun notAfter => differs (beq_iff_eq.mpr ?_)
          exact String.le_antisymm (String.not_lt.mp notAfter) (String.not_lt.mp notBefore)
        · exact below.1 _ (List.mem_map_of_mem own)

section

variable {members : JsonMap} {depth : Nat} (sound : members.Sound depth)

include sound

/-- Putting a value in range in keeps it. -/
theorem JsonMap.Sound.insert (key : String) {value : JsonValue} (fits : value.Fits depth) :
    (members.insert key value).Sound depth := by
  refine ⟨sorted_insert sound.sorted, fun member mem => ?_⟩
  rcases mem_insert mem with rfl | own
  · exact fits
  · exact sound.fits member own

theorem JsonMap.Sound.presentString (key : String) (value : Option String) :
    JsonMap.Sound (ReceiptVerifier.presentString members key value) depth := by
  cases value with
  | none => exact sound
  | some value => exact sound.insert key trivial

theorem JsonMap.Sound.presentNumber (key : String) {value : Option Int} (h : ∀ n ∈ value, IsI64 n) :
    JsonMap.Sound (ReceiptVerifier.presentNumber members key value) depth := by
  cases value with
  | none => exact sound
  | some n => exact sound.insert key (h n rfl)

theorem JsonMap.Sound.numberOrNull (key : String) {value : Option Int} (h : ∀ n ∈ value, IsI64 n) :
    JsonMap.Sound (ReceiptVerifier.numberOrNull members key value) depth := by
  cases value with
  | none => exact sound.insert key trivial
  | some n => exact sound.insert key (h n rfl)

theorem JsonMap.Sound.presentNumberAsString (key : String) (value : Option Int) :
    JsonMap.Sound (ReceiptVerifier.presentNumberAsString members key value) depth := by
  cases value with
  | none => exact sound
  | some value => exact sound.presentString key (some (toString value))

/-- The three renderings of a date are texts. -/
theorem JsonMap.Sound.appleDates {jiff : Jiff} {name : String} {millis : Option Int}
    {more : JsonMap} (h : ReceiptVerifier.appleDates jiff members name millis = some more) :
    more.Sound depth := by
  unfold ReceiptVerifier.appleDates at h
  split at h
  · cases h
    exact sound
  · split at h
    · cases h
    · dsimp only at h
      split at h
      · cases h
      · cases h
        exact ((sound.presentString _ _).presentNumberAsString _ _).presentString _ _

end

/-! ## The receipt -/

/-- A purchase is an object in range. -/
theorem fits_purchaseJson {jiff : Jiff} {purchase : InAppPurchase} {value : JsonValue}
    {depth : Nat} (h : purchaseJson jiff purchase = some value) : value.Fits (depth + 1) := by
  simp only [purchaseJson, Option.bind_eq_bind, Option.bind_eq_some_iff] at h
  obtain ⟨bought, ha, original, hb, expires, hc, cancelled, hd, e⟩ := h
  have front : JsonMap.Sound _ depth := (((JsonMap.sound_nil.presentNumberAsString "quantity"
    purchase.quantity).presentString "product_id" purchase.productId).presentString
    "transaction_id" purchase.transactionId).presentString "original_transaction_id"
    purchase.originalTransactionId
  have reason := ((((front.appleDates ha).appleDates hb).appleDates hc).appleDates
    hd).presentNumberAsString "cancellation_reason" purchase.cancellationReason
  cases e
  refine (JsonMap.Sound.presentString (JsonMap.Sound.presentString ?_ _ _) _ _).object
  cases purchase.webOrderLineItemId.filter (· != 0) with
  | none => exact reason
  | some id => exact reason.presentNumberAsString _ _

/-- A receipt is an object in range, its purchases a list of such. -/
theorem fits_receiptJson {jiff : Jiff} {receipt : ReceiptPayload} {now : Int} {value : JsonValue}
    {depth : Nat} (fits : PayloadFits receipt) (h : receiptJson jiff receipt now = some value) :
    value.Fits (depth + 3) := by
  have integers := fits.integers
  simp only [IntegersFit, ReceiptPayload.integers, List.forall_mem_cons] at integers
  obtain ⟨item, -, download, version, -⟩ := integers
  simp only [receiptJson, Option.bind_eq_bind, Option.bind_eq_some_iff] at h
  obtain ⟨created, ha, requested, hb, original, hc, preorder, hd, expires, he, inApp, bought, e⟩ :=
    h
  have front : JsonMap.Sound _ (depth + 2) := ((((JsonMap.sound_nil.presentString "receipt_type"
    receipt.receiptType).presentNumber "adam_id" item).presentNumber "app_item_id"
    item).presentString "bundle_id" receipt.bundleId).presentString "application_version"
    receipt.applicationVersion
  have ids := ((front.numberOrNull "download_id" download).presentNumber
    "version_external_identifier" version).presentString "original_application_version"
    receipt.originalApplicationVersion
  have dates := ((((ids.appleDates ha).appleDates hb).appleDates hc).appleDates hd).appleDates he
  cases e
  have purchases : (JsonValue.array inApp).Fits (depth + 2) := by
    rw [JsonValue.Fits, elementsFit_iff]
    intro value mem
    obtain ⟨purchase, -, made⟩ := exists_of_mem_mapM bought mem
    exact fits_purchaseJson made
  exact (dates.insert "in_app" purchases).object

/-! ## The answer -/

/-- The text of an object in range that has a status. -/
def RespondsWith (text : String) (members : List (String × JsonValue)) : Prop :=
  text = (JsonValue.object members).display ∧ (JsonValue.object members).Fits answerDepth ∧
    ∃ n, members.lookup "status" = some (.number n)

/-- A status alone. -/
theorem respondsWith_statusOnly {n : Int} (small : IsI64 n) :
    RespondsWith (statusOnly n) [("status", .number n)] := by
  refine ⟨statusOnly_eq_display n, ?_, n, rfl⟩
  exact fits_object (List.nodup_singleton _) (List.forall_mem_singleton.mpr small)

/-- The response to a receipt that verified. -/
theorem respondsWith_okResponse (environment : Environment) {receipt : JsonValue}
    (fits : receipt.Fits (answerDepth - 1)) :
    RespondsWith (okResponse environment receipt) [("status", .number AppleStatus.ok),
      ("environment", .string environment.asStr), ("receipt", receipt)] := by
  refine ⟨okResponse_eq_display environment receipt, ?_, AppleStatus.ok, rfl⟩
  refine fits_object (by simp) ?_
  simp only [List.forall_mem_cons, List.not_mem_nil, false_implies, implies_true, and_true]
  exact ⟨by rw [JsonValue.Fits]; unfold IsI64; decide, trivial, fits⟩

theorem isI64_status (reason : Reason) : IsI64 (status reason) := by
  cases reason <;> unfold IsI64 <;> decide

theorem respondsWith_failure (reason : Reason) :
    ∃ members, RespondsWith (statusOnly (status reason)) members :=
  ⟨_, respondsWith_statusOnly (isI64_status reason)⟩

/-- Whatever a verified receipt is answered with is in range. -/
theorem respondsWith_respondVerified (jiff : Jiff) (environment : Environment)
    {payload : ReceiptPayload} (fits : PayloadFits payload) (clock : Clock) :
    ∃ members, RespondsWith (respondVerified jiff environment payload clock).1 members := by
  have internal :
    ∃ members, RespondsWith (statusOnly AppleStatus.internalDataAccessError) members :=
    ⟨_, respondsWith_statusOnly (by unfold IsI64; decide)⟩
  unfold respondVerified
  dsimp only
  split
  · exact internal
  · split
    · split
      · rw [render]
        rcases rendered : receiptJson jiff payload _ with - | receipt
        · exact internal
        · exact ⟨_, respondsWith_okResponse environment (fits_receiptJson fits rendered)⟩
      · exact respondsWith_failure _
    · refine ⟨_, respondsWith_statusOnly ?_⟩
      unfold routingStatus
      cases environment <;> dsimp only <;> split <;> unfold IsI64 <;> decide

/-- Whatever the endpoint answers is an object in range that has a status. -/
theorem respondsWith_endpoint (ssl : OpenSsl) (jiff : Jiff) (base64 : Base64) (json : SerdeJson)
    (roots : List TrustAnchor) (environment : Environment) (request : Bytes)
    (now : Nat → Option Int) :
    ∃ members, RespondsWith
      (Verifier.endpoint ssl jiff base64 json roots environment request now).value.1 members := by
  unfold Verifier.endpoint
  split
  · exact respondsWith_failure _
  · unfold respond
    split
    · exact respondsWith_failure _
    next data _ =>
      rw [Traced.value_bind]
      dsimp only
      split
      next payload verified =>
        exact respondsWith_respondVerified jiff environment (payloadFits_verifyReceipt verified) _
      · exact respondsWith_failure _

end ReceiptVerifier
