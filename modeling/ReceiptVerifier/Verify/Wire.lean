import Mathlib.Data.List.Forall2
import Mathlib.Data.List.Nodup
import ReceiptVerifier.Lib.Base64
import ReceiptVerifier.Lib.JsonReader
import ReceiptVerifier.Verify.Dates
import ReceiptVerifier.Wire

/-!
# The canonical JSON of a receipt

The writer puts objects and arrays together by hand around scalars. Its text spells one JSON value,
`answerTree`, whose objects repeat no name, and `recover` reads the payload back from the text: ids
from decimal strings, dates from numbers and bytes from base64.
-/

namespace ReceiptVerifier

/-! ## Scalars -/

/-- The code units of a text. -/
def codeUnits (text : String) : List UInt16 := Utf16.encode text.toList

/-- The value a scalar's text spells. -/
def scalarTree {α : Type} (tree : α → Json) : Option α → Json
  | none => .null
  | some a => tree a

/-- A text, in the code units its string spells. -/
def textTree (text : String) : Json := .string (codeUnits text)

/-- An integer, as it is written. -/
def numberTree (n : Int) : Json := .number n.repr.toList

theorem hexValue_hexDigit : ∀ n < 16, Json.hexValue (hexDigit n) = some n := by decide

/-- An escape with a letter stands for the character of its code unit. -/
theorem spellsChar_short {c letter : Char} {n : Nat} (small : n < 0x80)
    (escape : Json.shortEscape letter = some (.ofNat n)) (h : c.toNat = n) :
    Json.SpellsChar (Utf16.encodeChar c) ['\\', letter] := by
  rw [Utf16.encodeChar, if_pos (by omega), h]
  exact .short letter _ escape

/-- A character is written as itself or as an escape of it. -/
theorem spellsChar_escapeChar (c : Char) :
    Json.SpellsChar (Utf16.encodeChar c) (escapeChar c) := by
  unfold escapeChar
  split
  · next same => exact spellsChar_short (n := 0x22) (by decide) rfl (by simp_all)
  · next notQuote =>
    split
    · next same => exact spellsChar_short (n := 0x5c) (by decide) rfl (by simp_all)
    · next notBackslash =>
      simp only [beq_iff_eq] at notQuote notBackslash ⊢
      split
      · next same => exact spellsChar_short (by decide) rfl same
      · split
        · next same => exact spellsChar_short (by decide) rfl same
        · split
          · next same => exact spellsChar_short (by decide) rfl same
          · split
            · next same => exact spellsChar_short (by decide) rfl same
            · split
              · next same => exact spellsChar_short (by decide) rfl same
              · split
                · next control =>
                  have high := hexValue_hexDigit (c.toNat / 16) (by omega)
                  have low := hexValue_hexDigit (c.toNat % 16) (by omega)
                  have unit : Json.hexUnit '0' '0' (hexDigit (c.toNat / 16))
                      (hexDigit (c.toNat % 16)) = some (.ofNat c.toNat) := by
                    have zero : Json.hexValue '0' = some 0 := by decide
                    have whole : ((0 * 16 + 0) * 16 + c.toNat / 16) * 16 + c.toNat % 16 =
                        c.toNat := by omega
                    simp only [Json.hexUnit, zero, high, low, Option.bind_eq_bind,
                      Option.bind_some, whole]
                    rfl
                  rw [Utf16.encodeChar, if_pos (by omega)]
                  exact .hex _ _ _ _ _ unit
                · next visible =>
                  refine .raw c ?_
                  simp only [Json.isUnescaped, Bool.and_eq_true, decide_eq_true_eq, bne_iff_ne]
                  exact ⟨⟨by omega, notQuote⟩, notBackslash⟩

/-- A quoted text spells the text: each character stands for its own code units. -/
theorem spells_displayString (text : String) :
    (textTree text).Spells (displayString text).toList := by
  have body : Json.SpellsBody (codeUnits text) (text.toList.flatMap escapeChar) := by
    unfold codeUnits Utf16.encode
    induction text.toList with
    | nil => exact .nil
    | cons c l ih => exact .cons (spellsChar_escapeChar c) ih
  rw [textTree, Json.Spells]
  exact ⟨_, body, by simp [displayString]⟩

/-- `None` and a value are written as what they are. -/
theorem spells_json {α : Type} {value : α → JsonValue} {tree : α → Json}
    (h : ∀ a, (tree a).Spells (json (value a)).toList) (option : Option α) :
    (scalarTree tree option).Spells (json (.ofOption value option)).toList := by
  cases option with
  | none =>
    rw [scalarTree, Json.Spells]
    rfl
  | some a => exact h a

theorem spells_string (text : String) : (textTree text).Spells (json (.string text)).toList := by
  rw [json, JsonValue.display]
  exact spells_displayString text

/-- An integer is a number of the grammar. -/
theorem spells_number (n : Int) : (numberTree n).Spells (json (.number n)).toList := by
  rw [numberTree, Json.Spells, json, JsonValue.display]
  exact ⟨Json.isNumber_repr n, rfl⟩

theorem spells_bool (value : Bool) : (Json.bool value).Spells (json (.bool value)).toList := by
  rw [Json.Spells, json, JsonValue.display]
  cases value <;> rfl

/-! ## Arrays and objects -/

/-- An object, its names in code units. -/
def objectTree (members : List (String × Json)) : Json :=
  .object (members.map fun (name, value) => (codeUnits name, value))

/-- A name no character of which needs an escape. -/
def isPlain (name : String) : Bool := name.toList.all Json.isUnescaped

/-- A member's text spells it: the same name, and a text of the value. -/
structure WrittenAs (text : String × String) (member : String × Json) : Prop where
  name : text.1 = member.1
  plain : isPlain text.1 = true
  value : member.2.Spells text.2.toList

/-- The texts of the elements between brackets spell the array. -/
theorem spells_arrayJson {texts : List String} {values : List Json}
    (h : List.Forall₂ (fun text value => value.Spells text.toList) texts values) :
    (Json.array values).Spells (arrayJson texts).toList := by
  have lists : List.Forall₂ (fun text value => value.Spells text) (texts.map String.toList)
      values := List.forall₂_map_left_iff.mpr h
  have spelt := Json.spells_array lists
  simpa [arrayJson, String.toList_intercalate] using spelt

/-- The texts of the members between braces spell the object. -/
theorem spells_objectJson {texts : List (String × String)} {members : List (String × Json)}
    (h : List.Forall₂ WrittenAs texts members) :
    (objectTree members).Spells (objectJson texts).toList := by
  have lists : List.Forall₂ Json.SpellsMember
      (texts.map fun text => '"' :: (text.1.toList ++ '"' :: ':' :: text.2.toList))
      (members.map fun member => (codeUnits member.1, member.2)) := by
    rw [List.forall₂_map_left_iff, List.forall₂_map_right_iff]
    refine h.imp fun text member written => ⟨_, _, ⟨text.1.toList, ?_, rfl⟩, written.value, ?_⟩
    · rw [← written.name]
      exact Json.spellsBody_raw (List.all_eq_true.mp written.plain)
    · simp
  have spelt := Json.spells_object lists
  have same : (objectJson texts).toList = '\x7b' :: ([','].intercalate
      (texts.map fun text => '"' :: (text.1.toList ++ '"' :: ':' :: text.2.toList)) ++
        ['\x7d']) := by
    simp [objectJson, String.toList_intercalate, Function.comp_def]
  rw [same]
  exact spelt

/-! ## The payload -/

section

variable (base64 : Base64)

/-- Bytes, in base64. -/
def bytesTree (bytes : Bytes) : Json := textTree (base64.encode bytes)

/-- The raw attributes: an object from each type to its values, in order. -/
def attributesTree (attributes : UnknownAttributes) : Json :=
  objectTree (attributes.toList.map fun (attributeType, values) =>
    (toString attributeType, .array (values.map (bytesTree base64))))

/-- A 64-bit id, as a decimal string. -/
def idTree (id : Int) : Json := textTree (toString id)

/-- The members of a purchase, in the order they are written. -/
def purchaseMembers (purchase : InAppPurchase) : List (String × Json) := [
  ("quantity", scalarTree numberTree purchase.quantity),
  ("product_id", scalarTree textTree purchase.productId),
  ("transaction_id", scalarTree textTree purchase.transactionId),
  ("purchase_date_ms", scalarTree numberTree purchase.purchaseDateMs),
  ("original_transaction_id", scalarTree textTree purchase.originalTransactionId),
  ("original_purchase_date_ms", scalarTree numberTree purchase.originalPurchaseDateMs),
  ("expires_date_ms", scalarTree numberTree purchase.expiresDateMs),
  ("web_order_line_item_id", scalarTree idTree purchase.webOrderLineItemId),
  ("cancellation_date_ms", scalarTree numberTree purchase.cancellationDateMs),
  ("cancellation_reason", scalarTree numberTree purchase.cancellationReason),
  ("is_trial_period", scalarTree .bool purchase.isTrialPeriod),
  ("is_in_intro_offer_period", scalarTree .bool purchase.isInIntroOfferPeriod),
  ("unknown_attributes", attributesTree base64 purchase.unknownAttributes)]

def purchaseTree (purchase : InAppPurchase) : Json := objectTree (purchaseMembers base64 purchase)

/-- The members of a payload, in the order they are written. -/
def payloadMembers (receipt : ReceiptPayload) : List (String × Json) := [
  ("receipt_type", scalarTree textTree receipt.receiptType),
  ("app_item_id", scalarTree idTree receipt.appItemId),
  ("bundle_id", scalarTree textTree receipt.bundleId),
  ("bundle_id_bytes", scalarTree (bytesTree base64) receipt.bundleIdBytes),
  ("application_version", scalarTree textTree receipt.applicationVersion),
  ("opaque_value", scalarTree (bytesTree base64) receipt.opaqueValue),
  ("sha1_hash", scalarTree (bytesTree base64) receipt.sha1Hash),
  ("receipt_creation_date_ms", scalarTree numberTree receipt.receiptCreationDateMs),
  ("download_id", scalarTree idTree receipt.downloadId),
  ("version_external_identifier", scalarTree idTree receipt.versionExternalIdentifier),
  ("in_app", .array (receipt.inApp.map (purchaseTree base64))),
  ("original_purchase_date_ms", scalarTree numberTree receipt.originalPurchaseDateMs),
  ("preorder_date_ms", scalarTree numberTree receipt.preorderDateMs),
  ("original_application_version", scalarTree textTree receipt.originalApplicationVersion),
  ("expiration_date_ms", scalarTree numberTree receipt.expirationDateMs),
  ("unknown_attributes", attributesTree base64 receipt.unknownAttributes)]

def payloadTree (receipt : ReceiptPayload) : Json := objectTree (payloadMembers base64 receipt)

/-- The members of the answer to a receipt that verified. -/
def answerMembers (receipt : ReceiptPayload) : List (String × Json) := [
  ("verified", .bool true),
  ("payload", payloadTree base64 receipt),
  ("environment", scalarTree textTree (receipt.environment.map Environment.asStr))]

/-- The value the answer for a verified receipt spells. -/
def answerTree (receipt : ReceiptPayload) : Json := objectTree (answerMembers base64 receipt)

theorem spells_optionText (text : Option String) :
    (scalarTree textTree text).Spells (json (.ofOption .string text)).toList :=
  spells_json spells_string text

theorem spells_optionNumber (n : Option Int) :
    (scalarTree numberTree n).Spells (json (.ofOption .number n)).toList :=
  spells_json spells_number n

theorem spells_optionBool (value : Option Bool) :
    (scalarTree .bool value).Spells (json (.ofOption .bool value)).toList :=
  spells_json spells_bool value

theorem spells_idJson (id : Option Int) : (scalarTree idTree id).Spells (idJson id).toList := by
  have spelt := spells_optionText (id.map toString)
  cases id <;> exact spelt

theorem spells_bytesJson (bytes : Option Bytes) :
    (scalarTree (bytesTree base64) bytes).Spells (bytesJson base64 bytes).toList := by
  have spelt := spells_optionText (bytes.map base64.encode)
  cases bytes <;> exact spelt

/-- An attribute type as a name needs no escape. -/
theorem isPlain_toString (n : Nat) : isPlain (toString n) = true := by
  rw [isPlain, List.all_eq_true]
  intro c mem
  have digit : c.isDigit = true := by
    rw [Nat.toString_eq_repr, Nat.toList_repr] at mem
    exact Nat.isDigit_of_mem_toDigits (by decide) (by decide) mem
  have bound : 48 ≤ c.toNat := by
    simp only [Char.isDigit, Bool.and_eq_true, decide_eq_true_eq] at digit
    exact digit.1
  simp only [Json.isUnescaped, Bool.and_eq_true, decide_eq_true_eq, bne_iff_ne]
  refine ⟨⟨by omega, ?_⟩, ?_⟩
  · rintro rfl
    cases digit
  · rintro rfl
    cases digit

/-- The raw attributes are written as their tree. -/
theorem spells_attributesJson (attributes : UnknownAttributes) :
    (attributesTree base64 attributes).Spells (attributesJson base64 attributes).toList := by
  refine spells_objectJson ?_
  rw [List.forall₂_map_left_iff, List.forall₂_map_right_iff, List.forall₂_same]
  intro entry _
  refine ⟨rfl, isPlain_toString _, spells_arrayJson ?_⟩
  rw [List.forall₂_map_left_iff, List.forall₂_map_right_iff, List.forall₂_same]
  exact fun value _ => spells_string _

/-- What is written member by member spells the object of the members. -/
theorem written {texts : List (String × String)} {members : List (String × Json)}
    (plain : ∀ name ∈ members.map Prod.fst, isPlain name = true)
    (h : List.Forall₂ (fun text member => text.1 = member.1 ∧ member.2.Spells text.2.toList)
      texts members) : List.Forall₂ WrittenAs texts members := by
  induction h with
  | nil => exact .nil
  | cons same _ ih =>
    rw [List.map_cons, List.forall_mem_cons] at plain
    exact .cons ⟨same.1, same.1 ▸ plain.1, same.2⟩ (ih plain.2)

/-- A purchase is written as its tree. -/
theorem spells_purchase (purchase : InAppPurchase) :
    (purchaseTree base64 purchase).Spells (purchase.toJson base64).toList := by
  have plain : ∀ name ∈ (purchaseMembers base64 purchase).map Prod.fst, isPlain name = true := by
    simp only [purchaseMembers, List.map_cons, List.map_nil]
    decide
  refine spells_objectJson (written plain ?_)
  exact .cons ⟨rfl, spells_optionNumber _⟩ <|
    .cons ⟨rfl, spells_optionText _⟩ <|
    .cons ⟨rfl, spells_optionText _⟩ <|
    .cons ⟨rfl, spells_optionNumber _⟩ <|
    .cons ⟨rfl, spells_optionText _⟩ <|
    .cons ⟨rfl, spells_optionNumber _⟩ <|
    .cons ⟨rfl, spells_optionNumber _⟩ <|
    .cons ⟨rfl, spells_idJson _⟩ <|
    .cons ⟨rfl, spells_optionNumber _⟩ <|
    .cons ⟨rfl, spells_optionNumber _⟩ <|
    .cons ⟨rfl, spells_optionBool _⟩ <|
    .cons ⟨rfl, spells_optionBool _⟩ <|
    .cons ⟨rfl, spells_attributesJson base64 _⟩ <|
    .nil

/-- A payload is written as its tree. -/
theorem spells_payload (receipt : ReceiptPayload) :
    (payloadTree base64 receipt).Spells (receipt.toJson base64).toList := by
  have purchases : (Json.array (receipt.inApp.map (purchaseTree base64))).Spells
      (arrayJson (receipt.inApp.map (InAppPurchase.toJson base64))).toList := by
    refine spells_arrayJson ?_
    rw [List.forall₂_map_left_iff, List.forall₂_map_right_iff, List.forall₂_same]
    exact fun purchase _ => spells_purchase base64 purchase
  have plain : ∀ name ∈ (payloadMembers base64 receipt).map Prod.fst, isPlain name = true := by
    simp only [payloadMembers, List.map_cons, List.map_nil]
    decide
  refine spells_objectJson (written plain ?_)
  exact .cons ⟨rfl, spells_optionText _⟩ <|
    .cons ⟨rfl, spells_idJson _⟩ <|
    .cons ⟨rfl, spells_optionText _⟩ <|
    .cons ⟨rfl, spells_bytesJson base64 _⟩ <|
    .cons ⟨rfl, spells_optionText _⟩ <|
    .cons ⟨rfl, spells_bytesJson base64 _⟩ <|
    .cons ⟨rfl, spells_bytesJson base64 _⟩ <|
    .cons ⟨rfl, spells_optionNumber _⟩ <|
    .cons ⟨rfl, spells_idJson _⟩ <|
    .cons ⟨rfl, spells_idJson _⟩ <|
    .cons ⟨rfl, purchases⟩ <|
    .cons ⟨rfl, spells_optionNumber _⟩ <|
    .cons ⟨rfl, spells_optionNumber _⟩ <|
    .cons ⟨rfl, spells_optionText _⟩ <|
    .cons ⟨rfl, spells_optionNumber _⟩ <|
    .cons ⟨rfl, spells_attributesJson base64 _⟩ <|
    .nil

/-- The braces and names `verified` writes itself are those of an object. -/
theorem verified_eq (payload : String) (environment : Option Environment) :
    verified payload environment = objectJson [("verified", json (.bool true)),
      ("payload", payload),
      ("environment", json (.ofOption .string (environment.map Environment.asStr)))] := by
  have front : "\x7b\"verified\":true,\"payload\":" = "\x7b" ++ ("\"" ++ "verified" ++ "\":" ++
      "true") ++ "," ++ ("\"" ++ "payload" ++ "\":") := by decide
  have back : ",\"environment\":" = "," ++ ("\"" ++ "environment" ++ "\":") := by decide
  have literal : json (.bool true) = "true" := by rw [json, JsonValue.display]; rfl
  have joined : ∀ a b c : String, ",".intercalate [a, b, c] = a ++ "," ++ b ++ "," ++ c := by
    intro a b c
    rfl
  have text := congrArg₂ (fun a b => a ++ payload ++ b ++
    json (.ofOption .string (environment.map Environment.asStr)) ++ "\x7d") front back
  refine Eq.trans text ?_
  simp only [objectJson, List.map_cons, List.map_nil, joined, literal, String.append_assoc]

/-- The answer to a receipt that verified is written as its tree. -/
theorem spells_answer (receipt : ReceiptPayload) :
    (answerTree base64 receipt).Spells (verifyReceiptResult base64 (.ok receipt)).toList := by
  have text : verifyReceiptResult base64 (.ok receipt) =
      verified (receipt.toJson base64) receipt.environment := rfl
  rw [text, verified_eq]
  have plain : ∀ name ∈ (answerMembers base64 receipt).map Prod.fst, isPlain name = true := by
    simp only [answerMembers, List.map_cons, List.map_nil]
    decide
  refine spells_objectJson (written plain ?_)
  exact .cons ⟨rfl, spells_bool true⟩ <|
    .cons ⟨rfl, spells_payload base64 receipt⟩ <|
    .cons ⟨rfl, spells_optionText _⟩ <|
    .nil

/-! ## Names -/

theorem codeUnits_injective : Function.Injective codeUnits := by
  intro name name' same
  exact String.toList_inj.mp (Utf16.encode_injective same)

/-- An object repeats no name where its members have different names and repeat none. -/
theorem nodupNames_objectTree {members : List (String × Json)}
    (names : (members.map Prod.fst).Nodup) (values : ∀ member ∈ members, member.2.NodupNames) :
    (objectTree members).NodupNames := by
  rw [objectTree, Json.NodupNames, Json.nodupMembers_iff]
  constructor
  · have mapped := List.Nodup.map codeUnits_injective names
    rwa [List.map_map] at mapped ⊢
  · intro member mem
    obtain ⟨member', mem', rfl⟩ := List.mem_map.mp mem
    exact values member' mem'

theorem nodupNames_text (text : Option String) : (scalarTree textTree text).NodupNames := by
  cases text <;> trivial

theorem nodupNames_number (n : Option Int) : (scalarTree numberTree n).NodupNames := by
  cases n <;> trivial

theorem nodupNames_bool (value : Option Bool) : (scalarTree Json.bool value).NodupNames := by
  cases value <;> trivial

theorem nodupNames_id (id : Option Int) : (scalarTree idTree id).NodupNames := by
  cases id <;> trivial

theorem nodupNames_bytes (bytes : Option Bytes) :
    (scalarTree (bytesTree base64) bytes).NodupNames := by
  cases bytes <;> trivial

theorem nodupNames_array {values : List Json} (h : ∀ value ∈ values, value.NodupNames) :
    (Json.array values).NodupNames := by
  rw [Json.NodupNames, Json.nodupElements_iff]
  exact h

/-- A map has each attribute type once. -/
theorem pairwise_attributeTypes (attributes : UnknownAttributes) :
    (attributes.toList.map Prod.fst).Pairwise (· < ·) := by
  rw [List.pairwise_map]
  exact Std.ExtTreeMap.ordered_keys_toList.imp Nat.compare_eq_lt.mp

theorem toString_injective : Function.Injective (toString : Nat → String) := by
  intro n m same
  have digits := congrArg (fun text => Json.digitsValue text.toList) same
  simpa only [Nat.toString_eq_repr, Nat.toList_repr, Json.digitsValue_toDigits,
    Option.some.injEq] using digits

/-- Two attribute types have two names. -/
theorem nodupNames_attributes (attributes : UnknownAttributes) :
    (attributesTree base64 attributes).NodupNames := by
  refine nodupNames_objectTree ?_ ?_
  · have types : (attributes.toList.map Prod.fst).Nodup :=
      (pairwise_attributeTypes attributes).imp Nat.ne_of_lt
    have names := List.Nodup.map toString_injective types
    rwa [List.map_map] at names ⊢
  · intro member mem
    obtain ⟨entry, -, rfl⟩ := List.mem_map.mp mem
    refine nodupNames_array fun value mem => ?_
    obtain ⟨bytes, -, rfl⟩ := List.mem_map.mp mem
    trivial

theorem nodupNames_purchase (purchase : InAppPurchase) :
    (purchaseTree base64 purchase).NodupNames := by
  have names : ((purchaseMembers base64 purchase).map Prod.fst).Nodup := by
    simp only [purchaseMembers, List.map_cons, List.map_nil]
    decide
  refine nodupNames_objectTree names ?_
  simp only [purchaseMembers, List.forall_mem_cons, nodupNames_text, nodupNames_number,
    nodupNames_bool, nodupNames_id, nodupNames_attributes, true_and]
  simp

theorem nodupNames_payload (receipt : ReceiptPayload) :
    (payloadTree base64 receipt).NodupNames := by
  have names : ((payloadMembers base64 receipt).map Prod.fst).Nodup := by
    simp only [payloadMembers, List.map_cons, List.map_nil]
    decide
  have purchases : (Json.array (receipt.inApp.map (purchaseTree base64))).NodupNames := by
    refine nodupNames_array fun value mem => ?_
    obtain ⟨purchase, -, rfl⟩ := List.mem_map.mp mem
    exact nodupNames_purchase base64 purchase
  refine nodupNames_objectTree names ?_
  simp only [payloadMembers, List.forall_mem_cons, nodupNames_text, nodupNames_number,
    nodupNames_bytes, nodupNames_id, nodupNames_attributes, purchases, true_and]
  simp

/-- No object of the answer repeats a name. -/
theorem nodupNames_answer (receipt : ReceiptPayload) :
    (answerTree base64 receipt).NodupNames := by
  have names : ((answerMembers base64 receipt).map Prod.fst).Nodup := by
    simp only [answerMembers, List.map_cons, List.map_nil]
    decide
  refine nodupNames_objectTree names ?_
  simp only [answerMembers, List.forall_mem_cons, nodupNames_text, nodupNames_payload, true_and]
  exact ⟨trivial, by simp⟩

end

/-! ## Reading back -/

section

variable (base64 : Base64)

/-- The value of an object's member. -/
def memberOf (name : String) : Json → Option Json
  | .object members => members.lookup (codeUnits name)
  | _ => none

/-- `null` is `None`. -/
def readOption {α : Type} (reader : Json → Option α) : Json → Option (Option α)
  | .null => some none
  | tree => (reader tree).map some

/-- A text, off its tree. -/
def readText : Json → Option String
  | .string units => (Utf16.decode units).map String.ofList
  | _ => none

/-- An integer, off its tree. -/
def readNumber : Json → Option Int
  | .number raw => Json.decimal raw
  | _ => none

def readBool : Json → Option Bool
  | .bool value => some value
  | _ => none

/-- An id from its decimal string. -/
def readId (tree : Json) : Option Int := (readText tree).bind fun text => Json.decimal text.toList

/-- Bytes from their base64. -/
def readBytes (tree : Json) : Option Bytes :=
  (readText tree).bind fun text => (base64.decodeStandard (utf8 text)).toOption

/-- Every element, in order; `none` where one does not read. -/
def readArray {α : Type} (reader : Json → Option α) : Json → Option (List α)
  | .array elements => elements.mapM reader
  | _ => none

/-- The raw values of one attribute type, with the type from its decimal name. -/
def readAttribute (member : List UInt16 × Json) : Option (Nat × List Bytes) := do
  let name ← Utf16.decode member.1
  let attributeType ← Json.digitsValue name
  let values ← readArray (readBytes base64) member.2
  pure (attributeType, values)

/-- The raw attributes, off their tree. -/
def readAttributes : Json → Option UnknownAttributes
  | .object members => (members.mapM (readAttribute base64)).map fun entries => .ofList entries
  | _ => none

/-- A member's value, read. -/
def field {α : Type} (name : String) (reader : Json → Option α) (tree : Json) : Option α :=
  (memberOf name tree).bind reader

/-- A purchase, off its tree. -/
def readPurchase (tree : Json) : Option InAppPurchase := do
  let quantity ← field "quantity" (readOption readNumber) tree
  let productId ← field "product_id" (readOption readText) tree
  let transactionId ← field "transaction_id" (readOption readText) tree
  let purchaseDateMs ← field "purchase_date_ms" (readOption readNumber) tree
  let originalTransactionId ← field "original_transaction_id" (readOption readText) tree
  let originalPurchaseDateMs ← field "original_purchase_date_ms" (readOption readNumber) tree
  let expiresDateMs ← field "expires_date_ms" (readOption readNumber) tree
  let webOrderLineItemId ← field "web_order_line_item_id" (readOption readId) tree
  let cancellationDateMs ← field "cancellation_date_ms" (readOption readNumber) tree
  let cancellationReason ← field "cancellation_reason" (readOption readNumber) tree
  let isTrialPeriod ← field "is_trial_period" (readOption readBool) tree
  let isInIntroOfferPeriod ← field "is_in_intro_offer_period" (readOption readBool) tree
  let unknownAttributes ← field "unknown_attributes" (readAttributes base64) tree
  pure { quantity, productId, transactionId, purchaseDateMs, originalTransactionId,
         originalPurchaseDateMs, expiresDateMs, webOrderLineItemId, cancellationDateMs,
         cancellationReason, isTrialPeriod, isInIntroOfferPeriod, unknownAttributes }

/-- A payload, off its tree. -/
def readReceipt (tree : Json) : Option ReceiptPayload := do
  let receiptType ← field "receipt_type" (readOption readText) tree
  let appItemId ← field "app_item_id" (readOption readId) tree
  let bundleId ← field "bundle_id" (readOption readText) tree
  let bundleIdBytes ← field "bundle_id_bytes" (readOption (readBytes base64)) tree
  let applicationVersion ← field "application_version" (readOption readText) tree
  let opaqueValue ← field "opaque_value" (readOption (readBytes base64)) tree
  let sha1Hash ← field "sha1_hash" (readOption (readBytes base64)) tree
  let receiptCreationDateMs ← field "receipt_creation_date_ms" (readOption readNumber) tree
  let downloadId ← field "download_id" (readOption readId) tree
  let versionExternalIdentifier ← field "version_external_identifier" (readOption readId) tree
  let inApp ← field "in_app" (readArray (readPurchase base64)) tree
  let originalPurchaseDateMs ← field "original_purchase_date_ms" (readOption readNumber) tree
  let preorderDateMs ← field "preorder_date_ms" (readOption readNumber) tree
  let originalApplicationVersion ← field "original_application_version" (readOption readText) tree
  let expirationDateMs ← field "expiration_date_ms" (readOption readNumber) tree
  let unknownAttributes ← field "unknown_attributes" (readAttributes base64) tree
  pure { receiptType, appItemId, bundleId, bundleIdBytes, applicationVersion, opaqueValue,
         sha1Hash, receiptCreationDateMs, downloadId, versionExternalIdentifier, inApp,
         originalPurchaseDateMs, preorderDateMs, originalApplicationVersion, expirationDateMs,
         unknownAttributes }

/-- The payload of an answer's text. -/
def recover (text : String) : Option ReceiptPayload :=
  (Json.read text.toList).bind (field "payload" (readReceipt base64))

end

/-! ## Nothing is lost -/

section

variable {base64 : Base64}

/-- The `base64` crate's decoder inverts its encoder. -/
def Base64.RoundTrips (base64 : Base64) : Prop :=
  ∀ bytes, base64.decodeStandard (utf8 (base64.encode bytes)) = .ok bytes

/-- A name is looked up among the code units of the names. -/
theorem memberOf_objectTree (name : String) (members : List (String × Json)) :
    memberOf name (objectTree members) = members.lookup name := by
  unfold memberOf objectTree
  dsimp only
  induction members with
  | nil => rfl
  | cons member members ih =>
    have same : (codeUnits name == codeUnits member.1) = (name == member.1) := by
      rw [Bool.eq_iff_iff, beq_iff_eq, beq_iff_eq]
      exact codeUnits_injective.eq_iff
    rw [List.map_cons, List.lookup_cons, List.lookup_cons, same, ih]

/-- `null` reads as nothing, and a scalar as what it was. -/
theorem readOption_scalarTree {α : Type} {reader : Json → Option α} {tree : α → Json}
    (present : ∀ a, tree a ≠ .null) (reads : ∀ a, reader (tree a) = some a) (option : Option α) :
    readOption reader (scalarTree tree option) = some option := by
  cases option with
  | none => rfl
  | some a =>
    unfold readOption scalarTree
    split
    · next null => exact absurd null (present a)
    · rw [reads, Option.map_some]

theorem readText_tree (text : String) : readText (textTree text) = some text := by
  simp [readText, textTree, codeUnits, Utf16.decode_encode]

theorem readOption_text (text : Option String) :
    readOption readText (scalarTree textTree text) = some text :=
  readOption_scalarTree (by simp [textTree]) readText_tree text

theorem readOption_number (n : Option Int) :
    readOption readNumber (scalarTree numberTree n) = some n :=
  readOption_scalarTree (by simp [numberTree]) Json.decimal_repr n

theorem readOption_bool (value : Option Bool) :
    readOption readBool (scalarTree .bool value) = some value :=
  readOption_scalarTree (fun _ null => by cases null)
    (fun _ => rfl : ∀ value, readBool (.bool value) = some value) value

theorem readOption_id (id : Option Int) : readOption readId (scalarTree idTree id) = some id := by
  refine readOption_scalarTree (by simp [idTree, textTree]) ?_ id
  intro id
  rw [readId, idTree, readText_tree, Option.bind_some, Int.toString_eq_repr, Json.decimal_repr]

/-- Bytes are read back where base64 decodes what it encoded. -/
theorem readBytes_tree (roundTrips : base64.RoundTrips) (bytes : Bytes) :
    readBytes base64 (bytesTree base64 bytes) = some bytes := by
  rw [readBytes, bytesTree, readText_tree, Option.bind_some, roundTrips]
  rfl

theorem readOption_bytes (roundTrips : base64.RoundTrips) (bytes : Option Bytes) :
    readOption (readBytes base64) (scalarTree (bytesTree base64) bytes) = some bytes :=
  readOption_scalarTree (by simp [bytesTree, textTree]) (readBytes_tree roundTrips) bytes

/-- Reading every written element gives the elements back. -/
theorem mapM_map_eq {α β : Type} {reader : β → Option α} {write : α → β} {l : List α}
    (reads : ∀ a, reader (write a) = some a) : (l.map write).mapM reader = some l := by
  induction l with
  | nil => rfl
  | cons a l ih => simp [List.mapM_cons, reads, ih]

/-- One attribute is read back, its type and its values. -/
theorem readAttribute_written (roundTrips : base64.RoundTrips) (entry : Nat × List Bytes) :
    readAttribute base64
      (codeUnits (toString entry.1), .array (entry.2.map (bytesTree base64))) = some entry := by
  have name : Utf16.decode (codeUnits (toString entry.1)) = some (Nat.toDigits 10 entry.1) := by
    rw [codeUnits, Utf16.decode_encode, Nat.toString_eq_repr, Nat.toList_repr]
  have values : readArray (readBytes base64) (.array (entry.2.map (bytesTree base64))) =
      some entry.2 := mapM_map_eq (readBytes_tree roundTrips)
  simp only [readAttribute, name, values, Json.digitsValue_toDigits, Option.bind_eq_bind,
    Option.bind_some]
  rfl

/-- A map is what its entries make. -/
theorem ofList_toList (attributes : UnknownAttributes) :
    Std.ExtTreeMap.ofList attributes.toList = attributes := by
  refine Std.ExtTreeMap.ext_getElem? fun k => ?_
  cases found : attributes[k]? with
  | some values =>
    exact Std.ExtTreeMap.getElem?_ofList_of_mem (by simp) Std.ExtTreeMap.distinct_keys_toList
      (Std.ExtTreeMap.mem_toList_iff_getElem?_eq_some.mpr found)
  | none =>
    refine Std.ExtTreeMap.getElem?_ofList_of_contains_eq_false ?_
    rw [← Bool.not_eq_true, List.contains_iff_mem]
    intro mem
    obtain ⟨⟨key, values⟩, entry, rfl⟩ := List.mem_map.mp mem
    rw [Std.ExtTreeMap.mem_toList_iff_getElem?_eq_some.mp entry] at found
    cases found

theorem readAttributes_tree (roundTrips : base64.RoundTrips) (attributes : UnknownAttributes) :
    readAttributes base64 (attributesTree base64 attributes) = some attributes := by
  unfold readAttributes attributesTree objectTree
  dsimp only
  rw [List.map_map]
  have read : (attributes.toList.map ((fun member : String × Json =>
      (codeUnits member.1, member.2)) ∘ fun entry : Nat × List Bytes =>
        (toString entry.1, Json.array (entry.2.map (bytesTree base64))))).mapM
          (readAttribute base64) = some attributes.toList :=
    mapM_map_eq (readAttribute_written roundTrips)
  rw [read, Option.map_some, ofList_toList]

/-- A purchase is read back whole. -/
theorem readPurchase_tree (roundTrips : base64.RoundTrips) (purchase : InAppPurchase) :
    readPurchase base64 (purchaseTree base64 purchase) = some purchase := by
  have fields : ∀ {α : Type} (name : String) (reader : Json → Option α),
      field name reader (purchaseTree base64 purchase) =
        ((purchaseMembers base64 purchase).lookup name).bind reader := by
    intro α name reader
    rw [field, purchaseTree, memberOf_objectTree]
  unfold readPurchase
  simp only [fields, purchaseMembers, List.lookup_cons, String.reduceBEq, Option.bind_some,
    readOption_number, readOption_text, readOption_id, readOption_bool,
    readAttributes_tree roundTrips, Option.bind_eq_bind]
  rfl

/-- A payload is read back whole. -/
theorem readReceipt_tree (roundTrips : base64.RoundTrips) (receipt : ReceiptPayload) :
    readReceipt base64 (payloadTree base64 receipt) = some receipt := by
  have fields : ∀ {α : Type} (name : String) (reader : Json → Option α),
      field name reader (payloadTree base64 receipt) =
        ((payloadMembers base64 receipt).lookup name).bind reader := by
    intro α name reader
    rw [field, payloadTree, memberOf_objectTree]
  have purchases : readArray (readPurchase base64)
      (.array (receipt.inApp.map (purchaseTree base64))) = some receipt.inApp :=
    mapM_map_eq (readPurchase_tree roundTrips)
  unfold readReceipt
  simp only [fields, payloadMembers, List.lookup_cons, String.reduceBEq, Option.bind_some,
    readOption_number, readOption_text, readOption_id, readOption_bytes roundTrips, purchases,
    readAttributes_tree roundTrips, Option.bind_eq_bind]
  rfl

/-- The answer is a text of its tree and of no other. -/
theorem text_answer (base64 : Base64) (receipt : ReceiptPayload) :
    (answerTree base64 receipt).Text (verifyReceiptResult base64 (.ok receipt)).toList :=
  Json.padded_self (spells_answer base64 receipt)

/-- The receipt is recovered from the text of its answer. -/
theorem recover_answer (roundTrips : base64.RoundTrips) (receipt : ReceiptPayload) :
    recover base64 (verifyReceiptResult base64 (.ok receipt)) = some receipt := by
  rw [recover, Json.read_eq_of_text (text_answer base64 receipt), Option.bind_some, field,
    answerTree, memberOf_objectTree]
  simp only [answerMembers, List.lookup_cons, String.reduceBEq, Option.bind_some,
    readReceipt_tree roundTrips]

/-- The names of an object are numbers in decimal, in strictly ascending order. -/
def AscendingNames (tree : Json) : Prop :=
  ∃ (members : List (List UInt16 × Json)) (numbers : List Nat), tree = .object members ∧
    members.map Prod.fst = numbers.map (fun n => codeUnits (toString n)) ∧
    numbers.Pairwise (· < ·)

def elementsOf : Json → List Json
  | .array elements => elements
  | _ => []

/-- The `unknown_attributes` of a payload and of each of its purchases. -/
def attributeObjects (payload : Json) : List (Option Json) :=
  memberOf "unknown_attributes" payload ::
    ((memberOf "in_app" payload).elim [] elementsOf).map (memberOf "unknown_attributes")

/-- The types are written in ascending order. -/
theorem ascendingNames_attributes (base64 : Base64) (attributes : UnknownAttributes) :
    AscendingNames (attributesTree base64 attributes) := by
  refine ⟨_, attributes.toList.map Prod.fst, rfl, ?_, pairwise_attributeTypes attributes⟩
  rw [List.map_map, List.map_map, List.map_map]
  rfl

/-- The objects of raw attributes in a payload are its own and those of its purchases. -/
theorem attributeObjects_payload (base64 : Base64) (receipt : ReceiptPayload) :
    attributeObjects (payloadTree base64 receipt) =
      (receipt.unknownAttributes :: receipt.inApp.map InAppPurchase.unknownAttributes).map
        fun attributes => some (attributesTree base64 attributes) := by
  have own : memberOf "unknown_attributes" (payloadTree base64 receipt) =
      some (attributesTree base64 receipt.unknownAttributes) := by
    rw [payloadTree, memberOf_objectTree]
    simp only [payloadMembers, List.lookup_cons, String.reduceBEq]
  have purchases : memberOf "in_app" (payloadTree base64 receipt) =
      some (.array (receipt.inApp.map (purchaseTree base64))) := by
    rw [payloadTree, memberOf_objectTree]
    simp only [payloadMembers, List.lookup_cons, String.reduceBEq]
  have purchase : ∀ purchase, memberOf "unknown_attributes" (purchaseTree base64 purchase) =
      some (attributesTree base64 purchase.unknownAttributes) := by
    intro purchase
    rw [purchaseTree, memberOf_objectTree]
    simp only [purchaseMembers, List.lookup_cons, String.reduceBEq]
  simp only [attributeObjects, own, purchases, Option.elim_some, elementsOf, List.map_map,
    List.map_cons, Function.comp_def, purchase]

end

/-- **The canonical JSON of a receipt loses nothing.** The answer for a payload is one RFC 8259 text
with exactly the members `verified`, `payload` and `environment`; no object of it repeats a name,
the attribute types ascend, and the payload is read back from it. So no two payloads have one
text. -/
theorem verifyReceiptResult_lossless (base64 : Base64) (roundTrips : base64.RoundTrips)
    (receipt : ReceiptPayload) :
    (∃ payload environment,
      let answer := Json.object [(codeUnits "verified", .bool true),
        (codeUnits "payload", payload), (codeUnits "environment", environment)]
      answer.Text (verifyReceiptResult base64 (.ok receipt)).toList ∧
      (∀ other : Json, other.Text (verifyReceiptResult base64 (.ok receipt)).toList →
        other = answer) ∧
      answer.NodupNames ∧
      (attributeObjects payload).length = receipt.inApp.length + 1 ∧
      ∀ attributes ∈ attributeObjects payload, ∃ tree, attributes = some tree ∧
        AscendingNames tree) ∧
    recover base64 (verifyReceiptResult base64 (.ok receipt)) = some receipt ∧
    ∀ other, verifyReceiptResult base64 (.ok other) = verifyReceiptResult base64 (.ok receipt) →
      other = receipt := by
  refine ⟨⟨payloadTree base64 receipt, _, text_answer base64 receipt,
    fun other text => Json.Text.unique (text_answer base64 receipt) text,
    nodupNames_answer base64 receipt, ?_, ?_⟩, recover_answer roundTrips receipt, ?_⟩
  · rw [attributeObjects_payload]
    simp
  · intro attributes mem
    rw [attributeObjects_payload] at mem
    obtain ⟨types, -, rfl⟩ := List.mem_map.mp mem
    exact ⟨_, rfl, ascendingNames_attributes base64 types⟩
  · intro other same
    have read := recover_answer roundTrips other
    rw [same, recover_answer roundTrips receipt] at read
    exact (Option.some.inj read).symm

namespace Sample

/-- The canonical decoder of RFC 4648, over bytes. -/
def decodeText (text : Bytes) : Option Bytes :=
  Rfc4648.decode (text.map fun b => .ofNat b.toNat)

/-- The standard encoding of RFC 4648. -/
def standardBase64 : Base64 where
  decodeReceipt := decodeText
  decodeUrl _ := none
  decodeStandard text :=
    match decodeText text with
    | none => .error "Invalid symbol"
    | some bytes => .ok bytes
  encode bytes := .ofList (Rfc4648.encode bytes)

theorem decodeText_encode (bytes : Bytes) :
    decodeText (utf8 (standardBase64.encode bytes)) = some bytes := by
  have isAscii : IsAscii (String.ofList (Rfc4648.encode bytes)).toList := by
    rw [String.toList_ofList]
    exact Rfc4648.encode_ascii bytes
  have text : (utf8 (standardBase64.encode bytes)).map (fun b => Char.ofNat b.toNat) =
      Rfc4648.encode bytes := by
    have own : ∀ c ∈ Rfc4648.encode bytes, Char.ofNat (ascii c).toNat = c := by
      intro c mem
      rw [toNat_ascii (Rfc4648.encode_ascii bytes c mem), Char.ofNat_toNat]
    rw [standardBase64, utf8_ascii isAscii, String.toList_ofList, List.map_map]
    exact (List.map_congr_left own).trans (List.map_id _)
  rw [decodeText, text, Rfc4648.decode_encode]

theorem standardBase64_roundTrips : standardBase64.RoundTrips := by
  intro bytes
  change (match decodeText (utf8 (standardBase64.encode bytes)) with
    | none => Except.error "Invalid symbol"
    | some bytes => .ok bytes) = .ok bytes
  rw [decodeText_encode]

/-- A receipt with an empty text beside an absent one, and attributes the library does not know. -/
def payload : ReceiptPayload where
  receiptType := some "Production"
  appItemId := some 9007199254740993
  bundleId := some "com.\"example\"\n"
  bundleIdBytes := some [0xff, 0x00]
  applicationVersion := some ""
  receiptCreationDateMs := some (-1)
  inApp := [
    { quantity := some 1, isTrialPeriod := some false,
      unknownAttributes := .ofList [(10, [[]]), (9, [])] },
    {}]
  unknownAttributes := .ofList [(2, [[(1 : UInt8)], [], [1]])]

end Sample

theorem verifyReceiptResult_lossless_payload : Sample.standardBase64.RoundTrips ∧
    recover Sample.standardBase64
      (verifyReceiptResult Sample.standardBase64 (.ok Sample.payload)) = some Sample.payload :=
  ⟨Sample.standardBase64_roundTrips, (verifyReceiptResult_lossless Sample.standardBase64
    Sample.standardBase64_roundTrips Sample.payload).2.1⟩

end ReceiptVerifier
