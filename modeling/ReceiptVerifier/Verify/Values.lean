import Mathlib.Data.List.Nodup
import ReceiptVerifier.Verify.Wire

/-!
# Values of JSON

`SameValue` is equality of JSON values, the members of an object in any order. A value with texts of
Unicode is the tree of RFC 8259 it is spelled as (`JsonValue.tree`), and the canonical JSON of a
receipt is such a value (`payloadValue`, `answerValue`).
-/

namespace ReceiptVerifier

/-! ## Equal values -/

/-- Two values that are equal as JSON: the members of an object are a map, and no name is there
twice. -/
inductive SameValue : JsonValue → JsonValue → Prop
  | null : SameValue .null .null
  | bool (value : Bool) : SameValue (.bool value) (.bool value)
  | number (value : Int) : SameValue (.number value) (.number value)
  | float (text : String) : SameValue (.float text) (.float text)
  | string (text : String) : SameValue (.string text) (.string text)
  | array {elements elements' : List JsonValue} (length : elements.length = elements'.length)
      (values : ∀ (i : Nat) value value', elements[i]? = some value → elements'[i]? = some value' →
        SameValue value value') : SameValue (.array elements) (.array elements')
  | object {members members' : List (String × JsonValue)} (nodup : (members.map Prod.fst).Nodup)
      (nodup' : (members'.map Prod.fst).Nodup)
      (names : ∀ name, name ∈ members.map Prod.fst ↔ name ∈ members'.map Prod.fst)
      (values : ∀ name value value', (name, value) ∈ members → (name, value') ∈ members' →
        SameValue value value') : SameValue (.object members) (.object members')

namespace SameValue

/-- Lists whose elements agree agree. -/
theorem map {α : Type} {f g : α → JsonValue} {l : List α} (h : ∀ a ∈ l, SameValue (f a) (g a)) :
    SameValue (.array (l.map f)) (.array (l.map g)) := by
  refine .array (by simp) ?_
  intro i value value' left right
  rw [List.getElem?_map, Option.map_eq_some_iff] at left right
  obtain ⟨a, own, rfl⟩ := left
  obtain ⟨a', own', rfl⟩ := right
  cases own.symm.trans own'
  exact h a (List.mem_of_getElem? own)

/-- An object's members, each equal to itself. -/
theorem self {members : List (String × JsonValue)} (nodup : (members.map Prod.fst).Nodup)
    (h : ∀ member ∈ members, SameValue member.2 member.2) :
    SameValue (.object members) (.object members) := by
  refine .object nodup nodup (fun _ => Iff.rfl) ?_
  intro name value value' left right
  obtain rfl : value = value' :=
    congrArg Prod.snd (List.inj_on_of_nodup_map nodup left right rfl)
  exact h _ left

/-- Members in another order. -/
theorem perm {members reordered members' : List (String × JsonValue)}
    (order : members.Perm reordered) (h : SameValue (.object reordered) (.object members')) :
    SameValue (.object members) (.object members') := by
  cases h with
  | object nodup nodup' names values =>
    refine .object ((order.map _).nodup_iff.mpr nodup) nodup' ?_ ?_
    · intro name
      exact (order.map _).mem_iff.trans (names name)
    · intro name value value' left right
      exact values name value value' (order.mem_iff.mp left) right

/-- One more member at the end of both. -/
theorem snoc {members members' : List (String × JsonValue)} {name : String}
    {value value' : JsonValue} (h : SameValue (.object members) (.object members'))
    (fresh : name ∉ members'.map Prod.fst) (own : SameValue value value') :
    SameValue (.object (members ++ [(name, value)])) (.object (members' ++ [(name, value')])) := by
  cases h with
  | object nodup nodup' names values =>
    have fresh' : name ∉ members.map Prod.fst := fun mem => fresh ((names name).mp mem)
    refine .object ?_ ?_ ?_ ?_
    · rw [List.map_append, List.nodup_append]
      refine ⟨nodup, by simp, ?_⟩
      rintro a mem b single rfl
      rw [List.mem_singleton.mp single] at mem
      exact fresh' mem
    · rw [List.map_append, List.nodup_append]
      refine ⟨nodup', by simp, ?_⟩
      rintro a mem b single rfl
      rw [List.mem_singleton.mp single] at mem
      exact fresh mem
    · intro key
      simp only [List.map_append, List.mem_append, names key]
      simp
    · intro key left right mem mem'
      rw [List.mem_append, List.mem_singleton, Prod.mk.injEq] at mem mem'
      rcases mem with inside | ⟨rfl, rfl⟩
      · rcases mem' with inside' | ⟨rfl, rfl⟩
        · exact values key left right inside inside'
        · exact absurd (List.mem_map_of_mem (f := Prod.fst) inside) fresh'
      · rcases mem' with inside' | ⟨-, rfl⟩
        · exact absurd (List.mem_map_of_mem (f := Prod.fst) inside') fresh
        · exact own

/-- Objects that agree have the same names. -/
theorem names_eq {members members' : List (String × JsonValue)}
    (h : List.Forall₂ (fun member member' => member.1 = member'.1 ∧ SameValue member.2 member'.2)
      members members') : members.map Prod.fst = members'.map Prod.fst := by
  induction h with
  | nil => rfl
  | cons own _ ih => rw [List.map_cons, List.map_cons, own.1, ih]

/-- Members of the same names in the same order. -/
theorem members {members members' : List (String × JsonValue)}
    (nodup : (members'.map Prod.fst).Nodup)
    (h : List.Forall₂ (fun member member' => member.1 = member'.1 ∧ SameValue member.2 member'.2)
      members members') : SameValue (.object members) (.object members') := by
  have names := names_eq h
  refine .object (by rwa [names]) nodup (fun name => by rw [names]) ?_
  clear names
  induction h with
  | nil =>
    intro _ _ _ mem
    exact absurd mem List.not_mem_nil
  | cons own rest ih =>
    next member member' members members' =>
    rw [List.map_cons, List.nodup_cons] at nodup
    intro name value value' mem mem'
    have inside : ∀ {value}, (name, value) ∈ members → name ≠ member'.1 := by
      rintro value mem rfl
      have listed := List.mem_map_of_mem (f := Prod.fst) mem
      rw [names_eq rest] at listed
      exact nodup.1 listed
    rcases List.mem_cons.mp mem with rfl | more
    · rcases List.mem_cons.mp mem' with rfl | more'
      · exact own.2
      · rw [← own.1] at nodup
        exact absurd (List.mem_map_of_mem (f := Prod.fst) more') nodup.1
    · rcases List.mem_cons.mp mem' with rfl | more'
      · exact absurd rfl (inside more)
      · exact ih nodup.2 name value value' more more'

/-- Objects that agree have the same value under a name. -/
theorem member {members members' : List (String × JsonValue)} {value value' : JsonValue}
    (h : SameValue (.object members) (.object members')) (name : String)
    (mem : (name, value) ∈ members) (mem' : (name, value') ∈ members') :
    SameValue value value' := by
  cases h with
  | object _ _ _ values => exact values name value value' mem mem'

theorem of_map {α : Type} {f g : α → JsonValue} {l : List α}
    (h : SameValue (.array (l.map f)) (.array (l.map g))) : ∀ a ∈ l, SameValue (f a) (g a) := by
  intro a mem
  obtain ⟨i, own⟩ := List.mem_iff_getElem?.mp mem
  cases h with
  | array _ values =>
    refine values i (f a) (g a) ?_ ?_
    · rw [List.getElem?_map, own, Option.map_some]
    · rw [List.getElem?_map, own, Option.map_some]

theorem ofOption {α : Type} {value : α → JsonValue} (self : ∀ a, SameValue (value a) (value a))
    (option : Option α) : SameValue (.ofOption value option) (.ofOption value option) := by
  cases option with
  | none => exact .null
  | some a => exact self a

end SameValue

/-! ## Trees -/

mutual

/-- The value with each text as its code units and each number in decimal. -/
def JsonValue.tree : JsonValue → Json
  | .null => .null
  | .bool value => .bool value
  | .number value => numberTree value
  | .float text => .number text.toList
  | .string text => textTree text
  | .array elements => .array (JsonValue.elementTrees elements)
  | .object members => .object (JsonValue.memberTrees members)

def JsonValue.elementTrees : List JsonValue → List Json
  | [] => []
  | value :: values => value.tree :: JsonValue.elementTrees values

def JsonValue.memberTrees : List (String × JsonValue) → List (List UInt16 × Json)
  | [] => []
  | (name, value) :: members => (codeUnits name, value.tree) :: JsonValue.memberTrees members

end

/-- The trees of the elements, in order. -/
theorem elementTrees_eq (values : List JsonValue) :
    JsonValue.elementTrees values = values.map JsonValue.tree := by
  induction values with
  | nil => rfl
  | cons value values ih => rw [JsonValue.elementTrees, ih, List.map_cons]

theorem memberTrees_eq (members : List (String × JsonValue)) :
    JsonValue.memberTrees members =
      members.map fun member => (codeUnits member.1, member.2.tree) := by
  induction members with
  | nil => rfl
  | cons member members ih => rw [JsonValue.memberTrees, ih, List.map_cons]

theorem tree_array (values : List JsonValue) :
    (JsonValue.array values).tree = .array (values.map JsonValue.tree) := by
  rw [JsonValue.tree, elementTrees_eq]

theorem tree_object (members : List (String × JsonValue)) :
    (JsonValue.object members).tree =
      objectTree (members.map fun member => (member.1, member.2.tree)) := by
  rw [JsonValue.tree, memberTrees_eq, objectTree, List.map_map]
  rfl

theorem tree_ofOption {α : Type} (value : α → JsonValue) (option : Option α) :
    (JsonValue.ofOption value option).tree = scalarTree (fun a => (value a).tree) option := by
  cases option with
  | none => rw [JsonValue.ofOption, scalarTree, JsonValue.tree]
  | some a => rfl

/-! ## Maps -/

/-- Fields inserted one after the other. -/
def insertAll (json : JsonMap) (fields : List (String × JsonValue)) : JsonMap :=
  fields.foldl (fun json field => json.insert field.1 field.2) json

/-- Fields are put in one after the other. -/
theorem insertAll_append (json : JsonMap) (fields fields' : List (String × JsonValue)) :
    insertAll json (fields ++ fields') = insertAll (insertAll json fields) fields' :=
  List.foldl_append

/-- A new name goes in somewhere. -/
theorem perm_insert {json : JsonMap} {key : String} {value : JsonValue}
    (fresh : key ∉ json.map Prod.fst) : (json.insert key value).Perm ((key, value) :: json) := by
  induction json with
  | nil => exact .refl _
  | cons member json ih =>
    obtain ⟨key', value'⟩ := member
    rw [List.map_cons, List.mem_cons, not_or] at fresh
    rw [JsonMap.insert]
    split
    · exact .refl _
    · rw [if_neg (by simpa using fresh.1)]
      exact ((ih fresh.2).cons _).trans (.swap ..)

/-- Without a repeated name nothing is overwritten. -/
theorem perm_insertAll : ∀ (fields : List (String × JsonValue)) (json : JsonMap),
    ((json ++ fields).map Prod.fst).Nodup → (insertAll json fields).Perm (json ++ fields) := by
  intro fields
  induction fields with
  | nil =>
    intro json _
    rw [List.append_nil]
    exact .refl _
  | cons field fields ih =>
    intro json nodup
    obtain ⟨key, value⟩ := field
    have front : (json ++ (key, value) :: fields).Perm ((key, value) :: (json ++ fields)) :=
      List.perm_middle
    have nodup' := (front.map Prod.fst).nodup_iff.mp nodup
    rw [List.map_cons, List.nodup_cons, List.map_append, List.mem_append, not_or] at nodup'
    have inserted := @perm_insert json key value nodup'.1.1
    have names : ((json.insert key value ++ fields).map Prod.fst).Nodup := by
      refine ((inserted.append_right fields).map Prod.fst).nodup_iff.mpr ?_
      exact (front.map Prod.fst).nodup_iff.mp nodup
    refine (ih _ names).trans ?_
    exact (inserted.append_right fields).trans front.symm

/-! ## Values of 64-bit integers -/

/-- An integer of 64 bits. -/
def IsI64 (n : Int) : Prop := -(2 ^ 63) ≤ n ∧ n < 2 ^ 63

mutual

/-- Every number is a 64-bit integer, no object repeats a name, and at most so many arrays and
objects nest. -/
def JsonValue.Fits : JsonValue → Nat → Prop
  | .number n, _ => IsI64 n
  | .float _, _ => False
  | .array elements, depth + 1 => JsonValue.ElementsFit elements depth
  | .object members, depth + 1 =>
    (members.map Prod.fst).Nodup ∧ JsonValue.MembersFit members depth
  | .array _, 0 => False
  | .object _, 0 => False
  | _, _ => True

def JsonValue.ElementsFit : List JsonValue → Nat → Prop
  | [], _ => True
  | value :: values, depth => value.Fits depth ∧ JsonValue.ElementsFit values depth

def JsonValue.MembersFit : List (String × JsonValue) → Nat → Prop
  | [], _ => True
  | (_, value) :: members, depth => value.Fits depth ∧ JsonValue.MembersFit members depth

end

theorem elementsFit_iff {values : List JsonValue} {depth : Nat} :
    JsonValue.ElementsFit values depth ↔ ∀ value ∈ values, value.Fits depth := by
  induction values with
  | nil => simp [JsonValue.ElementsFit]
  | cons value values ih => rw [JsonValue.ElementsFit, ih, List.forall_mem_cons]

theorem membersFit_iff {members : List (String × JsonValue)} {depth : Nat} :
    JsonValue.MembersFit members depth ↔ ∀ member ∈ members, member.2.Fits depth := by
  induction members with
  | nil => simp [JsonValue.MembersFit]
  | cons member members ih => rw [JsonValue.MembersFit, ih, List.forall_mem_cons]

/-- An object of different names whose values are in range is in range, one level up. -/
theorem fits_object {members : List (String × JsonValue)} {depth : Nat}
    (nodup : (members.map Prod.fst).Nodup) (fits : ∀ member ∈ members, member.2.Fits depth) :
    (JsonValue.object members).Fits (depth + 1) := by
  rw [JsonValue.Fits, membersFit_iff]
  exact ⟨nodup, fits⟩

/-- The most arrays and objects that nest in what the core answers: an attribute's values in their
list, in the unknown attributes of a purchase, in the purchases of the payload of an answer. -/
def answerDepth : Nat := 6

/-- A parser that reads every text of a value that nests no deeper than the core's answers as that
value, with nothing after it. -/
def ReadsTexts (parse : String → Option (JsonValue × Bool)) : Prop :=
  ∀ value : JsonValue, value.Fits answerDepth → ∀ text : String, value.tree.Text text.toList →
    parse text = some (value, false)

mutual

/-- The value a tree spells, its numbers integers and its texts Unicode. -/
def valueOf : Json → Option JsonValue
  | .null => some .null
  | .bool value => some (.bool value)
  | .number raw => (Json.decimal raw).map .number
  | .string units => (Utf16.decode units).map fun text => .string (.ofList text)
  | .array elements => (valuesOfElements elements).map .array
  | .object members => (valuesOfMembers members).map .object

def valuesOfElements : List Json → Option (List JsonValue)
  | [] => some []
  | tree :: trees => do
    let value ← valueOf tree
    let values ← valuesOfElements trees
    pure (value :: values)

def valuesOfMembers : List (List UInt16 × Json) → Option (List (String × JsonValue))
  | [] => some []
  | (units, tree) :: trees => do
    let name ← Utf16.decode units
    let value ← valueOf tree
    let members ← valuesOfMembers trees
    pure ((.ofList name, value) :: members)

end

/-- The value of a text, by the reader of RFC 8259. -/
def parseText (text : String) : Option JsonValue := (Json.read text.toList).bind valueOf

mutual

/-- A value in range is read off its tree. -/
theorem valueOf_tree : ∀ {value : JsonValue} {depth : Nat}, value.Fits depth →
    valueOf value.tree = some value
  | .null, _, _ => by rw [JsonValue.tree, valueOf]
  | .bool _, _, _ => by rw [JsonValue.tree, valueOf]
  | .number _, _, _ => by
    rw [JsonValue.tree, numberTree, valueOf, Json.decimal_repr, Option.map_some]
  | .float _, _, h => h.elim
  | .string text, _, _ => by
    rw [JsonValue.tree, textTree, valueOf, codeUnits, Utf16.decode_encode, Option.map_some,
      String.ofList_toList]
  | .array _, 0, h => h.elim
  | .object _, 0, h => h.elim
  | .array elements, depth + 1, h => by
    rw [JsonValue.Fits] at h
    rw [JsonValue.tree, valueOf, valuesOfElements_trees h, Option.map_some]
  | .object members, depth + 1, h => by
    rw [JsonValue.Fits] at h
    rw [JsonValue.tree, valueOf, valuesOfMembers_trees h.2, Option.map_some]

theorem valuesOfElements_trees : ∀ {values : List JsonValue} {depth : Nat},
    JsonValue.ElementsFit values depth →
      valuesOfElements (JsonValue.elementTrees values) = some values
  | [], _, _ => by rw [JsonValue.elementTrees, valuesOfElements]
  | value :: values, _, h => by
    rw [JsonValue.ElementsFit] at h
    rw [JsonValue.elementTrees, valuesOfElements, valueOf_tree h.1, valuesOfElements_trees h.2]
    rfl

theorem valuesOfMembers_trees : ∀ {members : List (String × JsonValue)} {depth : Nat},
    JsonValue.MembersFit members depth →
      valuesOfMembers (JsonValue.memberTrees members) = some members
  | [], _, _ => by rw [JsonValue.memberTrees, valuesOfMembers]
  | (name, value) :: members, _, h => by
    rw [JsonValue.MembersFit] at h
    rw [JsonValue.memberTrees, valuesOfMembers, codeUnits, Utf16.decode_encode, valueOf_tree h.1,
      valuesOfMembers_trees h.2]
    simp

end

/-- Every text of a value is read as that value. -/
theorem parseText_eq {value : JsonValue} {depth : Nat} (h : value.Fits depth) {text : String}
    (spelt : value.tree.Text text.toList) : parseText text = some value := by
  rw [parseText, Json.read_eq_of_text spelt, Option.bind_some, valueOf_tree h]

/-! ## The canonical JSON of a receipt -/

section

variable (base64 : Base64)

/-- An integer, or `null`. -/
def numberValue (n : Option Int) : JsonValue := .ofOption .number n

/-- A text, or `null`. -/
def textValue (text : Option String) : JsonValue := .ofOption .string text

/-- A flag, or `null`. -/
def boolValue (value : Option Bool) : JsonValue := .ofOption .bool value

/-- A 64-bit id as a decimal string, or `null`. -/
def idValue (id : Option Int) : JsonValue := textValue (id.map toString)

/-- Bytes in base64, or `null`. -/
def bytesValue (bytes : Option Bytes) : JsonValue := textValue (bytes.map base64.encode)

/-- The raw attributes, each type with its values in base64. -/
def attributesValue (attributes : UnknownAttributes) : JsonValue :=
  .object (attributes.toList.map fun (attributeType, values) =>
    (toString attributeType, .array (values.map fun value => .string (base64.encode value))))

/-- The members of a purchase, in the order they are written. -/
def purchaseFieldValues (purchase : InAppPurchase) : List (String × JsonValue) := [
  ("quantity", numberValue purchase.quantity),
  ("product_id", textValue purchase.productId),
  ("transaction_id", textValue purchase.transactionId),
  ("purchase_date_ms", numberValue purchase.purchaseDateMs),
  ("original_transaction_id", textValue purchase.originalTransactionId),
  ("original_purchase_date_ms", numberValue purchase.originalPurchaseDateMs),
  ("expires_date_ms", numberValue purchase.expiresDateMs),
  ("web_order_line_item_id", idValue purchase.webOrderLineItemId),
  ("cancellation_date_ms", numberValue purchase.cancellationDateMs),
  ("cancellation_reason", numberValue purchase.cancellationReason),
  ("is_trial_period", boolValue purchase.isTrialPeriod),
  ("is_in_intro_offer_period", boolValue purchase.isInIntroOfferPeriod),
  ("unknown_attributes", attributesValue base64 purchase.unknownAttributes)]

/-- The value of a purchase's canonical JSON. -/
def wirePurchase (purchase : InAppPurchase) : JsonValue :=
  .object (purchaseFieldValues base64 purchase)

/-- The members of a payload, in the order they are written. -/
def payloadFieldValues (receipt : ReceiptPayload) : List (String × JsonValue) := [
  ("receipt_type", textValue receipt.receiptType),
  ("app_item_id", idValue receipt.appItemId),
  ("bundle_id", textValue receipt.bundleId),
  ("bundle_id_bytes", bytesValue base64 receipt.bundleIdBytes),
  ("application_version", textValue receipt.applicationVersion),
  ("opaque_value", bytesValue base64 receipt.opaqueValue),
  ("sha1_hash", bytesValue base64 receipt.sha1Hash),
  ("receipt_creation_date_ms", numberValue receipt.receiptCreationDateMs),
  ("download_id", idValue receipt.downloadId),
  ("version_external_identifier", idValue receipt.versionExternalIdentifier),
  ("in_app", .array (receipt.inApp.map (wirePurchase base64))),
  ("original_purchase_date_ms", numberValue receipt.originalPurchaseDateMs),
  ("preorder_date_ms", numberValue receipt.preorderDateMs),
  ("original_application_version", textValue receipt.originalApplicationVersion),
  ("expiration_date_ms", numberValue receipt.expirationDateMs),
  ("unknown_attributes", attributesValue base64 receipt.unknownAttributes)]

/-- The value of a receipt's canonical JSON. -/
def payloadValue (receipt : ReceiptPayload) : JsonValue :=
  .object (payloadFieldValues base64 receipt)

/-- The members of the answer to a receipt that verified. -/
def answerFieldValues (receipt : ReceiptPayload) : List (String × JsonValue) := [
  ("verified", .bool true),
  ("payload", payloadValue base64 receipt),
  ("environment", textValue (receipt.environment.map Environment.asStr))]

/-- The value of the answer for a verified receipt. -/
def answerValue (receipt : ReceiptPayload) : JsonValue :=
  .object (answerFieldValues base64 receipt)

theorem tree_numberValue (n : Option Int) :
    (numberValue n).tree = scalarTree numberTree n := by
  rw [numberValue, tree_ofOption]
  congr

theorem tree_textValue (text : Option String) :
    (textValue text).tree = scalarTree textTree text := by
  rw [textValue, tree_ofOption]
  congr

theorem tree_boolValue (value : Option Bool) :
    (boolValue value).tree = scalarTree Json.bool value := by
  rw [boolValue, tree_ofOption]
  congr

theorem tree_idValue (id : Option Int) : (idValue id).tree = scalarTree idTree id := by
  rw [idValue, tree_textValue]
  cases id <;> rfl

theorem tree_bytesValue (bytes : Option Bytes) :
    (bytesValue base64 bytes).tree = scalarTree (bytesTree base64) bytes := by
  rw [bytesValue, tree_textValue]
  cases bytes <;> rfl

theorem tree_attributesValue (attributes : UnknownAttributes) :
    (attributesValue base64 attributes).tree = attributesTree base64 attributes := by
  rw [attributesValue, tree_object, attributesTree, List.map_map]
  congr 1
  refine List.map_congr_left fun entry _ => ?_
  simp only [Function.comp_apply, tree_array, List.map_map]
  congr 2

theorem tree_wirePurchase (purchase : InAppPurchase) :
    (wirePurchase base64 purchase).tree = purchaseTree base64 purchase := by
  rw [wirePurchase, tree_object, purchaseTree]
  simp only [purchaseFieldValues, purchaseMembers, List.map_cons, List.map_nil, tree_numberValue,
    tree_textValue, tree_boolValue, tree_idValue, tree_attributesValue]

/-- The value of a payload has the tree the core writes. -/
theorem tree_payloadValue (receipt : ReceiptPayload) :
    (payloadValue base64 receipt).tree = payloadTree base64 receipt := by
  have purchases : (JsonValue.array (receipt.inApp.map (wirePurchase base64))).tree =
      .array (receipt.inApp.map (purchaseTree base64)) := by
    rw [tree_array, List.map_map]
    congr 1
    exact List.map_congr_left fun purchase _ => tree_wirePurchase base64 purchase
  rw [payloadValue, tree_object, payloadTree]
  simp only [payloadFieldValues, payloadMembers, List.map_cons, List.map_nil, tree_numberValue,
    tree_textValue, tree_bytesValue, tree_idValue, tree_attributesValue, purchases]

theorem tree_answerValue (receipt : ReceiptPayload) :
    (answerValue base64 receipt).tree = answerTree base64 receipt := by
  rw [answerValue, tree_object, answerTree]
  simp only [answerFieldValues, answerMembers, List.map_cons, List.map_nil, tree_payloadValue,
    tree_textValue,
    JsonValue.tree]

/-- The answer's text is one of its value. -/
theorem text_answerValue (receipt : ReceiptPayload) :
    (answerValue base64 receipt).tree.Text (verifyReceiptResult base64 (.ok receipt)).toList := by
  rw [tree_answerValue]
  exact text_answer base64 receipt

/-- What the core writes of a payload is a text of its value. -/
theorem text_payloadValue (receipt : ReceiptPayload) :
    (payloadValue base64 receipt).tree.Text (receipt.toJson base64).toList := by
  rw [tree_payloadValue]
  exact Json.padded_self (spells_payload base64 receipt)

/-! ## What the decoder can produce -/

/-- The integers of a purchase. -/
def InAppPurchase.integers (purchase : InAppPurchase) : List (Option Int) :=
  [purchase.quantity, purchase.purchaseDateMs, purchase.originalPurchaseDateMs,
    purchase.expiresDateMs, purchase.webOrderLineItemId, purchase.cancellationDateMs,
    purchase.cancellationReason]

/-- The integers of a payload, those of its purchases apart. -/
def ReceiptPayload.integers (receipt : ReceiptPayload) : List (Option Int) :=
  [receipt.appItemId, receipt.receiptCreationDateMs, receipt.downloadId,
    receipt.versionExternalIdentifier, receipt.originalPurchaseDateMs, receipt.preorderDateMs,
    receipt.expirationDateMs]

/-- Every integer there is fits 64 bits. -/
def IntegersFit (integers : List (Option Int)) : Prop := ∀ field ∈ integers, ∀ n ∈ field, IsI64 n

/-- Attribute types are from 0 to 2^31 - 1. -/
def TypesFit (attributes : UnknownAttributes) : Prop := ∀ t : Nat, t ∈ attributes → t < 2 ^ 31

/-- What the decoder of a purchase keeps to. -/
structure PurchaseFits (purchase : InAppPurchase) : Prop where
  integers : IntegersFit purchase.integers
  types : TypesFit purchase.unknownAttributes

/-- The ranges of every payload the decoder makes. -/
structure PayloadFits (receipt : ReceiptPayload) : Prop where
  integers : IntegersFit receipt.integers
  types : TypesFit receipt.unknownAttributes
  inApp : ∀ purchase ∈ receipt.inApp, PurchaseFits purchase

theorem fits_numberValue {n : Option Int} {depth : Nat} (h : ∀ m ∈ n, IsI64 m) :
    (numberValue n).Fits depth := by
  cases n with
  | none => trivial
  | some n => exact h n rfl

theorem fits_textValue (text : Option String) {depth : Nat} : (textValue text).Fits depth := by
  cases text <;> trivial

theorem fits_boolValue (value : Option Bool) {depth : Nat} : (boolValue value).Fits depth := by
  cases value <;> trivial

theorem nodup_attributeNames (attributes : UnknownAttributes) :
    (attributes.toList.map fun entry => toString entry.1).Nodup := by
  have types : (attributes.toList.map Prod.fst).Nodup :=
    (pairwise_attributeTypes attributes).imp Nat.ne_of_lt
  have names := List.Nodup.map toString_injective types
  rwa [List.map_map] at names

/-- The raw attributes are in range: two types have two names. -/
theorem fits_attributesValue (attributes : UnknownAttributes) {depth : Nat} :
    (attributesValue base64 attributes).Fits (depth + 2) := by
  rw [attributesValue, JsonValue.Fits, membersFit_iff, List.map_map]
  refine ⟨nodup_attributeNames attributes, ?_⟩
  intro member mem
  obtain ⟨entry, -, rfl⟩ := List.mem_map.mp mem
  rw [JsonValue.Fits, elementsFit_iff]
  intro value mem
  obtain ⟨bytes, -, rfl⟩ := List.mem_map.mp mem
  trivial

theorem sameValue_attributesValue (attributes : UnknownAttributes) :
    SameValue (attributesValue base64 attributes) (attributesValue base64 attributes) := by
  refine .self ?_ ?_
  · rw [List.map_map]
    exact nodup_attributeNames attributes
  · intro member mem
    obtain ⟨⟨attributeType, values⟩, -, rfl⟩ := List.mem_map.mp mem
    exact .map fun value _ => .string _

theorem nodup_purchaseFieldValues (purchase : InAppPurchase) :
    ((purchaseFieldValues base64 purchase).map Prod.fst).Nodup := by
  simp only [purchaseFieldValues, List.map_cons, List.map_nil]
  decide

theorem nodup_payloadFieldValues (receipt : ReceiptPayload) :
    ((payloadFieldValues base64 receipt).map Prod.fst).Nodup := by
  simp only [payloadFieldValues, List.map_cons, List.map_nil]
  decide

theorem fits_wirePurchase {purchase : InAppPurchase} (h : IntegersFit purchase.integers)
    {depth : Nat} :
    (wirePurchase base64 purchase).Fits (depth + 3) := by
  simp only [IntegersFit, InAppPurchase.integers, List.forall_mem_cons] at h
  obtain ⟨quantity, bought, original, expires, -, cancelled, reason, -⟩ := h
  rw [wirePurchase, JsonValue.Fits, membersFit_iff]
  refine ⟨nodup_purchaseFieldValues base64 purchase, ?_⟩
  simp only [purchaseFieldValues, List.forall_mem_cons, idValue, fits_textValue, fits_boolValue,
    fits_attributesValue, fits_numberValue quantity, fits_numberValue bought,
    fits_numberValue original, fits_numberValue expires, fits_numberValue cancelled,
    fits_numberValue reason, true_and]
  simp

/-- A payload is in range. -/
theorem fits_payloadValue {receipt : ReceiptPayload} (h : PayloadFits receipt) {depth : Nat} :
    (payloadValue base64 receipt).Fits (depth + 5) := by
  have purchases :
      (JsonValue.array (receipt.inApp.map (wirePurchase base64))).Fits (depth + 4) := by
    rw [JsonValue.Fits, elementsFit_iff]
    intro value mem
    obtain ⟨purchase, own, rfl⟩ := List.mem_map.mp mem
    exact fits_wirePurchase base64 (h.inApp purchase own).integers
  have integers := h.integers
  simp only [IntegersFit, ReceiptPayload.integers, List.forall_mem_cons] at integers
  obtain ⟨-, created, -, -, original, preorder, expires, -⟩ := integers
  rw [payloadValue, JsonValue.Fits, membersFit_iff]
  refine ⟨nodup_payloadFieldValues base64 receipt, ?_⟩
  simp only [payloadFieldValues, List.forall_mem_cons, idValue, bytesValue, fits_textValue,
    fits_attributesValue, purchases, fits_numberValue created, fits_numberValue original,
    fits_numberValue preorder, fits_numberValue expires, true_and]
  simp

/-- The answer to a receipt that verified is in range. -/
theorem fits_answerValue {receipt : ReceiptPayload} (h : PayloadFits receipt) {depth : Nat} :
    (answerValue base64 receipt).Fits (depth + 6) := by
  rw [answerValue, JsonValue.Fits, membersFit_iff]
  refine ⟨by simp [answerFieldValues], ?_⟩
  simp only [answerFieldValues, List.forall_mem_cons, fits_payloadValue base64 h, fits_textValue,
    true_and]
  exact ⟨trivial, by simp⟩

end

end ReceiptVerifier
