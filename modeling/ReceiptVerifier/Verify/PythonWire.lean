import ReceiptVerifier.Python.Wire
import ReceiptVerifier.Verify.Hosts
import ReceiptVerifier.Verify.Http
import ReceiptVerifier.Verify.Response

/-!
# The Python host reads back every answer

On the value an answer spells, the readers of `_wire.py` come to what the module answered: a
verified receipt field by field, a verified JWS with its text, and either kind of refusal. What
`to_json` then writes of a receipt is the JSON value the core writes.
-/

namespace ReceiptVerifier

namespace Python.Wire

open Openssl

variable {library : Library} {base64 : Base64}

/-- `json.loads`, `base64` and `int` read what the module writes, and base64 is written alike. -/
structure Reads (base64 : Base64) (library : Library) : Prop where
  texts : ∀ value : JsonValue, value.Fits answerDepth → ∀ text : String,
    value.tree.Text text.toList →
    library.loads text = some value
  decodes : Decodes base64 library.b64decode
  encodes : ∀ bytes, library.b64encode bytes = base64.encode bytes
  int : ∀ n, IsI64 n → library.int (toString n) = some n

/-! ## Values -/

/-- What an object has under a member's name. -/
theorem get_of_nodup {members : List (String × JsonValue)} (nodup : (members.map Prod.fst).Nodup) :
    ∀ field ∈ members, get members field.1 = field.2 := by
  intro field mem
  rw [get, lookup_of_nodup nodup field mem, Option.getD_some]

theorem string_textValue (text : Option String) : string (textValue text) = .ok text := by
  cases text <;> rfl

theorem number_numberValue (n : Option Int) : number (numberValue n) = .ok n := by
  cases n <;> rfl

theorem flag_boolValue (value : Option Bool) : flag (boolValue value) = .ok value := by
  cases value <;> rfl

/-- A refusal reads as its reason and its message. -/
theorem failure_refused (refusal : Failure) :
    failure (refusedFieldValues refusal) = .ok refusal := by
  have known : reasons.find? (fun reason => reason.asStr == refusal.reason.asStr) =
      some refusal.reason := by
    cases refusal.reason <;> rfl
  have fields : get (refusedFieldValues refusal) "reason" = .string refusal.reason.asStr ∧
      get (refusedFieldValues refusal) "message" = .string refusal.message := ⟨rfl, rfl⟩
  rw [failure, fields.1, fields.2]
  dsimp only
  rw [known]

/-- The environment of an answer reads as the one stated. -/
theorem environment_eq {members : List (String × JsonValue)} {stated : Option Environment}
    (carried : members.lookup "environment" = some (textValue (stated.map Environment.asStr))) :
    environment members = .ok stated := by
  rw [environment, carried]
  rcases stated with _ | _ | _ <;> rfl

section

variable (reads : Reads base64 library)

include reads

/-- A text of an object in range is read as the object. -/
theorem object_eq {members : List (String × JsonValue)} {text : String}
    (fits : (JsonValue.object members).Fits answerDepth)
    (spelt : (JsonValue.object members).tree.Text text.toList) :
    object library text = .ok members := by
  rw [object, reads.texts _ fits _ spelt]

/-- An id is `int` of its decimal string. -/
theorem id_idValue {value : Option Int} (h : ∀ n ∈ value, IsI64 n) :
    Wire.id library (idValue value) = .ok value := by
  rw [Wire.id, idValue, string_textValue, ok_bind]
  cases value with
  | none => rfl
  | some n =>
    rw [Option.map_some]
    dsimp only
    rw [reads.int n (h n rfl)]
    rfl

theorem octets_bytesValue (value : Option Bytes) :
    octets library (bytesValue base64 value) = .ok value := by
  rw [octets, bytesValue, string_textValue, ok_bind]
  cases value with
  | none => rfl
  | some value =>
    rw [Option.map_some]
    dsimp only
    rw [reads.decodes]
    rfl

theorem requiredOctets_eq (value : Bytes) :
    requiredOctets library (.string (base64.encode value)) = .ok value := by
  have own := octets_bytesValue reads (some value)
  rw [bytesValue, textValue, Option.map_some, JsonValue.ofOption] at own
  rw [requiredOctets, own, ok_bind]
  rfl

/-- The raw attributes come out under their types. -/
theorem unknown_attributesValue {attributes : UnknownAttributes} (types : TypesFit attributes) :
    unknown library (attributesValue base64 attributes) =
      .ok (Host.rawAttributes attributes) := by
  refine Host.loop_puts (l := fun entries out => unknownLoop library (entries.map _) out)
    (d := .ok) (fun _ => rfl) attributes.toList [] ?_ ?_
  · rintro ⟨attributeType, list⟩ mem rest out
    have name : toString attributeType = toString (attributeType : Int) := rfl
    have values : (list.map fun value => JsonValue.string (base64.encode value)).mapM
        (requiredOctets library) = .ok (list.map fun value => value) :=
      mapM_eq fun value _ => requiredOctets_eq reads value
    rw [List.map_cons, unknownLoop, values, ok_bind, List.map_id', name,
      reads.int _ (isI64_attributeType (types.lt mem))]
  · rw [List.nil_append, List.map_map]
    exact nodup_attributeTypes attributes

/-- A purchase comes out as the core has it. -/
theorem inApp_wirePurchase {purchase : InAppPurchase} (h : PurchaseFits purchase) :
    inApp library (wirePurchase base64 purchase) = .ok (Host.InAppPurchase.ofCore purchase) := by
  have lineFits : ∀ n ∈ purchase.webOrderLineItemId, IsI64 n :=
    h.integers _ (by simp [InAppPurchase.integers])
  have fields := get_of_nodup (nodup_purchaseFieldValues base64 purchase)
  nth_rewrite 1 [purchaseFieldValues] at fields
  simp only [List.forall_mem_cons] at fields
  obtain ⟨quantity, product, transaction, purchased, originalTransaction, original, expires,
    webOrder, cancelled, reason, trial, intro, attributes, -⟩ := fields
  simp only [inApp, wirePurchase, ok_bind, quantity, product, transaction, purchased,
    originalTransaction, original, expires, webOrder, cancelled, reason, trial, intro, attributes,
    string_textValue, flag_boolValue, number_numberValue, id_idValue reads lineFits,
    unknown_attributesValue reads h.types]
  rfl

/-- A payload comes out as the core has it. -/
theorem receiptPayload_payloadValue {payload : ReceiptPayload} (h : PayloadFits payload) :
    receiptPayload library (payloadValue base64 payload) payload.environment =
      .ok (Host.ReceiptPayload.ofCore payload) := by
  have integers := h.integers
  simp only [IntegersFit, ReceiptPayload.integers, List.forall_mem_cons] at integers
  obtain ⟨itemFits, -, downloadFits, versionFits, -⟩ := integers
  have purchases : (payload.inApp.map (wirePurchase base64)).mapM (inApp library) =
      .ok (payload.inApp.map Host.InAppPurchase.ofCore) :=
    mapM_eq fun purchase mem => inApp_wirePurchase reads (h.inApp purchase mem)
  have fields := get_of_nodup (nodup_payloadFieldValues base64 payload)
  nth_rewrite 1 [payloadFieldValues] at fields
  simp only [List.forall_mem_cons] at fields
  obtain ⟨type, item, bundle, bundleBytes, version, opaqueBytes, hash, created, download, external,
    bought, original, preorder, originalVersion, expires, attributes, -⟩ := fields
  simp only [receiptPayload, payloadValue, ok_bind, type, item, bundle, bundleBytes, version,
    opaqueBytes, hash, created, download, external, bought, original, preorder, originalVersion,
    expires, attributes, purchaseList, purchases, string_textValue, number_numberValue,
    octets_bytesValue reads, id_idValue reads itemFits, id_idValue reads downloadFits,
    id_idValue reads versionFits, unknown_attributesValue reads h.types]
  rfl

/-! ## Answers -/

variable {α : Type} {payload : JsonValue → Option Environment → Except ShapeError α}

/-- The answer to what was refused reads as the refusal. -/
theorem result_refused (refusal : Failure) :
    result library (refused refusal) payload = .ok (.error refusal) := by
  rw [result, object_eq reads (fits_refusedValue refusal) (text_refusedValue refusal), ok_bind,
    failure_refused]
  rfl

/-- The answer to a receipt reads as the verdict on it. -/
theorem receiptResult_eq {answer : Except Failure ReceiptPayload}
    (fits : ∀ receipt, answer = .ok receipt → PayloadFits receipt) :
    receiptResult library (verifyReceiptResult base64 answer) =
      .ok (answer.map Host.ReceiptPayload.ofCore) := by
  cases answer with
  | error refusal => exact result_refused reads refusal
  | ok receipt =>
    have fits := fits receipt rfl
    have stated : environment (answerFieldValues base64 receipt) = .ok receipt.environment :=
      environment_eq rfl
    rw [receiptResult, result, object_eq reads (fits_answerValue base64 fits)
      (text_answerValue base64 receipt), ok_bind]
    change (do
      let environment ← environment (answerFieldValues base64 receipt)
      pure (Except.ok (← receiptPayload library (payloadValue base64 receipt) environment))) = _
    rw [stated, ok_bind, receiptPayload_payloadValue reads fits]
    rfl

/-- The answer to a JWS reads as the verdict on it. -/
theorem signedDataResult_eq (answer : Except Failure JsonPayload) :
    signedDataResult library (verifySignedDataResult answer) = .ok answer := by
  cases answer with
  | error refusal => exact result_refused reads refusal
  | ok payload =>
    have stated : environment (signedFieldValues payload) = .ok payload.environment :=
      environment_eq rfl
    rw [signedDataResult, result, object_eq reads (fits_signedValue payload)
      (text_signedValue payload), ok_bind]
    change (do
      let environment ← environment (signedFieldValues payload)
      pure (Except.ok (← signedPayload (.string payload.json) environment))) = _
    rw [stated, ok_bind]
    rfl

/-- An endpoint answer with a status is handed on as it is. -/
theorem endpointAnswer_eq {text : String} {members : List (String × JsonValue)}
    (responds : RespondsWith text members) : endpointAnswer library text = .ok text := by
  obtain ⟨rfl, fits, n, stated⟩ := responds
  have spelt := Json.padded_self (spells_display fits)
  rw [endpointAnswer, object_eq reads fits spelt, ok_bind, get, stated]
  rfl

/-! ## The answer of `init` -/

theorem object_initAcceptance : object library (initResult (.ok ())) =
    .ok [("ok", .bool true), ("max_input_bytes", .number ReceiptVerifier.maxInputBytes)] :=
  object_eq reads fits_initAcceptance text_initAcceptance

theorem object_initRefusal (message : String) : object library (initResult (.error message)) =
    .ok [("ok", .bool false), ("message", .string message)] :=
  object_eq reads (fits_initRefusal message) (text_initRefusal message)

/-- What `init` answered is read as it was meant. -/
theorem initAccepted_eq (made : Except String Unit) :
    initAccepted library (initResult made) =
      made.toOption.map fun _ => ReceiptVerifier.maxInputBytes := by
  cases made with
  | ok _ =>
    rw [initAccepted, object_initAcceptance reads]
    rfl
  | error message =>
    rw [initAccepted, object_initRefusal reads]
    rfl

theorem checkInit_error (message : String) :
    checkInit library (initResult (.error message)) = .ok (some message) := by
  rw [checkInit, object_initRefusal reads]
  rfl

end

/-! ## `to_json` -/

section

variable (encodes : ∀ bytes, library.b64encode bytes = base64.encode bytes)

include encodes

/-- The attributes are in order already. -/
theorem attributesJson_rawAttributes (attributes : UnknownAttributes) :
    attributesJson library (Host.rawAttributes attributes) = attributesValue base64 attributes := by
  have ordered : (Host.rawAttributes attributes).Pairwise fun a b => a.1 ≤ b.1 := by
    have types := List.pairwise_map.mp (pairwise_attributeTypes attributes)
    rw [Host.rawAttributes, List.pairwise_map]
    exact types.imp fun below => Int.ofNat_le.mpr (Nat.le_of_lt below)
  have sorted : (Host.rawAttributes attributes).mergeSort (fun a b => a.1 ≤ b.1) =
      Host.rawAttributes attributes :=
    List.mergeSort_of_pairwise (ordered.imp decide_eq_true)
  rw [attributesJson, sorted, Host.rawAttributes, List.map_map, attributesValue]
  simp only [Function.comp_def, encodes]
  rfl

/-- `to_json` of a purchase is what the core writes of it. -/
theorem jsonValue_ofCore (purchase : InAppPurchase) :
    jsonValue library (Host.InAppPurchase.ofCore purchase) = wirePurchase base64 purchase := by
  rw [jsonValue, wirePurchase, purchaseFieldValues, Host.InAppPurchase.ofCore]
  simp only [attributesJson_rawAttributes encodes, optional, idJson, numberValue, textValue,
    idValue,
    boolValue]

/-- What `to_json` writes of the payload read back is the core's, member by member. -/
theorem toJson_ofCore (payload : ReceiptPayload) :
    toJson library (Host.ReceiptPayload.ofCore payload) = payloadValue base64 payload := by
  rw [toJson, payloadValue, payloadFieldValues, Host.ReceiptPayload.ofCore]
  simp only [attributesJson_rawAttributes encodes, optional, idJson, base64Json, List.map_map,
    Function.comp_def, jsonValue_ofCore encodes, numberValue, textValue, idValue, bytesValue,
    funext encodes]

end

/-! ## The text of `to_json` -/

/-- Two bodies after each other spell what both spell. -/
theorem spellsBody_append {units units' : List UInt16} {body body' : List Char}
    (front : Json.SpellsBody units body) (rest : Json.SpellsBody units' body') :
    Json.SpellsBody (units ++ units') (body ++ body') := by
  induction front with
  | nil => exact rest
  | cons head _ ih =>
    rw [List.append_assoc, List.append_assoc]
    exact .cons head ih

theorem hexUnit_escapeUnit (unit : UInt16) :
    Json.hexUnit (hexDigit (unit.toNat / 0x1000)) (hexDigit (unit.toNat / 0x100 % 0x10))
      (hexDigit (unit.toNat / 0x10 % 0x10)) (hexDigit (unit.toNat % 0x10)) = some unit := by
  have bound := unit.toNat_lt
  have whole : ((unit.toNat / 0x1000 * 16 + unit.toNat / 0x100 % 0x10) * 16 +
      unit.toNat / 0x10 % 0x10) * 16 + unit.toNat % 0x10 = unit.toNat := by omega
  simp only [Json.hexUnit, hexValue_hexDigit (unit.toNat / 0x1000) (by omega),
    hexValue_hexDigit (unit.toNat / 0x100 % 0x10) (by omega),
    hexValue_hexDigit (unit.toNat / 0x10 % 0x10) (by omega),
    hexValue_hexDigit (unit.toNat % 0x10) (by omega), Option.bind_eq_bind, Option.bind_some, whole,
    UInt16.ofNat_toNat, Option.pure_def]

theorem spellsBody_escapeUnits (units : List UInt16) :
    Json.SpellsBody units (units.flatMap escapeUnit) := by
  induction units with
  | nil => exact .nil
  | cons unit units ih => exact .cons (.hex _ _ _ _ unit (hexUnit_escapeUnit unit)) ih

/-- The escape of a character spells its code units. -/
theorem spellsBody_escapeAscii (c : Char) :
    Json.SpellsBody (Utf16.encodeChar c) (escapeAscii c) := by
  have one : ∀ {text : List Char}, Json.SpellsChar (Utf16.encodeChar c) text →
      Json.SpellsBody (Utf16.encodeChar c) text := by
    intro text spelt
    simpa using Json.SpellsBody.cons spelt .nil
  unfold escapeAscii
  split
  next same => exact one (spellsChar_short (n := 0x22) (by decide) rfl (by simp_all))
  next notQuote =>
    split
    next same => exact one (spellsChar_short (n := 0x5c) (by decide) rfl (by simp_all))
    next notBackslash =>
      simp only [beq_iff_eq] at notQuote notBackslash ⊢
      split
      next same => exact one (spellsChar_short (by decide) rfl same)
      split
      next same => exact one (spellsChar_short (by decide) rfl same)
      split
      next same => exact one (spellsChar_short (by decide) rfl same)
      split
      next same => exact one (spellsChar_short (by decide) rfl same)
      split
      next same => exact one (spellsChar_short (by decide) rfl same)
      split
      next printable =>
        refine one (.raw c ?_)
        simp only [Json.isUnescaped, Bool.and_eq_true, decide_eq_true_eq, bne_iff_ne]
        exact ⟨⟨printable.1, notQuote⟩, notBackslash⟩
      next => exact spellsBody_escapeUnits _

/-- A text that `json.dumps` quotes spells the text. -/
theorem quotes_quoteAscii : Quotes quoteAscii := by
  intro text
  have body : Json.SpellsBody (codeUnits text) (text.toList.flatMap escapeAscii) := by
    unfold codeUnits Utf16.encode
    induction text.toList with
    | nil => exact .nil
    | cons c rest ih => exact spellsBody_append (spellsBody_escapeAscii c) ih
  rw [textTree, Json.Spells]
  exact ⟨_, body, by simp [quoteAscii]⟩

/-! ## The text is ASCII -/

theorem isAscii_append {text text' : List Char} (front : IsAscii text) (rest : IsAscii text') :
    IsAscii (text ++ text') :=
  List.forall_mem_append.mpr ⟨front, rest⟩

theorem isAscii_intercalate {texts : List String} (h : ∀ text ∈ texts, IsAscii text.toList) :
    IsAscii (",".intercalate texts).toList := by
  rw [String.toList_intercalate]
  cases texts with
  | nil => exact List.forall_mem_nil _
  | cons text texts =>
    have comma : ",".toList = [','] := rfl
    rw [List.map_cons, comma, Json.intercalate_cons]
    refine isAscii_append (h text List.mem_cons_self) fun c mem => ?_
    obtain ⟨other, mem, own⟩ := List.mem_flatMap.mp mem
    obtain ⟨text', mem', rfl⟩ := List.mem_map.mp mem
    rcases List.mem_cons.mp own with rfl | own
    · decide
    · exact h text' (List.mem_cons_of_mem _ mem') c own

theorem isAscii_repr (n : Nat) : IsAscii n.repr.toList := by
  intro c mem
  rw [Nat.toList_repr] at mem
  have digit := isDigit_iff.mp (Nat.isDigit_of_mem_toDigits (by decide) (by decide) mem)
  omega

theorem isAscii_toString (n : Int) : IsAscii (toString n).toList := by
  rw [Int.toString_eq_repr]
  cases n with
  | ofNat n => exact isAscii_repr n
  | negSucc n =>
    rw [Int.repr, String.toList_append]
    exact isAscii_append (by simp [IsAscii]) (isAscii_repr n.succ)

theorem hexDigit_ascii : ∀ n < 16, (hexDigit n).toNat < 0x80 := by decide

/-- An escape is printable ASCII. -/
theorem isAscii_escapeUnit (unit : UInt16) : IsAscii (escapeUnit unit) := by
  have bound := unit.toNat_lt
  simp only [IsAscii, escapeUnit, List.forall_mem_cons, List.not_mem_nil, false_implies,
    implies_true, and_true]
  exact ⟨by decide, by decide, hexDigit_ascii _ (by omega), hexDigit_ascii _ (by omega),
    hexDigit_ascii _ (by omega), hexDigit_ascii _ (by omega)⟩

theorem isAscii_escapeAscii (c : Char) : IsAscii (escapeAscii c) := by
  have letter : ∀ letter ∈ ['"', '\\', 'b', 't', 'n', 'f', 'r'], IsAscii ['\\', letter] := by
    simp [IsAscii]
  unfold escapeAscii
  iterate 7
    split
    · exact letter _ (by decide)
  split
  next printable =>
    refine List.forall_mem_singleton.mpr ?_
    omega
  next =>
    intro d mem
    obtain ⟨unit, -, own⟩ := List.mem_flatMap.mp mem
    exact isAscii_escapeUnit unit d own

theorem isAscii_quoteAscii (text : String) : IsAscii (quoteAscii text).toList := by
  have body : IsAscii (text.toList.flatMap escapeAscii) := by
    intro d mem
    obtain ⟨c, -, own⟩ := List.mem_flatMap.mp mem
    exact isAscii_escapeAscii c d own
  rw [quoteAscii, String.toList_append, String.toList_append]
  refine isAscii_append (isAscii_append (by simp [IsAscii]) ?_) (by simp [IsAscii])
  rwa [String.toList_ofList]

mutual

/-- What is written of a value in range is ASCII. -/
theorem isAscii_dumps : ∀ {value : JsonValue} {depth : Nat}, value.Fits depth →
    IsAscii (dumps value).toList
  | .null, _, _ => by rw [dumps, JsonValue.displayWith]; simp [IsAscii]
  | .bool value, _, _ => by
    rw [dumps, JsonValue.displayWith]
    cases value <;> simp [IsAscii, toString]
  | .number n, _, _ => by
    rw [dumps, JsonValue.displayWith]
    exact isAscii_toString n
  | .float _, _, fits => by rw [JsonValue.Fits] at fits; exact fits.elim
  | .string text, _, _ => by
    rw [dumps, JsonValue.displayWith]
    exact isAscii_quoteAscii text
  | .array _, 0, fits => fits.elim
  | .object _, 0, fits => fits.elim
  | .array elements, depth + 1, fits => by
    rw [JsonValue.Fits] at fits
    rw [dumps, JsonValue.displayWith, String.toList_append, String.toList_append]
    refine isAscii_append (isAscii_append (by simp [IsAscii]) ?_) (by simp [IsAscii])
    exact isAscii_intercalate (isAscii_elements fits)
  | .object members, depth + 1, fits => by
    rw [JsonValue.Fits] at fits
    rw [dumps, JsonValue.displayWith, String.toList_append, String.toList_append]
    refine isAscii_append (isAscii_append (by simp [IsAscii]) ?_) (by simp [IsAscii])
    exact isAscii_intercalate (isAscii_members fits.2)

theorem isAscii_elements : ∀ {values : List JsonValue} {depth : Nat},
    JsonValue.ElementsFit values depth →
      ∀ text ∈ JsonValue.displayElementsWith quoteAscii values, IsAscii text.toList
  | [], _, _ => List.forall_mem_nil _
  | value :: values, _, fits => by
    rw [JsonValue.ElementsFit] at fits
    rw [JsonValue.displayElementsWith]
    exact List.forall_mem_cons.mpr ⟨isAscii_dumps fits.1, isAscii_elements fits.2⟩

theorem isAscii_members : ∀ {members : List (String × JsonValue)} {depth : Nat},
    JsonValue.MembersFit members depth →
      ∀ text ∈ JsonValue.displayMembersWith quoteAscii members, IsAscii text.toList
  | [], _, _ => List.forall_mem_nil _
  | (name, value) :: members, _, fits => by
    rw [JsonValue.MembersFit] at fits
    rw [JsonValue.displayMembersWith]
    refine List.forall_mem_cons.mpr ⟨?_, isAscii_members fits.2⟩
    rw [String.toList_append, String.toList_append]
    exact isAscii_append (isAscii_append (isAscii_quoteAscii name) (by simp [IsAscii]))
      (isAscii_dumps fits.1)

end

/-! ## Every answer -/

/-- **The Python host reads back every answer.** Whatever the core decided of a receipt or of a JWS,
the readers come to it, and the endpoint's body is handed on as it is. What `to_json` then writes of
a receipt is ASCII, and a text of the value that the core's own text spells. -/
theorem reads_back (reads : Reads base64 library) (ssl : OpenSsl) (jiff : Jiff) (json : SerdeJson)
    (anchors : List TrustAnchor) (input : Bytes) (now : Int) :
    let receipt := Verifier.verifyReceiptBytesAt ssl jiff base64 anchors input now
    let signed := Verifier.verifySignedDataBytesAt ssl base64 json anchors input now
    receiptResult library (verifyReceiptResult base64 receipt) =
        .ok (receipt.map Host.ReceiptPayload.ofCore) ∧
      signedDataResult library (verifySignedDataResult signed) = .ok signed ∧
      (∀ environment,
        let body := Verifier.verifyReceiptEndpointBytesAt ssl jiff base64 json anchors environment
          input now
        endpointAnswer library body = .ok body) ∧
      ∀ payload, receipt = .ok payload →
        let text := dumps (toJson library (Host.ReceiptPayload.ofCore payload))
        IsAscii text.toList ∧
          ∃ value, library.loads text = some value ∧
            library.loads (payload.toJson base64) = some value := by
  dsimp only
  have fits : ∀ payload, Verifier.verifyReceiptBytesAt ssl jiff base64 anchors input now =
      .ok payload → PayloadFits payload := fun _ => payloadFits_verifyReceiptBytesAt
  refine ⟨receiptResult_eq reads fits, signedDataResult_eq reads _, fun environment => ?_,
    fun payload verified => ?_⟩
  · obtain ⟨members, responds⟩ := respondsWith_endpoint ssl jiff base64 json anchors environment
      input fun _ => some now
    exact endpointAnswer_eq reads responds
  · have inRange : (payloadValue base64 payload).Fits answerDepth :=
      fits_payloadValue base64 (fits payload verified)
    rw [toJson_ofCore reads.encodes]
    refine ⟨isAscii_dumps inRange, payloadValue base64 payload, ?_, ?_⟩
    · exact reads.texts _ inRange _
        (Json.padded_self (spells_displayWith quotes_quoteAscii inRange))
    · exact reads.texts _ inRange _ (text_payloadValue base64 payload)

end Python.Wire

namespace Sample

/-- The standard library by its documents. -/
def pythonLibrary : Python.Library where
  loads := parseText
  b64decode := decodeBase64
  b64encode := standardBase64.encode
  int text := parseI64 text.toList

/-- Readers that follow the standards. -/
theorem pythonReads : Python.Wire.Reads standardBase64 pythonLibrary where
  texts _ fits _ spelt := parseText_eq fits spelt
  decodes := decodeBase64_encode
  encodes _ := rfl
  int _ fits := parseI64_toString fits

end Sample

theorem reads_back_dated : ∃ payload,
    Verifier.verifyReceiptBytesAt Sample.datedSsl .gregorian Sample.standardBase64 Sample.anchors
      (utf8 "MAA=") 0 = .ok payload ∧
    Python.Wire.receiptResult Sample.pythonLibrary
      (verifyReceiptResult Sample.standardBase64 (.ok payload)) =
        .ok (.ok (Host.ReceiptPayload.ofCore payload)) ∧
    IsAscii (Python.Wire.dumps (Python.Wire.toJson Sample.pythonLibrary
      (Host.ReceiptPayload.ofCore payload))).toList := by
  have accepted : (Verifier.verifyReceiptBytesAt Sample.datedSsl .gregorian Sample.standardBase64
      Sample.anchors (utf8 "MAA=") 0).toOption.isSome = true := by decide +kernel
  obtain ⟨read, -, -, written⟩ :=
    Python.Wire.reads_back Sample.pythonReads Sample.datedSsl .gregorian
    Sample.initJson Sample.anchors (utf8 "MAA=") 0
  cases verified : Verifier.verifyReceiptBytesAt Sample.datedSsl .gregorian Sample.standardBase64
      Sample.anchors (utf8 "MAA=") 0 with
  | error failure =>
    rw [verified] at accepted
    cases accepted
  | ok payload =>
    rw [verified] at read
    exact ⟨payload, rfl, read, (written payload verified).1⟩

end ReceiptVerifier
