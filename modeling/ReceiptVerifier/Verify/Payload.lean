import ReceiptVerifier.Lib.Merge
import ReceiptVerifier.Payload

/-!
# What the payload decoder keeps

Both tables of the decoder are `FirstCopy` passes. `receiptFields` and `inAppFields` say what a
payload and a purchase show of each attribute type; the closed form of a pass then gives each typed
field from the first copy of its type, and that no value is lost, doubled or moved.
-/

namespace ReceiptVerifier

open Openssl FirstCopy

variable {ssl : OpenSsl} {jiff : Jiff}

/-- A value a typed field can hold. -/
inductive FieldValue where
  | text (s : String)
  | number (n : Int)
  | flag (b : Bool)
  | octets (b : Bytes)
  | purchase (p : InAppPurchase)

/-- What an optional field shows: its value, or nothing. -/
def shows {α : Type} (c : α → FieldValue) (o : Option α) : List FieldValue := (o.map c).toList

@[simp] theorem shows_none {α : Type} (c : α → FieldValue) : shows c none = [] := rfl

@[simp] theorem shows_some {α : Type} (c : α → FieldValue) (a : α) : shows c (some a) = [c a] := rfl

/-- The values of one type, in receipt order. -/
def valuesOf (attributes : List Attribute) (t : Nat) : List Bytes :=
  (attributes.filter fun attr => attr.attributeType = t).map Attribute.value

/-- The first copy of a type. -/
def firstOf (attributes : List Attribute) (t : Nat) : Option Bytes := (valuesOf attributes t).head?

/-! ## Raw values -/

theorem getD_keepRaw (unknown : UnknownAttributes) (attr : Attribute) (t : Nat) :
    (keepRaw unknown attr).getD t [] =
      if t = attr.attributeType then unknown.getD t [] ++ [attr.value] else unknown.getD t [] := by
  rw [keepRaw, Std.ExtTreeMap.getD_insert]
  by_cases same : t = attr.attributeType
  · simp [same]
  · have : ¬ attr.attributeType = t := fun h => same h.symm
    simp [same, this]

/-- A key is there only with values. -/
def NoEmptyValues (unknown : UnknownAttributes) : Prop := ∀ t : Nat, unknown[t]? ≠ some []

theorem noEmptyValues_empty : NoEmptyValues ∅ := by simp [NoEmptyValues]

theorem NoEmptyValues.keepRaw {unknown : UnknownAttributes} (h : NoEmptyValues unknown)
    (attr : Attribute) : NoEmptyValues (keepRaw unknown attr) := by
  intro t
  rw [ReceiptVerifier.keepRaw, Std.ExtTreeMap.getElem?_insert]
  split
  · simp
  · exact h t

/-- Maps without empty lists are told apart by the lists they give. -/
theorem NoEmptyValues.ext {unknown unknown' : UnknownAttributes} (h : NoEmptyValues unknown)
    (h' : NoEmptyValues unknown') (same : ∀ t, unknown.getD t [] = unknown'.getD t []) :
    unknown = unknown' := by
  refine Std.ExtTreeMap.ext_getElem? fun {t} => ?_
  have same := same t
  have some := h t
  have some' := h' t
  rw [Std.ExtTreeMap.getD_eq_getD_getElem?, Std.ExtTreeMap.getD_eq_getD_getElem?] at same
  cases values : unknown[t]? <;> cases values' : unknown'[t]? <;> simp_all

/-! ## Dates -/

theorem date_eq_some_none {v : Bytes} :
    date ssl jiff v = some none ↔ decodeString ssl v = some "" := by
  unfold date
  cases decodeString ssl v with
  | none => simp
  | some text =>
    by_cases empty : text = ""
    · simp [empty]
    · simp [String.isEmpty_iff, empty]

/-- The first copy of a date attribute holds an empty string: "not set". -/
def emptyDate (ssl : OpenSsl) (dates : List Nat) (t : Nat) (first : Option Bytes) : Bool :=
  dates.contains t && first.any fun v => decodeString ssl v == some ""

/-! ## Passes over attributes -/

section

variable {σ : Type} {r : Reader Attribute Nat σ} {f : r.Fields Bytes FieldValue}
  {d : Nat → Bytes → Option (List FieldValue)} {dates : List Nat}

/-- The pass is over attributes by type, decodes each value by its type, and shows nothing of a
decoded value only for an empty date. -/
structure Reads (ssl : OpenSsl) (f : r.Fields Bytes FieldValue)
    (d : Nat → Bytes → Option (List FieldValue)) (dates : List Nat) : Prop where
  key : r.key = Attribute.attributeType
  value : f.value = Attribute.value
  decode : f.decode = fun attr => d attr.attributeType attr.value
  empty : ∀ t v, (d t v).any List.isEmpty = emptyDate ssl dates t (some v)

theorem Reads.map_copies (reads : Reads ssl f d dates) (attributes : List Attribute) (t : Nat) :
    (f.copies t attributes).map f.value = valuesOf attributes t := by
  rw [Reader.Fields.copies, reads.key, reads.value]
  rfl

theorem Reads.head_decode (reads : Reads ssl f d dates) (attributes : List Attribute) (t : Nat) :
    (f.copies t attributes).head?.bind f.decode = (firstOf attributes t).bind (d t) := by
  rw [firstOf, ← reads.map_copies, reads.decode, reads.value, Reader.Fields.copies, reads.key]
  cases copies : attributes.filter fun attr => decide (attr.attributeType = t) with
  | nil => rfl
  | cons attr rest =>
    have mem : attr ∈ attributes.filter fun attr => decide (attr.attributeType = t) := by
      rw [copies]
      exact List.mem_cons_self
    have own : attr.attributeType = t := by simpa using (List.mem_filter.mp mem).2
    simp [own]

section

variable (reads : Reads ssl f d dates) (attributes : List Attribute) {s : σ}
  (fresh : ∀ t, f.field s t = []) {t : Nat} (once : r.repeats t = false)

include reads fresh once

/-- What is shown of a type is what its first copy decodes to. -/
theorem Reads.field_eq :
    f.field (r.run attributes s) t = ((firstOf attributes t).bind (d t)).getD [] := by
  rw [f.run_field_once attributes fresh once, reads.head_decode]

omit fresh in
/-- The raw values of a type: the first copy, if it does not decode, and the later ones. -/
theorem Reads.raw_eq (unkept : ∀ t, f.raw s t = []) :
    f.raw (r.run attributes s) t =
      ((firstOf attributes t).filter fun v => (d t v).isNone).toList ++
        (valuesOf attributes t).drop 1 := by
  have decodes := reads.head_decode attributes t
  rw [f.run_raw attributes unkept, firstOf, ← reads.map_copies, Reader.Fields.left, once,
    if_neg Bool.false_ne_true, List.map_append, List.map_drop]
  congr 1
  rw [firstOf, ← reads.map_copies] at decodes
  cases copies : f.copies t attributes with
  | nil => rfl
  | cons attr rest =>
    have own : f.decode attr = d t (f.value attr) := by simpa [copies] using decodes
    cases decoded : d t (f.value attr) <;> simp [Reader.Fields.decodes, own, decoded, Option.filter]

/-- The values of a type: the first copy, if it is shown or an empty date, and the raw ones. -/
theorem Reads.valuesOf_eq (unkept : ∀ t, f.raw s t = []) :
    valuesOf attributes t = (if !(f.field (r.run attributes s) t).isEmpty ||
        emptyDate ssl dates t (firstOf attributes t) then (valuesOf attributes t).take 1 else []) ++
      f.raw (r.run attributes s) t := by
  have copies := congrArg (List.map f.value) (f.copies_eq attributes fresh once)
  have empty : ((firstOf attributes t).bind (d t)).any List.isEmpty =
      emptyDate ssl dates t (firstOf attributes t) := by
    cases firstOf attributes t with
    | none => simp [emptyDate]
    | some v => exact reads.empty t v
  rw [List.map_append, reads.head_decode, empty, ← f.run_raw attributes unkept,
    apply_ite (List.map f.value), List.map_take, List.map_nil, reads.map_copies] at copies
  exact copies

end

end

/-! ## Purchases -/

/-- What a purchase shows of a type. -/
def InAppPurchase.field (purchase : InAppPurchase) : Nat → List FieldValue
  | iapQuantity => shows .number purchase.quantity
  | iapProductId => shows .text purchase.productId
  | iapTransactionId => shows .text purchase.transactionId
  | iapPurchaseDate => shows .number purchase.purchaseDateMs
  | iapOriginalTransactionId => shows .text purchase.originalTransactionId
  | iapOriginalPurchaseDate => shows .number purchase.originalPurchaseDateMs
  | iapExpiresDate => shows .number purchase.expiresDateMs
  | iapWebOrderLineItemId => shows .number purchase.webOrderLineItemId
  | iapCancellationReason => shows .number purchase.cancellationReason
  | iapCancellationDate => shows .number purchase.cancellationDateMs
  | iapIsTrialPeriod => shows .flag purchase.isTrialPeriod
  | iapIsInIntroOfferPeriod => shows .flag purchase.isInIntroOfferPeriod
  | _ => []

/-- The types of a purchase that hold dates. -/
def inAppDates : List Nat :=
  [iapPurchaseDate, iapOriginalPurchaseDate, iapExpiresDate, iapCancellationDate]

/-- What a value of a type decodes to, for a purchase. -/
def inAppDecode (ssl : OpenSsl) (jiff : Jiff) (t : Nat) (v : Bytes) : Option (List FieldValue) :=
  match t with
  | iapQuantity | iapWebOrderLineItemId | iapCancellationReason =>
    (decodeInteger ssl v).map fun n => [.number n]
  | iapProductId | iapTransactionId | iapOriginalTransactionId =>
    (decodeString ssl v).map fun s => [.text s]
  | iapPurchaseDate | iapOriginalPurchaseDate | iapExpiresDate | iapCancellationDate =>
    (date ssl jiff v).map (shows .number)
  | iapIsTrialPeriod | iapIsInIntroOfferPeriod =>
    (decodeInteger ssl v).map fun n => [.flag (n != 0)]
  | _ => none

/-- A date shows nothing only when it is an empty string. -/
theorem any_isEmpty_date (v : Bytes) :
    ((date ssl jiff v).map (shows FieldValue.number)).any List.isEmpty =
      (decodeString ssl v == some "") := by
  rw [Bool.eq_iff_iff, beq_iff_eq, ← @date_eq_some_none ssl jiff]
  rcases date ssl jiff v with _ | _ | millis <;> simp

theorem any_isEmpty_singleton {α : Type} (o : Option α) (c : α → FieldValue) :
    (o.map fun a => [c a]).any List.isEmpty = false := by
  cases o <;> rfl

/-- An arm that decodes a value and puts it somewhere. -/
theorem map_cases {β σ δ : Type} {o : Option β} {put : β → σ} {shown : β → δ} {P : σ → δ → Prop}
    (h : ∀ b, P (put b) (shown b)) :
    (o.map put = none ∧ o.map shown = none) ∨
      ∃ s l, o.map put = some s ∧ o.map shown = some l ∧ P s l := by
  cases o with
  | none => exact .inl ⟨rfl, rfl⟩
  | some b => exact .inr ⟨put b, shown b, rfl, rfl, h b⟩

theorem InAppPurchase.assign_spec (purchase : InAppPurchase) (attr : Attribute) :
    (purchase.assign ssl jiff attr = none ∧
      inAppDecode ssl jiff attr.attributeType attr.value = none) ∨
    ∃ purchase' l, purchase.assign ssl jiff attr = some purchase' ∧
      inAppDecode ssl jiff attr.attributeType attr.value = some l ∧
      purchase'.unknownAttributes = purchase.unknownAttributes ∧
      ∀ t, purchase'.field t = if t = attr.attributeType then l else purchase.field t := by
  unfold InAppPurchase.assign inAppDecode
  generalize attr.attributeType = own
  split
  case h_13 =>
    refine .inl ⟨rfl, ?_⟩
    split <;> first | rfl | contradiction
  all_goals
    refine map_cases fun b => ⟨rfl, fun t => ?_⟩
    unfold InAppPurchase.field
    split <;> first | exact (if_neg (by assumption)).symm | simp_all

theorem inAppDecode_any_isEmpty (t : Nat) (v : Bytes) :
    (inAppDecode ssl jiff t v).any List.isEmpty = emptyDate ssl inAppDates t (some v) := by
  unfold inAppDecode emptyDate
  split <;> simp_all [inAppDates, any_isEmpty_date, any_isEmpty_singleton, iapPurchaseDate,
    iapOriginalPurchaseDate, iapExpiresDate, iapCancellationDate]

variable (ssl jiff) in
/-- A purchase as a `FirstCopy` pass. -/
def inAppFields : (inAppReader ssl jiff).Fields Bytes FieldValue where
  value := Attribute.value
  raw purchase t := purchase.unknownAttributes.getD t []
  field := InAppPurchase.field
  decode attr := inAppDecode ssl jiff attr.attributeType attr.value
  raw_keep purchase attr t := getD_keepRaw purchase.unknownAttributes attr t
  field_keep _ _ _ := rfl
  assign_isSome purchase attr := by
    rcases @InAppPurchase.assign_spec ssl jiff purchase attr with
      ⟨refused, undecoded⟩ | ⟨_, _, assigned, decoded, _⟩
    · simp only [inAppReader, refused, undecoded, Option.isSome_none]
    · simp only [inAppReader, assigned, decoded, Option.isSome_some]
  raw_assign purchase attr purchase' h t := by
    rcases purchase.assign_spec attr with ⟨refused, _⟩ | ⟨_, _, assigned, _, same, _⟩
    · cases refused.symm.trans h
    · cases assigned.symm.trans h
      rw [same]
  field_assign purchase attr purchase' l h decoded t := by
    rcases purchase.assign_spec attr with ⟨refused, _⟩ | ⟨_, _, assigned, own, _, fields⟩
    · cases refused.symm.trans h
    · cases assigned.symm.trans h
      cases own.symm.trans decoded
      rw [fields]
      rfl

theorem reads_inAppFields : Reads ssl (inAppFields ssl jiff) (inAppDecode ssl jiff) inAppDates :=
  ⟨rfl, rfl, rfl, inAppDecode_any_isEmpty⟩

/-! ## Receipts -/

/-- What a payload shows of a type. -/
def ReceiptPayload.field (receipt : ReceiptPayload) : Nat → List FieldValue
  | attrReceiptType => shows .text receipt.receiptType
  | attrAppItemId => shows .number receipt.appItemId
  | attrBundleId => shows .octets receipt.bundleIdBytes ++ shows .text receipt.bundleId
  | attrAppVersion => shows .text receipt.applicationVersion
  | attrOpaqueValue => shows .octets receipt.opaqueValue
  | attrSha1Hash => shows .octets receipt.sha1Hash
  | attrCreationDate => shows .number receipt.receiptCreationDateMs
  | attrDownloadId => shows .number receipt.downloadId
  | attrVersionExternalIdentifier => shows .number receipt.versionExternalIdentifier
  | attrInApp => receipt.inApp.map .purchase
  | attrOriginalPurchaseDate => shows .number receipt.originalPurchaseDateMs
  | attrOriginalAppVersion => shows .text receipt.originalApplicationVersion
  | attrExpirationDate => shows .number receipt.expirationDateMs
  | attrPreorderDate => shows .number receipt.preorderDateMs
  | _ => []

/-- The app-level types that hold dates. -/
def receiptDates : List Nat :=
  [attrCreationDate, attrOriginalPurchaseDate, attrExpirationDate, attrPreorderDate]

/-- What a value of a type decodes to, for a receipt. -/
def receiptDecode (ssl : OpenSsl) (jiff : Jiff) (t : Nat) (v : Bytes) :
    Option (List FieldValue) :=
  match t with
  | attrReceiptType | attrAppVersion | attrOriginalAppVersion =>
    (decodeString ssl v).map fun s => [.text s]
  | attrAppItemId | attrDownloadId | attrVersionExternalIdentifier =>
    (decodeInteger ssl v).map fun n => [.number n]
  | attrBundleId => some (.octets v :: shows .text (decodeString ssl v))
  | attrOpaqueValue | attrSha1Hash => some [.octets v]
  | attrCreationDate | attrOriginalPurchaseDate | attrExpirationDate | attrPreorderDate =>
    (date ssl jiff v).map (shows .number)
  | attrInApp => (parseInApp ssl jiff v).map fun purchase => [.purchase purchase]
  | _ => none

theorem ReceiptPayload.assign_spec (receipt : ReceiptPayload) (attr : Attribute) :
    (receipt.assign ssl jiff attr = none ∧
      receiptDecode ssl jiff attr.attributeType attr.value = none) ∨
    ∃ receipt' l, receipt.assign ssl jiff attr = some receipt' ∧
      receiptDecode ssl jiff attr.attributeType attr.value = some l ∧
      receipt'.unknownAttributes = receipt.unknownAttributes ∧
      ∀ t, receipt'.field t = if t = attr.attributeType then
        if t == attrInApp then receipt.field t ++ l else l else receipt.field t := by
  unfold ReceiptPayload.assign receiptDecode
  generalize attr.attributeType = own
  split
  case h_15 =>
    refine .inl ⟨rfl, ?_⟩
    split <;> first | rfl | contradiction
  all_goals first
    | refine map_cases fun b => ⟨rfl, fun t => ?_⟩
    | refine .inr ⟨_, _, rfl, rfl, rfl, fun t => ?_⟩
  all_goals
    unfold ReceiptPayload.field
    -- A type of no field is not the attribute's own.
    split <;> first | exact (if_neg (by assumption)).symm | simp_all [attrInApp]

theorem receiptDecode_any_isEmpty (t : Nat) (v : Bytes) :
    (receiptDecode ssl jiff t v).any List.isEmpty = emptyDate ssl receiptDates t (some v) := by
  unfold receiptDecode emptyDate
  split <;> simp_all [receiptDates, any_isEmpty_date, any_isEmpty_singleton, attrCreationDate,
    attrOriginalPurchaseDate, attrExpirationDate, attrPreorderDate]

variable (ssl jiff) in
/-- A receipt as a `FirstCopy` pass. -/
def receiptFields : (receiptReader ssl jiff).Fields Bytes FieldValue where
  value := Attribute.value
  raw receipt t := receipt.unknownAttributes.getD t []
  field := ReceiptPayload.field
  decode attr := receiptDecode ssl jiff attr.attributeType attr.value
  raw_keep receipt attr t := getD_keepRaw receipt.unknownAttributes attr t
  field_keep _ _ _ := rfl
  assign_isSome receipt attr := by
    rcases @ReceiptPayload.assign_spec ssl jiff receipt attr with
      ⟨refused, undecoded⟩ | ⟨_, _, assigned, decoded, _⟩
    · simp only [receiptReader, refused, undecoded, Option.isSome_none]
    · simp only [receiptReader, assigned, decoded, Option.isSome_some]
  raw_assign receipt attr receipt' h t := by
    rcases receipt.assign_spec attr with ⟨refused, _⟩ | ⟨_, _, assigned, _, same, _⟩
    · cases refused.symm.trans h
    · cases assigned.symm.trans h
      rw [same]
  field_assign receipt attr receipt' l h decoded t := by
    rcases receipt.assign_spec attr with ⟨refused, _⟩ | ⟨_, _, assigned, own, _, fields⟩
    · cases refused.symm.trans h
    · cases assigned.symm.trans h
      cases own.symm.trans decoded
      rw [fields]
      rfl

theorem reads_receiptFields :
    Reads ssl (receiptFields ssl jiff) (receiptDecode ssl jiff) receiptDates :=
  ⟨rfl, rfl, rfl, receiptDecode_any_isEmpty⟩

/-! ## Payloads from first copies -/

section

variable {α β : Type} {c : α → FieldValue} {o : Option α} {first : Option Bytes}

theorem shows_injective (inj : Function.Injective c) {o' : Option α}
    (h : shows c o = shows c o') : o = o' := by
  cases o <;> cases o' <;> simp_all
  exact inj h

theorem eq_of_shows (inj : Function.Injective c) {g : Bytes → Option (Option α)}
    (h : shows c o = (first.bind fun v => (g v).map (shows c)).getD []) :
    o = first.bind fun v => (g v).join := by
  have nonempty : ∀ a, ¬ shows c (some a) = [] := by simp
  cases first with
  | none => cases o <;> simp_all
  | some v =>
    rcases decoded : g v with _ | _ | a <;> cases o <;> simp_all
    exact inj h

theorem eq_of_shows_map (inj : Function.Injective c) {g : Bytes → Option β} {k : β → α}
    (h : shows c o = (first.bind fun v => (g v).map fun b => [c (k b)]).getD []) :
    o = first.bind fun v => (g v).map k := by
  cases first with
  | none => cases o <;> simp_all
  | some v =>
    rcases decoded : g v with _ | b <;> cases o <;> simp_all
    exact inj h

theorem eq_of_shows_some (inj : Function.Injective c) {g : Bytes → Option α}
    (h : shows c o = (first.bind fun v => (g v).map fun a => [c a]).getD []) :
    o = first.bind g := by
  have := eq_of_shows_map (k := id) inj h
  simpa using this

end

theorem text_injective : Function.Injective FieldValue.text := fun _ _ h => FieldValue.text.inj h
theorem number_injective : Function.Injective FieldValue.number :=
  fun _ _ h => FieldValue.number.inj h
theorem octets_injective : Function.Injective FieldValue.octets :=
  fun _ _ h => FieldValue.octets.inj h
theorem flag_injective : Function.Injective FieldValue.flag := fun _ _ h => FieldValue.flag.inj h

section

variable (ssl jiff) (first : Nat → Option Bytes)

/-- A date, when the first copy of its type is one. -/
def firstDate (t : Nat) : Option Int := (first t).bind fun v => (date ssl jiff v).join

/-- A flag, when the first copy of its type is one: 0 is false. -/
def firstFlag (t : Nat) : Option Bool :=
  (first t).bind fun v => (decodeInteger ssl v).map fun n => n != 0

/-- The purchase whose typed fields come from the first copies, with the raw values given. -/
def InAppPurchase.ofFirsts (unknown : UnknownAttributes) : InAppPurchase where
  quantity := (first iapQuantity).bind (decodeInteger ssl)
  productId := (first iapProductId).bind (decodeString ssl)
  transactionId := (first iapTransactionId).bind (decodeString ssl)
  purchaseDateMs := firstDate ssl jiff first iapPurchaseDate
  originalTransactionId := (first iapOriginalTransactionId).bind (decodeString ssl)
  originalPurchaseDateMs := firstDate ssl jiff first iapOriginalPurchaseDate
  expiresDateMs := firstDate ssl jiff first iapExpiresDate
  webOrderLineItemId := (first iapWebOrderLineItemId).bind (decodeInteger ssl)
  cancellationDateMs := firstDate ssl jiff first iapCancellationDate
  cancellationReason := (first iapCancellationReason).bind (decodeInteger ssl)
  isTrialPeriod := firstFlag ssl first iapIsTrialPeriod
  isInIntroOfferPeriod := firstFlag ssl first iapIsInIntroOfferPeriod
  unknownAttributes := unknown

/-- The payload whose typed fields come from the first copies, with the purchases and the raw values
given. -/
def ReceiptPayload.ofFirsts (inApp : List InAppPurchase) (unknown : UnknownAttributes) :
    ReceiptPayload where
  receiptType := (first attrReceiptType).bind (decodeString ssl)
  appItemId := (first attrAppItemId).bind (decodeInteger ssl)
  bundleId := (first attrBundleId).bind (decodeString ssl)
  bundleIdBytes := first attrBundleId
  applicationVersion := (first attrAppVersion).bind (decodeString ssl)
  opaqueValue := first attrOpaqueValue
  sha1Hash := first attrSha1Hash
  receiptCreationDateMs := firstDate ssl jiff first attrCreationDate
  downloadId := (first attrDownloadId).bind (decodeInteger ssl)
  versionExternalIdentifier := (first attrVersionExternalIdentifier).bind (decodeInteger ssl)
  inApp := inApp
  originalPurchaseDateMs := firstDate ssl jiff first attrOriginalPurchaseDate
  preorderDateMs := firstDate ssl jiff first attrPreorderDate
  originalApplicationVersion := (first attrOriginalAppVersion).bind (decodeString ssl)
  expirationDateMs := firstDate ssl jiff first attrExpirationDate
  unknownAttributes := unknown

end

theorem inAppPurchase_fresh (t : Nat) : InAppPurchase.field {} t = [] := by
  unfold InAppPurchase.field
  split <;> rfl

/-- Every typed field of a purchase is what the first copy of its type decodes to. -/
theorem inAppPurchase_eq_ofFirsts (attributes : List Attribute) :
    inAppPurchase ssl jiff attributes = InAppPurchase.ofFirsts ssl jiff (firstOf attributes)
      (inAppPurchase ssl jiff attributes).unknownAttributes := by
  have field : ∀ t, (inAppPurchase ssl jiff attributes).field t =
      ((firstOf attributes t).bind (inAppDecode ssl jiff t)).getD [] :=
    fun t => reads_inAppFields.field_eq attributes inAppPurchase_fresh rfl
  refine InAppPurchase.ext ?_ ?_ ?_ ?_ ?_ ?_ ?_ ?_ ?_ ?_ ?_ ?_ rfl
  · exact eq_of_shows_some number_injective (field iapQuantity)
  · exact eq_of_shows_some text_injective (field iapProductId)
  · exact eq_of_shows_some text_injective (field iapTransactionId)
  · exact eq_of_shows number_injective (field iapPurchaseDate)
  · exact eq_of_shows_some text_injective (field iapOriginalTransactionId)
  · exact eq_of_shows number_injective (field iapOriginalPurchaseDate)
  · exact eq_of_shows number_injective (field iapExpiresDate)
  · exact eq_of_shows_some number_injective (field iapWebOrderLineItemId)
  · exact eq_of_shows number_injective (field iapCancellationDate)
  · exact eq_of_shows_some number_injective (field iapCancellationReason)
  · exact eq_of_shows_map flag_injective (field iapIsTrialPeriod)
  · exact eq_of_shows_map flag_injective (field iapIsInIntroOfferPeriod)

/-- The bundle id shows its octets, then its text. -/
theorem eq_of_shows_bundle {bytes : Option Bytes} {text decoded : Option String} {v : Bytes}
    (h : shows .octets bytes ++ shows .text text = .octets v :: shows .text decoded) :
    bytes = some v ∧ text = decoded := by
  cases bytes with
  | none => cases text <;> simp at h
  | some octets =>
    obtain ⟨same, rest⟩ := List.cons.inj h
    exact ⟨congrArg some (octets_injective same), shows_injective text_injective rest⟩

/-! ## Attribute 17 -/

theorem decode_inApp {attr : Attribute} (own : attr.attributeType = attrInApp) :
    (receiptFields ssl jiff).decode attr =
      (parseInApp ssl jiff attr.value).map fun purchase => [.purchase purchase] := by
  simp only [receiptFields, own]
  rfl

theorem decodes_inApp {attr : Attribute} (own : attr.attributeType = attrInApp) :
    (receiptFields ssl jiff).decodes attr = (parseInApp ssl jiff attr.value).isSome := by
  rw [Reader.Fields.decodes, decode_inApp own, Option.isSome_map]

theorem mem_copies {attributes : List Attribute} {t : Nat} {attr : Attribute}
    (h : attr ∈ (receiptFields ssl jiff).copies t attributes) : attr.attributeType = t :=
  of_decide_eq_true (List.mem_filter.mp h).2

theorem parseReceiptPayload_fresh (t : Nat) : ReceiptPayload.field {} t = [] := by
  unfold ReceiptPayload.field
  split <;> rfl

/-- The purchases are the values of type 17 that parse, in order. -/
theorem inApp_parseReceiptPayload (attributes : List Attribute) :
    (parseReceiptPayload ssl jiff attributes).inApp =
      (valuesOf attributes attrInApp).filterMap (parseInApp ssl jiff) := by
  have field := (receiptFields ssl jiff).run_field attributes parseReceiptPayload_fresh attrInApp
  have shown : ∀ copies : List Attribute, (∀ attr ∈ copies, attr.attributeType = attrInApp) →
      (receiptFields ssl jiff).shown (copies.filter (receiptFields ssl jiff).decodes) =
        ((copies.map Attribute.value).filterMap (parseInApp ssl jiff)).map FieldValue.purchase := by
    intro copies own
    induction copies with
    | nil => rfl
    | cons attr copies ih =>
      rw [List.forall_mem_cons] at own
      have ih := ih own.2
      cases parsed : parseInApp ssl jiff attr.value with
      | none =>
        have decodes := (decodes_inApp own.1).trans (by rw [parsed, Option.isSome_none])
        simpa [decodes, parsed] using ih
      | some purchase =>
        have decodes := (decodes_inApp own.1).trans (by rw [parsed, Option.isSome_some])
        simpa [decodes, parsed, Reader.Fields.shown, decode_inApp own.1] using ih
  have all := shown ((receiptFields ssl jiff).copies attrInApp attributes) fun _ => mem_copies
  have inj : Function.Injective FieldValue.purchase := fun _ _ h => FieldValue.purchase.inj h
  refine List.map_injective_iff.mpr inj ?_
  exact field.trans all

/-- The values of type 17 that do not parse are raw, in order. -/
theorem unknown_inApp (attributes : List Attribute) :
    (parseReceiptPayload ssl jiff attributes).unknownAttributes.getD attrInApp [] =
      (valuesOf attributes attrInApp).filter fun v => (parseInApp ssl jiff v).isNone := by
  have raw := (receiptFields ssl jiff).run_raw attributes (s := {}) (fun _ => rfl) attrInApp
  have undecoded : ((receiptFields ssl jiff).copies attrInApp attributes).filter
        (fun attr => !(receiptFields ssl jiff).decodes attr) =
      ((receiptFields ssl jiff).copies attrInApp attributes).filter
        ((fun v => (parseInApp ssl jiff v).isNone) ∘ Attribute.value) := by
    refine List.filter_congr fun attr mem => ?_
    rw [decodes_inApp (mem_copies mem), Function.comp_apply, Option.not_isSome]
  have left : (receiptFields ssl jiff).left attrInApp attributes =
      ((receiptFields ssl jiff).copies attrInApp attributes).filter
        fun attr => !(receiptFields ssl jiff).decodes attr :=
    if_pos rfl
  calc (parseReceiptPayload ssl jiff attributes).unknownAttributes.getD attrInApp []
      = ((receiptFields ssl jiff).left attrInApp attributes).map Attribute.value := raw
    _ = _ := by rw [left, undecoded, ← List.filter_map]; rfl

/-! ## Conservation -/

/-- Every typed field of a payload is what the first copy of its type decodes to. -/
theorem parseReceiptPayload_eq_ofFirsts (attributes : List Attribute) :
    parseReceiptPayload ssl jiff attributes =
      ReceiptPayload.ofFirsts ssl jiff (firstOf attributes)
        ((valuesOf attributes attrInApp).filterMap (parseInApp ssl jiff))
        (parseReceiptPayload ssl jiff attributes).unknownAttributes := by
  have field : ∀ t, (t == attrInApp) = false → (parseReceiptPayload ssl jiff attributes).field t =
      ((firstOf attributes t).bind (receiptDecode ssl jiff t)).getD [] :=
    fun t once => reads_receiptFields.field_eq attributes parseReceiptPayload_fresh once
  have bundle : (parseReceiptPayload ssl jiff attributes).bundleIdBytes =
        firstOf attributes attrBundleId ∧
      (parseReceiptPayload ssl jiff attributes).bundleId =
        (firstOf attributes attrBundleId).bind (decodeString ssl) := by
    have own : shows .octets (parseReceiptPayload ssl jiff attributes).bundleIdBytes ++
        shows .text (parseReceiptPayload ssl jiff attributes).bundleId =
        ((firstOf attributes attrBundleId).bind fun v =>
          some (.octets v :: shows .text (decodeString ssl v))).getD [] := field attrBundleId rfl
    cases first : firstOf attributes attrBundleId with
    | none =>
      rw [first] at own
      obtain ⟨noBytes, noText⟩ := List.append_eq_nil_iff.mp own
      exact ⟨shows_injective octets_injective noBytes, shows_injective text_injective noText⟩
    | some v =>
      rw [first] at own
      exact eq_of_shows_bundle own
  refine ReceiptPayload.ext ?_ ?_ ?_ ?_ ?_ ?_ ?_ ?_ ?_ ?_ ?_ ?_ ?_ ?_ ?_ rfl
  · exact eq_of_shows_some text_injective (field attrReceiptType rfl)
  · exact eq_of_shows_some number_injective (field attrAppItemId rfl)
  · exact bundle.2
  · exact bundle.1
  · exact eq_of_shows_some text_injective (field attrAppVersion rfl)
  · exact (eq_of_shows_some (g := some) octets_injective (field attrOpaqueValue rfl)).trans
      (Option.bind_fun_some _)
  · exact (eq_of_shows_some (g := some) octets_injective (field attrSha1Hash rfl)).trans
      (Option.bind_fun_some _)
  · exact eq_of_shows number_injective (field attrCreationDate rfl)
  · exact eq_of_shows_some number_injective (field attrDownloadId rfl)
  · exact eq_of_shows_some number_injective (field attrVersionExternalIdentifier rfl)
  · exact inApp_parseReceiptPayload attributes
  · exact eq_of_shows number_injective (field attrOriginalPurchaseDate rfl)
  · exact eq_of_shows number_injective (field attrPreorderDate rfl)
  · exact eq_of_shows_some text_injective (field attrOriginalAppVersion rfl)
  · exact eq_of_shows number_injective (field attrExpirationDate rfl)

theorem noEmptyValues_inAppPurchase (attributes : List Attribute) :
    NoEmptyValues (inAppPurchase ssl jiff attributes).unknownAttributes := by
  refine Reader.run_invariant (P := fun purchase : InAppPurchase =>
    NoEmptyValues purchase.unknownAttributes) (fun purchase attr h => h.keepRaw attr) ?_ attributes
    noEmptyValues_empty
  intro purchase attr purchase' assigned h
  rcases purchase.assign_spec attr with ⟨refused, _⟩ | ⟨_, _, own, _, same, _⟩
  · cases refused.symm.trans assigned
  · cases own.symm.trans assigned
    rwa [same]

theorem noEmptyValues_parseReceiptPayload (attributes : List Attribute) :
    NoEmptyValues (parseReceiptPayload ssl jiff attributes).unknownAttributes := by
  refine Reader.run_invariant (P := fun receipt : ReceiptPayload =>
    NoEmptyValues receipt.unknownAttributes) (fun receipt attr h => h.keepRaw attr) ?_ attributes
    noEmptyValues_empty
  intro receipt attr receipt' assigned h
  rcases receipt.assign_spec attr with ⟨refused, _⟩ | ⟨_, _, own, _, same, _⟩
  · cases refused.symm.trans assigned
  · cases own.symm.trans assigned
    rwa [same]

theorem valuesOf_receipt (attributes : List Attribute) {t : Nat} (other : t ≠ attrInApp) :
    valuesOf attributes t =
      (if !((parseReceiptPayload ssl jiff attributes).field t).isEmpty ||
          emptyDate ssl receiptDates t (firstOf attributes t) then (valuesOf attributes t).take 1
        else []) ++ (parseReceiptPayload ssl jiff attributes).unknownAttributes.getD t [] :=
  reads_receiptFields.valuesOf_eq attributes parseReceiptPayload_fresh
    (beq_eq_false_iff_ne.mpr other) fun _ => rfl

/-- The first copy of the bundle id is a field of its own, and only the later ones are raw. -/
theorem bundleId_parseReceiptPayload (attributes : List Attribute) :
    (parseReceiptPayload ssl jiff attributes).bundleIdBytes = firstOf attributes attrBundleId ∧
    (parseReceiptPayload ssl jiff attributes).unknownAttributes.getD attrBundleId [] =
      (valuesOf attributes attrBundleId).drop 1 := by
  have bytes : (parseReceiptPayload ssl jiff attributes).bundleIdBytes =
      firstOf attributes attrBundleId :=
    congrArg ReceiptPayload.bundleIdBytes (parseReceiptPayload_eq_ofFirsts attributes)
  have shown : (parseReceiptPayload ssl jiff attributes).field attrBundleId =
      shows .octets (firstOf attributes attrBundleId) ++
        shows .text (parseReceiptPayload ssl jiff attributes).bundleId := by
    rw [← bytes]
    rfl
  have values := @valuesOf_receipt ssl jiff attributes attrBundleId (by decide)
  refine ⟨bytes, ?_⟩
  rw [shown, firstOf] at values
  cases copies : valuesOf attributes attrBundleId with
  | nil => simpa [copies] using values
  | cons v rest => simpa [copies] using values.symm

/-- What is true of a purchase and the attributes it was read from. -/
structure PurchaseConserved (ssl : OpenSsl) (jiff : Jiff) (attributes : List Attribute)
    (purchase : InAppPurchase) : Prop where
  /-- The values of a type are its first copy, if the purchase shows it or it is an empty date, and
  the raw ones. -/
  values : ∀ t, valuesOf attributes t = (if !(purchase.field t).isEmpty ||
      emptyDate ssl inAppDates t (firstOf attributes t) then (valuesOf attributes t).take 1
    else []) ++ purchase.unknownAttributes.getD t []
  keys : NoEmptyValues purchase.unknownAttributes
  /-- Every typed field is determined by the first copy of its type. -/
  fields : purchase =
    InAppPurchase.ofFirsts ssl jiff (firstOf attributes) purchase.unknownAttributes

/-- What is true of a payload and the attributes it was read from. -/
structure ReceiptConserved (ssl : OpenSsl) (jiff : Jiff) (attributes : List Attribute)
    (receipt : ReceiptPayload) : Prop where
  values : ∀ t, t ≠ attrInApp → valuesOf attributes t = (if !(receipt.field t).isEmpty ||
      emptyDate ssl receiptDates t (firstOf attributes t) then (valuesOf attributes t).take 1
    else []) ++ receipt.unknownAttributes.getD t []
  bundleId : receipt.bundleIdBytes = firstOf attributes attrBundleId ∧
    receipt.unknownAttributes.getD attrBundleId [] = (valuesOf attributes attrBundleId).drop 1
  /-- The copies of attribute 17 are the purchases and the raw ones, merged. -/
  inApp : ∃ decoded, Merge decoded (receipt.unknownAttributes.getD attrInApp [])
      (valuesOf attributes attrInApp) ∧
    decoded.map (parseInApp ssl jiff) = receipt.inApp.map some ∧
    ∀ v ∈ receipt.unknownAttributes.getD attrInApp [], parseInApp ssl jiff v = none
  keys : NoEmptyValues receipt.unknownAttributes
  fields : receipt = ReceiptPayload.ofFirsts ssl jiff (firstOf attributes) receipt.inApp
    receipt.unknownAttributes

theorem purchaseConserved (attributes : List Attribute) :
    PurchaseConserved ssl jiff attributes (inAppPurchase ssl jiff attributes) where
  values _ := reads_inAppFields.valuesOf_eq attributes inAppPurchase_fresh rfl fun _ => rfl
  keys := noEmptyValues_inAppPurchase attributes
  fields := inAppPurchase_eq_ofFirsts attributes

theorem filter_isSome_map {α β : Type} (g : α → Option β) (l : List α) :
    (l.filter fun a => (g a).isSome).map g = (l.filterMap g).map some := by
  induction l with
  | nil => rfl
  | cons a l ih => cases h : g a <;> simp [h, ih]

theorem receiptConserved (attributes : List Attribute) :
    ReceiptConserved ssl jiff attributes (parseReceiptPayload ssl jiff attributes) where
  values t other := valuesOf_receipt attributes other
  bundleId := bundleId_parseReceiptPayload attributes
  inApp := by
    refine ⟨(valuesOf attributes attrInApp).filter fun v => (parseInApp ssl jiff v).isSome, ?_, ?_,
      ?_⟩
    · rw [unknown_inApp]
      simpa using Merge.filter_not (fun v => (parseInApp ssl jiff v).isSome)
        (valuesOf attributes attrInApp)
    · rw [inApp_parseReceiptPayload, filter_isSome_map]
    · rw [unknown_inApp]
      intro v mem
      exact Option.isNone_iff_eq_none.mp (List.mem_filter.mp mem).2
  keys := noEmptyValues_parseReceiptPayload attributes
  fields := by
    rw [inApp_parseReceiptPayload]
    exact parseReceiptPayload_eq_ofFirsts attributes

/-- **Nothing a signer signed is lost, doubled or moved** by the decoder, at either level. -/
theorem payload_conserved (ssl : OpenSsl) (jiff : Jiff) (attributes : List Attribute) :
    ReceiptConserved ssl jiff attributes (parseReceiptPayload ssl jiff attributes) ∧
    PurchaseConserved ssl jiff attributes (inAppPurchase ssl jiff attributes) ∧
    ∀ v purchase, parseInApp ssl jiff v = some purchase ↔
      ∃ inner, parseAttributeSet ssl v "in-app purchase attribute" = .ok inner ∧
        inAppPurchase ssl jiff inner = purchase := by
  refine ⟨receiptConserved attributes, purchaseConserved attributes, ?_⟩
  intro v purchase
  unfold parseInApp
  cases parseAttributeSet ssl v "in-app purchase attribute" <;> simp

end ReceiptVerifier
