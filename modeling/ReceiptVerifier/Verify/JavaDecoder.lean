import ReceiptVerifier.Java.ReceiptDecoder
import ReceiptVerifier.Verify.Envelope
import ReceiptVerifier.Verify.Payload

/-!
# The Java decoder decodes alike

Java's two phases against Rust's single pass. Phase one in closed form (`firsts_collect`,
`unknown_collect`) and what one getter does (`typed`) give Java's fields and raw values for each
type; on the Rust side they are those of `Verify.Payload`, so the payloads are equal where the value
decoders agree on the values they are given.
-/

namespace ReceiptVerifier

open Openssl

namespace Java

variable {bc : BouncyCastle} {ssl : OpenSsl} {jiff : Jiff}

/-! ## Phase one -/

theorem valuesOf_cons (attr : Attribute) (entries : List Attribute) (t : Nat) :
    valuesOf (attr :: entries) t =
      if attr.attributeType = t then attr.value :: valuesOf entries t else valuesOf entries t := by
  by_cases own : attr.attributeType = t <;> simp [valuesOf, own]

/-- The entry is the first of a known type. -/
def isFirst (known : List Nat) (attributes : Attributes) (t : Nat) : Bool :=
  known.contains t && attributes.firsts[t]?.isNone

theorem add_eq (known : List Nat) (attributes : Attributes) (attr : Attribute) :
    attributes.add known attr = if isFirst known attributes attr.attributeType then
      { attributes with firsts := attributes.firsts.insert attr.attributeType attr.value }
      else { attributes with unknown := keepRaw attributes.unknown attr } := by
  unfold Attributes.add isFirst
  rw [Std.ExtTreeMap.contains_eq_isSome_getElem?]
  cases known.contains attr.attributeType <;>
    cases attributes.firsts[attr.attributeType]? <;> rfl

theorem firsts_add (known : List Nat) (attributes : Attributes) (attr : Attribute) (t : Nat) :
    (attributes.add known attr).firsts[t]? =
      if attr.attributeType = t ∧ isFirst known attributes t = true then some attr.value
      else attributes.firsts[t]? := by
  rw [add_eq]
  by_cases own : attr.attributeType = t
  · subst own
    cases isFirst known attributes attr.attributeType <;> simp
  · cases isFirst known attributes attr.attributeType <;>
      simp [own, Std.ExtTreeMap.getElem?_insert]

theorem unknown_add (known : List Nat) (attributes : Attributes) (attr : Attribute) (t : Nat) :
    (attributes.add known attr).unknown.getD t [] =
      if attr.attributeType = t ∧ isFirst known attributes t = false then
        attributes.unknown.getD t [] ++ [attr.value]
      else attributes.unknown.getD t [] := by
  rw [add_eq]
  by_cases own : attr.attributeType = t
  · subst own
    cases isFirst known attributes attr.attributeType <;> simp [getD_keepRaw]
  · have other : ¬ t = attr.attributeType := fun h => own h.symm
    cases isFirst known attributes attr.attributeType <;> simp [own, other, getD_keepRaw]

/-- The rest of the loop of `readAttributes`, from what it holds. -/
theorem foldl_add (known : List Nat) (t : Nat) : ∀ (entries : List Attribute) (start : Attributes),
    (entries.foldl (Attributes.add known) start).firsts[t]? =
        (if isFirst known start t then firstOf entries t else start.firsts[t]?) ∧
      (entries.foldl (Attributes.add known) start).unknown.getD t [] = start.unknown.getD t [] ++
        if isFirst known start t then (valuesOf entries t).drop 1 else valuesOf entries t := by
  intro entries
  induction entries with
  | nil =>
    intro start
    have none : isFirst known start t = true → start.firsts[t]? = none := by
      intro first
      exact Option.isNone_iff_eq_none.mp (Bool.and_eq_true_iff.mp first).2
    cases first : isFirst known start t <;> simp_all [firstOf, valuesOf]
  | cons attr entries ih =>
    intro start
    obtain ⟨firsts, unknown⟩ := ih (start.add known attr)
    have step := firsts_add known start attr t
    have later : isFirst known (start.add known attr) t =
        (isFirst known start t && attr.attributeType != t) := by
      rw [isFirst, step]
      by_cases own : attr.attributeType = t <;> cases first : isFirst known start t <;>
        simp_all [isFirst]
    rw [List.foldl_cons, firsts, unknown, later, step, unknown_add, firstOf, firstOf,
      valuesOf_cons]
    by_cases own : attr.attributeType = t <;> cases first : isFirst known start t <;> simp_all

theorem isFirst_empty (known : List Nat) (t : Nat) : isFirst known {} t = known.contains t := by
  simp [isFirst]

theorem firsts_collect (known : List Nat) (entries : List Attribute) (t : Nat) :
    (Attributes.collect known entries).firsts[t]? =
      if known.contains t then firstOf entries t else none := by
  have firsts := (foldl_add known t entries {}).1
  rw [isFirst_empty] at firsts
  simpa [Attributes.collect] using firsts

theorem unknown_collect (known : List Nat) (entries : List Attribute) (t : Nat) :
    (Attributes.collect known entries).unknown.getD t [] =
      if known.contains t then (valuesOf entries t).drop 1 else valuesOf entries t := by
  have unknown := (foldl_add known t entries {}).2
  rw [isFirst_empty] at unknown
  simpa [Attributes.collect] using unknown

theorem noEmptyValues_collect (known : List Nat) (entries : List Attribute) :
    NoEmptyValues (Attributes.collect known entries).unknown := by
  refine List.foldlRecOn (motive := fun attributes : Attributes => NoEmptyValues attributes.unknown)
    entries (Attributes.add known) noEmptyValues_empty ?_
  intro attributes h attr _
  rw [add_eq]
  split
  · exact h
  · exact h.keepRaw attr

/-! ## Phase two -/

section

variable {α : Type} {d : Nat → Bytes → Option (List FieldValue)} {start attributes : Attributes}
  {done : List Nat} {t : Nat} (decoder : Bytes → Except Failure (Option α))

/-- What the getters of the types in `done` leave of a collected SET: each first value that does not
decode by `d` came to the front of its raw list, and nothing else moved. -/
structure Settled (d : Nat → Bytes → Option (List FieldValue)) (start : Attributes)
    (done : List Nat) (attributes : Attributes) : Prop where
  firsts : attributes.firsts = start.firsts
  unknown : ∀ k, attributes.unknown.getD k [] =
    (if k ∈ done then (start.firsts[k]?.filter fun v => (d k v).isNone).toList else []) ++
      start.unknown.getD k []
  keys : NoEmptyValues attributes.unknown

theorem Settled.refl (keys : NoEmptyValues start.unknown) : Settled d start [] start :=
  ⟨rfl, by simp, keys⟩

/-- One getter settles its type. -/
theorem Settled.typed (h : Settled d start done attributes) (new : t ∉ done)
    (same : ∀ v, start.firsts[t]? = some v → (decoder v).toOption.isNone = (d t v).isNone) :
    ∃ next, attributes.typed t decoder =
        (start.firsts[t]?.bind fun v => (decoder v).toOption.join, next) ∧
      Settled d start (t :: done) next := by
  have other : ∀ k ∈ done, k ≠ t := fun k mem own => new (own ▸ mem)
  unfold Attributes.typed
  rw [h.firsts]
  cases first : start.firsts[t]? with
  | none =>
    refine ⟨attributes, rfl, h.firsts, fun k => ?_, h.keys⟩
    by_cases own : k = t <;> simp [h.unknown, own, new, first]
  | some v =>
    have same := same v first
    cases decoded : decoder v with
    | ok value =>
      refine ⟨attributes, by simp [decoded, Except.toOption], h.firsts, fun k => ?_, h.keys⟩
      rw [decoded] at same
      by_cases own : k = t
      · simp [h.unknown, own, new, first, Option.filter, ← same, Except.toOption]
      · simp [h.unknown, own]
    | error =>
      rw [decoded] at same
      refine ⟨{ attributes with
        unknown := attributes.unknown.insert t (v :: attributes.unknown.getD t []) }, by
          simp [decoded, Except.toOption, h.firsts], h.firsts, fun k => ?_, fun k => ?_⟩
      · by_cases own : k = t
        · simp [h.unknown, own, new, first, Option.filter, ← same, Except.toOption]
        · have : ¬ t = k := fun e => own e.symm
          simp [h.unknown, own, this, Std.ExtTreeMap.getD_insert]
      · rw [Std.ExtTreeMap.getElem?_insert]
        split
        · simp
        · exact h.keys k

end

/-! ## Decoders that agree -/

theorem exists_entry_of_firsts {known : List Nat} {entries : List Attribute} {t : Nat} {v : Bytes}
    (first : (Attributes.collect known entries).firsts[t]? = some v) :
    ∃ attr ∈ entries, attr.attributeType = t ∧ attr.value = v := by
  rw [firsts_collect] at first
  split at first
  · have mem := List.mem_of_head? first
    simpa [valuesOf, and_assoc] using mem
  · cases first

/-- The two ports decode these values alike, each by the decoder its type has: as the same value,
not at all, or as an empty date. -/
structure AgreesOn (bc : BouncyCastle) (ssl : OpenSsl) (jiff : Jiff)
    (strings integers dates : List Nat) (entries : List Attribute) : Prop where
  string : ∀ attr ∈ entries, attr.attributeType ∈ strings →
    (decodeString bc attr.value).toOption = ReceiptVerifier.decodeString ssl attr.value
  integer : ∀ attr ∈ entries, attr.attributeType ∈ integers →
    (decodeInteger bc attr.value).toOption = ReceiptVerifier.decodeInteger ssl attr.value
  date : ∀ attr ∈ entries, attr.attributeType ∈ dates →
    (decodeDate bc attr.value).toOption = ReceiptVerifier.date ssl jiff attr.value

/-- On the values of a purchase. -/
def AgreesOnPurchase (bc : BouncyCastle) (ssl : OpenSsl) (jiff : Jiff)
    (entries : List Attribute) : Prop :=
  AgreesOn bc ssl jiff [iapProductId, iapTransactionId, iapOriginalTransactionId]
    [iapQuantity, iapWebOrderLineItemId, iapCancellationReason, iapIsTrialPeriod,
      iapIsInIntroOfferPeriod]
    [iapPurchaseDate, iapOriginalPurchaseDate, iapExpiresDate, iapCancellationDate] entries

/-- On a purchase's attribute SET: its entries, and their values. -/
structure AgreesOnSet (bc : BouncyCastle) (ssl : OpenSsl) (jiff : Jiff) (v : Bytes) : Prop where
  entries : (readEntries bc v "in-app purchase attribute").toOption =
    (ReceiptVerifier.parseAttributeSet ssl v "in-app purchase attribute").toOption
  values : ∀ own, readEntries bc v "in-app purchase attribute" = .ok own →
    AgreesOnPurchase bc ssl jiff own

/-- On the values of a receipt, its purchases' among them. -/
structure AgreesOnReceipt (bc : BouncyCastle) (ssl : OpenSsl) (jiff : Jiff)
    (entries : List Attribute) : Prop extends
    AgreesOn bc ssl jiff [attrReceiptType, attrBundleId, attrAppVersion, attrOriginalAppVersion]
      [attrAppItemId, attrDownloadId, attrVersionExternalIdentifier]
      [attrCreationDate, attrOriginalPurchaseDate, attrExpirationDate, attrPreorderDate]
      entries where
  inApp : ∀ attr ∈ entries, attr.attributeType = attrInApp → AgreesOnSet bc ssl jiff attr.value

section

variable {d : Nat → Bytes → Option (List FieldValue)} {start attributes : Attributes}
  {done known strings integers dates : List Nat} {entries : List Attribute} {t : Nat}
  (agree : AgreesOn bc ssl jiff strings integers dates entries)
  (h : Settled d start done attributes)
  (firsts : start.firsts = (Attributes.collect known entries).firsts) (new : t ∉ done)

include agree firsts

theorem AgreesOn.string_first (mem : t ∈ strings) {v : Bytes} (first : start.firsts[t]? = some v) :
    (decodeString bc v).toOption = ReceiptVerifier.decodeString ssl v := by
  rw [firsts] at first
  obtain ⟨attr, inside, rfl, rfl⟩ := exists_entry_of_firsts first
  exact agree.string attr inside mem

theorem AgreesOn.integer_first (mem : t ∈ integers) {v : Bytes}
    (first : start.firsts[t]? = some v) :
    (decodeInteger bc v).toOption = ReceiptVerifier.decodeInteger ssl v := by
  rw [firsts] at first
  obtain ⟨attr, inside, rfl, rfl⟩ := exists_entry_of_firsts first
  exact agree.integer attr inside mem

theorem AgreesOn.date_first (mem : t ∈ dates) {v : Bytes} (first : start.firsts[t]? = some v) :
    (decodeDate bc v).toOption = ReceiptVerifier.date ssl jiff v := by
  rw [firsts] at first
  obtain ⟨attr, inside, rfl, rfl⟩ := exists_entry_of_firsts first
  exact agree.date attr inside mem

include h new

theorem Settled.string (mem : t ∈ strings)
    (own : ∀ v, (d t v).isNone = (ReceiptVerifier.decodeString ssl v).isNone) :
    ∃ next, attributes.string bc t =
        (start.firsts[t]?.bind (ReceiptVerifier.decodeString ssl), next) ∧
      Settled d start (t :: done) next := by
  have same := fun v => agree.string_first firsts mem (v := v)
  obtain ⟨next, got, settled⟩ := h.typed (fun v => (decodeString bc v).map some) new (by
    intro v first
    rw [own, ← same v first]
    cases decodeString bc v <;> rfl)
  refine ⟨next, got.trans ?_, settled⟩
  congr 1
  refine Option.bind_congr fun v first => ?_
  rw [← same v first]
  cases decodeString bc v <;> rfl

theorem Settled.integer (mem : t ∈ integers)
    (own : ∀ v, (d t v).isNone = (ReceiptVerifier.decodeInteger ssl v).isNone) :
    ∃ next, attributes.integer bc t =
        (start.firsts[t]?.bind (ReceiptVerifier.decodeInteger ssl), next) ∧
      Settled d start (t :: done) next := by
  have same := fun v => agree.integer_first firsts mem (v := v)
  obtain ⟨next, got, settled⟩ := h.typed (fun v => (decodeInteger bc v).map some) new (by
    intro v first
    rw [own, ← same v first]
    cases decodeInteger bc v <;> rfl)
  refine ⟨next, got.trans ?_, settled⟩
  congr 1
  refine Option.bind_congr fun v first => ?_
  rw [← same v first]
  cases decodeInteger bc v <;> rfl

theorem Settled.date (mem : t ∈ dates)
    (own : ∀ v, (d t v).isNone = (ReceiptVerifier.date ssl jiff v).isNone) :
    ∃ next, attributes.date bc t =
        (start.firsts[t]?.bind fun v => (ReceiptVerifier.date ssl jiff v).join, next) ∧
      Settled d start (t :: done) next := by
  have same := fun v => agree.date_first firsts mem (v := v)
  obtain ⟨next, got, settled⟩ := h.typed (decodeDate bc) new (by
    intro v first
    rw [own, ← same v first])
  refine ⟨next, got.trans ?_, settled⟩
  congr 1
  refine Option.bind_congr fun v first => ?_
  rw [← same v first]

theorem Settled.flag (mem : t ∈ integers)
    (own : ∀ v, (d t v).isNone = (ReceiptVerifier.decodeInteger ssl v).isNone) :
    ∃ next, attributes.flag bc t = (start.firsts[t]?.bind fun v =>
        (ReceiptVerifier.decodeInteger ssl v).map fun n => n != 0, next) ∧
      Settled d start (t :: done) next := by
  obtain ⟨next, got, settled⟩ := h.integer agree firsts new mem own
  refine ⟨next, ?_, settled⟩
  rw [Attributes.flag, got]
  cases start.firsts[t]? <;> rfl

end

theorem inAppDecode_unknown {t : Nat} (other : inApp.contains t = false) (v : Bytes) :
    inAppDecode ssl jiff t v = none := by
  unfold inAppDecode
  split
  case h_13 => rfl
  all_goals cases other

theorem receiptDecode_unknown {t : Nat} (other : topLevel.contains t = false)
    (once : t ≠ attrInApp) (v : Bytes) : receiptDecode ssl jiff t v = none := by
  unfold receiptDecode
  split
  case h_15 => rfl
  case h_14 => exact absurd rfl once
  all_goals cases other

theorem firstOf_append_drop (entries : List Attribute) (t : Nat) :
    (firstOf entries t).toList ++ (valuesOf entries t).drop 1 = valuesOf entries t := by
  rw [firstOf]
  cases valuesOf entries t <;> rfl

/-- Once every known type is settled, or needs no getter, the raw values are those of the single
pass. -/
theorem Settled.getD_eq {d : Nat → Bytes → Option (List FieldValue)} {known done : List Nat}
    {entries : List Attribute} {start attributes : Attributes} {t : Nat}
    (h : Settled d start done attributes)
    (firsts : start.firsts = (Attributes.collect known entries).firsts)
    (unknown : start.unknown.getD t [] = (Attributes.collect known entries).unknown.getD t [])
    (rest : List Nat) (all : (done ++ rest).Perm known)
    (always : ∀ t ∈ rest, ∀ v, (d t v).isNone = false)
    (never : known.contains t = false → ∀ v, d t v = none) :
    attributes.unknown.getD t [] =
      ((firstOf entries t).filter fun v => (d t v).isNone).toList ++
        (valuesOf entries t).drop 1 := by
  rw [h.unknown, firsts, unknown, firsts_collect, unknown_collect]
  cases member : known.contains t with
  | true =>
    rcases List.mem_append.mp (all.mem_iff.mpr (List.contains_iff_mem.mp member)) with mem | mem
    · simp [mem]
    · simp [always t mem]
  | false =>
    have absent : t ∉ done := by
      intro mem
      have := all.mem_iff.mp (List.mem_append_left rest mem)
      rw [← List.contains_iff_mem, member] at this
      cases this
    have undecoded : ((firstOf entries t).filter fun v => (d t v).isNone) = firstOf entries t := by
      cases firstOf entries t <;> simp [never member]
    rw [undecoded, firstOf_append_drop]
    simp [absent]

/-- A purchase's getters, one after another, against the single pass. -/
theorem purchaseOf_collect {entries : List Attribute}
    (agree : AgreesOnPurchase bc ssl jiff entries) :
    purchaseOf bc (Attributes.collect inApp entries) = inAppPurchase ssl jiff entries := by
  have h := @Settled.refl (inAppDecode ssl jiff) _ (noEmptyValues_collect inApp entries)
  obtain ⟨_, quantity, h⟩ :=
    h.integer agree rfl (t := iapQuantity) (by decide) (by decide) fun _ => Option.isNone_map
  obtain ⟨_, productId, h⟩ :=
    h.string agree rfl (t := iapProductId) (by decide) (by decide) fun _ => Option.isNone_map
  obtain ⟨_, transactionId, h⟩ :=
    h.string agree rfl (t := iapTransactionId) (by decide) (by decide) fun _ => Option.isNone_map
  obtain ⟨_, purchaseDate, h⟩ :=
    h.date agree rfl (t := iapPurchaseDate) (by decide) (by decide) fun _ => Option.isNone_map
  obtain ⟨_, originalTransactionId, h⟩ :=
    h.string agree rfl (t := iapOriginalTransactionId) (by decide) (by decide) fun _ =>
      Option.isNone_map
  obtain ⟨_, originalPurchaseDate, h⟩ :=
    h.date agree rfl (t := iapOriginalPurchaseDate) (by decide) (by decide) fun _ =>
      Option.isNone_map
  obtain ⟨_, expiresDate, h⟩ :=
    h.date agree rfl (t := iapExpiresDate) (by decide) (by decide) fun _ => Option.isNone_map
  obtain ⟨_, webOrderLineItemId, h⟩ :=
    h.integer agree rfl (t := iapWebOrderLineItemId) (by decide) (by decide) fun _ =>
      Option.isNone_map
  obtain ⟨_, cancellationDate, h⟩ :=
    h.date agree rfl (t := iapCancellationDate) (by decide) (by decide) fun _ => Option.isNone_map
  obtain ⟨_, cancellationReason, h⟩ :=
    h.integer agree rfl (t := iapCancellationReason) (by decide) (by decide) fun _ =>
      Option.isNone_map
  obtain ⟨_, isTrialPeriod, h⟩ :=
    h.flag agree rfl (t := iapIsTrialPeriod) (by decide) (by decide) fun _ => Option.isNone_map
  obtain ⟨last, isInIntroOfferPeriod, h⟩ :=
    h.flag agree rfl (t := iapIsInIntroOfferPeriod) (by decide) (by decide) fun _ =>
      Option.isNone_map
  have raw : ∀ t, (inAppPurchase ssl jiff entries).unknownAttributes.getD t [] =
      ((firstOf entries t).filter fun v => (inAppDecode ssl jiff t v).isNone).toList ++
        (valuesOf entries t).drop 1 :=
    fun t => reads_inAppFields.raw_eq entries rfl fun _ => rfl
  have unknown : last.unknown = (inAppPurchase ssl jiff entries).unknownAttributes := by
    refine h.keys.ext (noEmptyValues_inAppPurchase entries) fun t => ?_
    rw [raw, h.getD_eq rfl rfl [] (by decide) (by simp) inAppDecode_unknown]
  rw [inAppPurchase_eq_ofFirsts, purchaseOf]
  simp only [quantity, productId, transactionId, purchaseDate, originalTransactionId,
    originalPurchaseDate, expiresDate, webOrderLineItemId, cancellationDate, cancellationReason,
    isTrialPeriod, isInIntroOfferPeriod, unknown, firsts_collect]
  rfl

theorem parseInApp_toOption {v : Bytes} (agree : AgreesOnSet bc ssl jiff v) :
    (parseInApp bc v).toOption = ReceiptVerifier.parseInApp ssl jiff v := by
  have entries := agree.entries
  unfold parseInApp readAttributes ReceiptVerifier.parseInApp
  cases own : readEntries bc v "in-app purchase attribute" <;>
    cases other : ReceiptVerifier.parseAttributeSet ssl v "in-app purchase attribute" <;>
    rw [own, other] at entries <;> cases entries
  · rfl
  · exact congrArg some (purchaseOf_collect (agree.values _ own))

/-! ## Receipts -/

/-- The loop over the copies of attribute 17. -/
theorem takePurchases_spec : ∀ (values : List Bytes)
    (_ : ∀ v ∈ values, AgreesOnSet bc ssl jiff v) (unknown : UnknownAttributes),
    (takePurchases bc values unknown).1 =
        values.filterMap (ReceiptVerifier.parseInApp ssl jiff) ∧
      (∀ t, (takePurchases bc values unknown).2.getD t [] = unknown.getD t [] ++
        if t = attrInApp then
          values.filter fun v => (ReceiptVerifier.parseInApp ssl jiff v).isNone else []) ∧
      (NoEmptyValues unknown → NoEmptyValues (takePurchases bc values unknown).2) := by
  intro values
  induction values with
  | nil =>
    intro _ unknown
    simp [takePurchases]
  | cons v values ih =>
    intro agree unknown
    rw [List.forall_mem_cons] at agree
    have same := parseInApp_toOption agree.1
    have ih := ih agree.2
    unfold takePurchases
    cases parsed : parseInApp bc v with
    | ok purchase =>
      obtain ⟨purchases, raw, keys⟩ := ih unknown
      have same : ReceiptVerifier.parseInApp ssl jiff v = some purchase := by
        rw [← same, parsed]
        rfl
      refine ⟨by simp [purchases, same], fun t => ?_, keys⟩
      simp [raw, same]
    | error =>
      obtain ⟨purchases, raw, keys⟩ := ih (keepRaw unknown ⟨attrInApp, v⟩)
      have same : ReceiptVerifier.parseInApp ssl jiff v = none := by
        rw [← same, parsed]
        rfl
      refine ⟨by simp [purchases, same], fun t => ?_, fun h => keys (h.keepRaw _)⟩
      by_cases own : t = attrInApp <;> simp [raw, same, own, getD_keepRaw]

/-- The types whose first copy is a field as it is. -/
def untyped : List Nat := [attrBundleId, attrOpaqueValue, attrSha1Hash]

theorem receiptDecode_untyped :
    ∀ t ∈ untyped, ∀ v, (receiptDecode ssl jiff t v).isNone = false := by
  intro t mem v
  simp only [untyped, List.mem_cons, List.not_mem_nil, or_false] at mem
  rcases mem with rfl | rfl | rfl <;> rfl

/-- Once the purchases are taken out and every typed field is settled, the raw values are those of
the single pass. -/
theorem Settled.unknown_eq {entries : List Attribute} {start last : Attributes} {done : List Nat}
    (h : Settled (receiptDecode ssl jiff) start done last)
    (firsts : start.firsts = (Attributes.collect topLevel entries).firsts)
    (raw : ∀ t, start.unknown.getD t [] =
      ((Attributes.collect topLevel entries).unknown.erase attrInApp).getD t [] ++
        if t = attrInApp then (valuesOf entries attrInApp).filter fun v =>
          (ReceiptVerifier.parseInApp ssl jiff v).isNone else [])
    (all : (done ++ untyped).Perm topLevel) :
    last.unknown = (parseReceiptPayload ssl jiff entries).unknownAttributes := by
  refine h.keys.ext (noEmptyValues_parseReceiptPayload entries) fun t => ?_
  by_cases own : t = attrInApp
  · subst own
    have unsettled : attrInApp ∉ done := by
      intro mem
      exact absurd (all.mem_iff.mp (List.mem_append_left _ mem)) (by decide)
    rw [unknown_inApp, h.unknown, raw, if_neg unsettled]
    simp
  · have other : ¬ attrInApp = t := fun e => own e.symm
    have rust : (parseReceiptPayload ssl jiff entries).unknownAttributes.getD t [] =
        ((firstOf entries t).filter fun v => (receiptDecode ssl jiff t v).isNone).toList ++
          (valuesOf entries t).drop 1 :=
      reads_receiptFields.raw_eq entries (beq_eq_false_iff_ne.mpr own) fun _ => rfl
    have unknown : start.unknown.getD t [] =
        (Attributes.collect topLevel entries).unknown.getD t [] := by
      simp [raw, own, other, Std.ExtTreeMap.getD_erase]
    rw [rust, h.getD_eq firsts unknown untyped all receiptDecode_untyped
      fun unknown => receiptDecode_unknown unknown own]

theorem noEmptyValues_erase {unknown : UnknownAttributes} (h : NoEmptyValues unknown) (t : Nat) :
    NoEmptyValues (unknown.erase t) := by
  intro k
  rw [Std.ExtTreeMap.getElem?_erase]
  split
  · simp
  · exact h k

/-- A receipt's purchases, then its getters one after another, against the single pass. -/
theorem payloadOf_collect {entries : List Attribute}
    (agree : AgreesOnReceipt bc ssl jiff entries) :
    (payloadOf bc (Attributes.collect topLevel entries)).toReceiptPayload =
      parseReceiptPayload ssl jiff entries := by
  have copies : (Attributes.collect topLevel entries).unknown.getD attrInApp [] =
      valuesOf entries attrInApp := by
    rw [unknown_collect]
    rfl
  have firsts := firsts_collect topLevel entries
  have erased := noEmptyValues_erase (noEmptyValues_collect topLevel entries) attrInApp
  have alike : ∀ v ∈ valuesOf entries attrInApp, AgreesOnSet bc ssl jiff v := by
    intro v mem
    obtain ⟨attr, inside, own, rfl⟩ : ∃ attr ∈ entries,
        attr.attributeType = attrInApp ∧ attr.value = v := by
      simpa [valuesOf, and_assoc] using mem
    exact agree.inApp attr inside own
  obtain ⟨purchases, raw, kept⟩ := takePurchases_spec
    (valuesOf entries attrInApp) alike
      ((Attributes.collect topLevel entries).unknown.erase attrInApp)
  rw [payloadOf, copies]
  generalize takePurchases bc (valuesOf entries attrInApp)
    ((Attributes.collect topLevel entries).unknown.erase attrInApp) = taken at purchases raw kept ⊢
  have h := @Settled.refl (receiptDecode ssl jiff)
    { Attributes.collect topLevel entries with unknown := taken.2 } (kept erased)
  have agreeOn := agree.toAgreesOn
  obtain ⟨a1, receiptType, h1⟩ :=
    h.string agreeOn rfl (t := attrReceiptType) (by decide) (by decide) fun _ => Option.isNone_map
  obtain ⟨a2, appItemId, h2⟩ :=
    h1.integer agreeOn rfl (t := attrAppItemId) (by decide) (by decide) fun _ => Option.isNone_map
  obtain ⟨a3, applicationVersion, h3⟩ :=
    h2.string agreeOn rfl (t := attrAppVersion) (by decide) (by decide) fun _ => Option.isNone_map
  obtain ⟨a4, creationDate, h4⟩ :=
    h3.date agreeOn rfl (t := attrCreationDate) (by decide) (by decide) fun _ => Option.isNone_map
  obtain ⟨a5, downloadId, h5⟩ :=
    h4.integer agreeOn rfl (t := attrDownloadId) (by decide) (by decide) fun _ => Option.isNone_map
  obtain ⟨a6, versionExternalIdentifier, h6⟩ :=
    h5.integer agreeOn rfl (t := attrVersionExternalIdentifier) (by decide) (by decide) fun _ =>
      Option.isNone_map
  obtain ⟨a7, originalPurchaseDate, h7⟩ :=
    h6.date agreeOn rfl (t := attrOriginalPurchaseDate) (by decide) (by decide) fun _ =>
      Option.isNone_map
  obtain ⟨a8, preorderDate, h8⟩ :=
    h7.date agreeOn rfl (t := attrPreorderDate) (by decide) (by decide) fun _ => Option.isNone_map
  obtain ⟨a9, originalApplicationVersion, h9⟩ :=
    h8.string agreeOn rfl (t := attrOriginalAppVersion) (by decide) (by decide) fun _ =>
      Option.isNone_map
  obtain ⟨last, expirationDate, h10⟩ :=
    h9.date agreeOn rfl (t := attrExpirationDate) (by decide) (by decide) fun _ => Option.isNone_map
  have unknown := h10.unknown_eq rfl raw (by decide)
  have bundleId : (if topLevel.contains attrBundleId then firstOf entries attrBundleId
        else none).bind (decodeBundleId bc) =
      (if topLevel.contains attrBundleId then firstOf entries attrBundleId
        else none).bind (ReceiptVerifier.decodeString ssl) := by
    rw [← firsts]
    exact Option.bind_congr fun v first =>
      agreeOn.string_first (t := attrBundleId) rfl (by decide) first
  rw [parseReceiptPayload_eq_ofFirsts]
  simp only [receiptType, appItemId, applicationVersion, creationDate, downloadId,
    versionExternalIdentifier, originalPurchaseDate, preorderDate, originalApplicationVersion,
    expirationDate, unknown, purchases, bundleId, h3.firsts, firsts]
  rfl

theorem environment_eq (receiptType : Option String) :
    environment receiptType = Environment.fromReceiptType receiptType := by
  unfold Environment.fromReceiptType
  split <;> simp_all [environment]

/-- **The two ports decode every payload alike**: where the value decoders agree on its values,
Java's two phases give the payload and each purchase of Rust's single pass. -/
theorem decode_eq_rust :
    (∀ entries, AgreesOnReceipt bc ssl jiff entries →
      (payloadOf bc (Attributes.collect topLevel entries)).toReceiptPayload =
        parseReceiptPayload ssl jiff entries ∧
      (payloadOf bc (Attributes.collect topLevel entries)).environment =
        (parseReceiptPayload ssl jiff entries).environment) ∧
    (∀ entries, AgreesOnPurchase bc ssl jiff entries →
      purchaseOf bc (Attributes.collect inApp entries) = inAppPurchase ssl jiff entries) ∧
    ∀ v, AgreesOnSet bc ssl jiff v →
      (parseInApp bc v).toOption = ReceiptVerifier.parseInApp ssl jiff v := by
  refine ⟨fun entries agree => ?_, fun entries => purchaseOf_collect, fun v => parseInApp_toOption⟩
  have payload := payloadOf_collect agree
  have named : (payloadOf bc (Attributes.collect topLevel entries)).environment =
      environment (payloadOf bc (Attributes.collect topLevel entries)).receiptType := rfl
  refine ⟨payload, ?_⟩
  rw [named, environment_eq, payload]
  rfl

/-! ## A receipt decoded -/

namespace Sample

/-- A `UTF8String`, an `IA5String` date, an `INTEGER` and a `NULL`. -/
def production : Bytes := [0x0c, 0x0a, 80, 114, 111, 100, 117, 99, 116, 105, 111, 110]

def dated : Bytes :=
  [0x16, 0x14, 50, 48, 50, 52, 45, 48, 49, 45, 48, 50, 84, 48, 51, 58, 48, 52, 58, 48, 53, 90]

def five : Bytes := [0x02, 0x01, 0x05]

def null : Bytes := [0x05, 0x00]

/-- A purchase's SET: a product and its date. -/
def purchase : Bytes :=
  [0x31, 0x38,
    0x30, 0x15, 0x02, 0x02, 0x06, 0xa6, 0x02, 0x01, 0x01, 0x04, 0x0c] ++ production ++
  [0x30, 0x1f, 0x02, 0x02, 0x06, 0xa8, 0x02, 0x01, 0x01, 0x04, 0x16] ++ dated

/-- OpenSSL on these values. -/
def openSsl : OpenSsl :=
  { ReceiptVerifier.Sample.openSsl with
    receiptPayload := fun der =>
      if der = purchase then
        some [[.integer 1702, .integer 1, .octetString production],
          [.integer 1704, .integer 1, .octetString dated]]
      else none
    integerItem := fun der => if der = five then some 5 else none
    displayText := fun der =>
      if der = [0x0c, 0x00] then some (12, [])
      else if der = production then some (12, production.drop 2)
      else if der = dated then some (22, dated.drop 2)
      else none }

/-- BouncyCastle on these values. -/
def bouncyCastle : BouncyCastle where
  fromByteArray der :=
    if der = null then .ok .other
    else if der = [0x0c, 0x00] then .ok (.utf8String (some ""))
    else if der = production then .ok (.utf8String (some "Production"))
    else if der = dated then .ok (.ia5String (dated.drop 2))
    else if der = five then .ok (.integer 5)
    else if der = purchase then
      .ok (.set [.sequence [.integer 1702, .integer 1, .octetString production],
        .sequence [.integer 1704, .integer 1, .octetString dated]])
    else .error .io

/-- What the purchase's SET holds. -/
def ownEntries : List Attribute := [⟨iapProductId, production⟩, ⟨iapPurchaseDate, dated⟩]

/-- Copies of the app item id and of a purchase, the first of which do not decode, a date, and one
that is not set. -/
def entries : List Attribute :=
  [⟨attrReceiptType, production⟩, ⟨attrInApp, null⟩, ⟨attrAppItemId, null⟩,
    ⟨attrInApp, purchase⟩, ⟨attrAppItemId, five⟩, ⟨attrCreationDate, dated⟩,
    ⟨attrExpirationDate, [0x0c, 0x00]⟩, ⟨99, []⟩]

theorem agreesOnPurchase : AgreesOnPurchase bouncyCastle openSsl .gregorian ownEntries where
  string := by decide +kernel
  integer := by decide +kernel
  date := by decide +kernel

theorem agreesOnSet : AgreesOnSet bouncyCastle openSsl .gregorian purchase where
  entries := by decide +kernel
  values own read := by
    have same : readEntries bouncyCastle purchase "in-app purchase attribute" = .ok ownEntries :=
      rfl
    obtain rfl := Except.ok.inj (same.symm.trans read)
    exact agreesOnPurchase

theorem agreesOnSet_null : AgreesOnSet bouncyCastle openSsl .gregorian null where
  entries := by decide +kernel
  values own read := by cases read

theorem agreesOnReceipt : AgreesOnReceipt bouncyCastle openSsl .gregorian entries where
  string := by decide +kernel
  integer := by decide +kernel
  date := by decide +kernel
  inApp attr mem own := by
    simp only [entries, List.mem_cons, List.not_mem_nil, or_false] at mem
    rcases mem with rfl | rfl | rfl | rfl | rfl | rfl | rfl | rfl
    case inr.inl => exact agreesOnSet_null
    case inr.inr.inr.inl => exact agreesOnSet
    all_goals exact absurd own (by decide)

end Sample

/-- A receipt with a purchase and dates, copies of which do not decode. -/
theorem decode_eq_rust_sample :
    ((payloadOf Sample.bouncyCastle (Attributes.collect topLevel Sample.entries)).toReceiptPayload =
      parseReceiptPayload Sample.openSsl .gregorian Sample.entries ∧
    (parseReceiptPayload Sample.openSsl .gregorian Sample.entries).receiptCreationDateMs =
      some 1704164645000) ∧
    purchaseOf Sample.bouncyCastle (Attributes.collect inApp Sample.ownEntries) =
      inAppPurchase Sample.openSsl .gregorian Sample.ownEntries ∧
    (parseInApp Sample.bouncyCastle Sample.purchase).toOption =
      ReceiptVerifier.parseInApp Sample.openSsl .gregorian Sample.purchase := by
  obtain ⟨receipt, purchase, set⟩ := @decode_eq_rust Sample.bouncyCastle Sample.openSsl .gregorian
  refine ⟨⟨(receipt _ Sample.agreesOnReceipt).1, ?_⟩, purchase _ Sample.agreesOnPurchase,
    set _ Sample.agreesOnSet⟩
  decide +kernel

end Java

end ReceiptVerifier
