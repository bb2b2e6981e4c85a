import ReceiptVerifier.Verify.Content

/-!
# The order of the attributes

The entries of a DER SET have no order, so a payload must not depend on how attributes of different
types follow each other. What does count is the order of the copies of one type.
-/

namespace ReceiptVerifier

open Openssl FirstCopy

/-- The same attributes, with the copies of each type in the same order. -/
structure SameWithinTypes (attributes attributes' : List Attribute) : Prop where
  perm : attributes.Perm attributes'
  inOrder : ∀ t, (attributes.filter fun attr => attr.attributeType = t) =
    attributes'.filter fun attr => attr.attributeType = t

/-- The same attribute, or two purchases whose own attributes differ in their order across types. -/
inductive SameInside (ssl : OpenSsl) : Attribute → Attribute → Prop where
  | refl (attr : Attribute) : SameInside ssl attr attr
  | purchase {v v' : Bytes} {inner inner' : List Attribute}
    (reads : parseAttributeSet ssl v "in-app purchase attribute" = .ok inner)
    (reads' : parseAttributeSet ssl v' "in-app purchase attribute" = .ok inner')
    (same : SameWithinTypes inner inner') : SameInside ssl ⟨attrInApp, v⟩ ⟨attrInApp, v'⟩

variable {ssl : OpenSsl} {jiff : Jiff} {attributes attributes' : List Attribute}

namespace SameWithinTypes

theorem valuesOf_eq (same : SameWithinTypes attributes attributes') (t : Nat) :
    valuesOf attributes t = valuesOf attributes' t := by
  rw [valuesOf, same.inOrder, valuesOf]

theorem firstOf_eq (same : SameWithinTypes attributes attributes') :
    firstOf attributes = firstOf attributes' := by
  funext t
  rw [firstOf, same.valuesOf_eq, firstOf]

theorem inAppPurchase_eq (same : SameWithinTypes attributes attributes') :
    inAppPurchase ssl jiff attributes = inAppPurchase ssl jiff attributes' := by
  have unknown : (inAppPurchase ssl jiff attributes).unknownAttributes =
      (inAppPurchase ssl jiff attributes').unknownAttributes :=
    (noEmptyValues_inAppPurchase attributes).ext (noEmptyValues_inAppPurchase attributes') fun t =>
      (inAppFields ssl jiff).run_raw_congr (fun _ => rfl) (same.inOrder t)
  rw [inAppPurchase_eq_ofFirsts, inAppPurchase_eq_ofFirsts attributes', unknown,
    same.firstOf_eq]

theorem parseReceiptPayload_eq (same : SameWithinTypes attributes attributes') :
    parseReceiptPayload ssl jiff attributes = parseReceiptPayload ssl jiff attributes' := by
  have unknown : (parseReceiptPayload ssl jiff attributes).unknownAttributes =
      (parseReceiptPayload ssl jiff attributes').unknownAttributes :=
    (noEmptyValues_parseReceiptPayload attributes).ext
      (noEmptyValues_parseReceiptPayload attributes') fun t =>
      (receiptFields ssl jiff).run_raw_congr (fun _ => rfl) (same.inOrder t)
  rw [parseReceiptPayload_eq_ofFirsts, parseReceiptPayload_eq_ofFirsts attributes',
    unknown, same.firstOf_eq, same.valuesOf_eq]

end SameWithinTypes

theorem SameInside.parseInApp_eq {v v' : Bytes} {inner inner' : List Attribute}
    (reads : parseAttributeSet ssl v "in-app purchase attribute" = .ok inner)
    (reads' : parseAttributeSet ssl v' "in-app purchase attribute" = .ok inner')
    (same : SameWithinTypes inner inner') : parseInApp ssl jiff v = parseInApp ssl jiff v' := by
  rw [parseInApp, reads, parseInApp, reads']
  dsimp only
  rw [same.inAppPurchase_eq]

theorem parseReceiptPayload_sameInside
    (all : List.Forall₂ (SameInside ssl) attributes attributes') :
    parseReceiptPayload ssl jiff attributes = parseReceiptPayload ssl jiff attributes' := by
  refine @Reader.run_forall₂ _ _ _ _ (receiptReader ssl jiff) (SameInside ssl) ?_ ?_ ?_ _ _ all
    ({} : ReceiptPayload)
  · rintro _ _ (_ | _) <;> rfl
  · rintro _ _ (_ | ⟨reads, reads', same⟩) receipt
    · rfl
    · exact congrArg (Option.map _) (SameInside.parseInApp_eq reads reads' same)
  · rintro _ _ (_ | @⟨v, v', inner, inner', reads, reads', same⟩)
    · exact .inl fun _ => rfl
    · refine .inr ⟨rfl, fun receipt => ?_⟩
      have decoded : parseInApp ssl jiff v = some (inAppPurchase ssl jiff inner) := by
        rw [parseInApp, reads]
      change ((parseInApp ssl jiff v).map _).isSome = true
      rw [decoded]
      rfl

/-- **Only the order within a type matters.** Attribute lists that differ in the order of attributes
of different types decode to the same payload and the same creation date, and so do the attributes
of a purchase, in the purchase and in the payload it is part of. -/
theorem order_within_types (ssl : OpenSsl) (jiff : Jiff) {attributes attributes' : List Attribute}
    (same : SameWithinTypes attributes attributes') :
    parseReceiptPayload ssl jiff attributes = parseReceiptPayload ssl jiff attributes' ∧
    creationDate ssl jiff attributes = creationDate ssl jiff attributes' ∧
    inAppPurchase ssl jiff attributes = inAppPurchase ssl jiff attributes' ∧
    ∀ attributes'', List.Forall₂ (SameInside ssl) attributes' attributes'' →
      parseReceiptPayload ssl jiff attributes = parseReceiptPayload ssl jiff attributes'' := by
  refine ⟨same.parseReceiptPayload_eq, ?_, same.inAppPurchase_eq, fun _ inside =>
    same.parseReceiptPayload_eq.trans (parseReceiptPayload_sameInside inside)⟩
  rw [creationDate_eq_receiptCreationDateMs, creationDate_eq_receiptCreationDateMs,
    same.parseReceiptPayload_eq]

/-! ## A receipt in two orders -/

namespace Sample

/-- Quantity 5 and product `a`, of a purchase written in two orders. -/
def purchase : List Attribute := [⟨1701, [0x02, 0x01, 0x05]⟩, ⟨1702, [0x0c, 0x01, 0x61]⟩]

def attributeFields (attr : Attribute) : List Asn1Type :=
  [.integer attr.attributeType, .integer 1, .octetString attr.value]

/-- The dated world, with the purchase in the SET `31 00` and the other way around in
`31 02 05 00`. -/
def purchaseSsl : OpenSsl :=
  { datedSsl with
    receiptPayload := fun der =>
      if der = [0x31, 0x00] then some (purchase.map attributeFields)
      else if der = [0x31, 0x02, 0x05, 0x00] then some (purchase.reverse.map attributeFields)
      else none
    integerItem := fun der => if der = [0x02, 0x01, 0x05] then some 5 else none
    displayText := fun der =>
      if der = [0x0c, 0x01, 0x61] then some (12, utf8 "a") else datedSsl.displayText der }

/-- A date, a purchase and a second date. -/
def ordered : List Attribute := [⟨12, dateValue⟩, ⟨17, [0x31, 0x00]⟩, ⟨12, [0x31]⟩]

/-- The purchase first. -/
def reordered : List Attribute := [⟨17, [0x31, 0x00]⟩, ⟨12, dateValue⟩, ⟨12, [0x31]⟩]

/-- The purchase first, and its own attributes the other way around. -/
def reorderedInside : List Attribute :=
  [⟨17, [0x31, 0x02, 0x05, 0x00]⟩, ⟨12, dateValue⟩, ⟨12, [0x31]⟩]

theorem sameWithinTypes_ordered : SameWithinTypes ordered reordered where
  perm := by decide
  inOrder t := by
    by_cases date : 12 = t
    · subst date
      rfl
    · simp [ordered, reordered, List.filter_cons, date]

theorem sameWithinTypes_purchase : SameWithinTypes purchase purchase.reverse where
  perm := by decide
  inOrder t := by
    by_cases quantity : 1701 = t
    · subst quantity
      rfl
    · simp [purchase, List.filter_cons, quantity]

end Sample

/-- The first date stays the one that counts, and the purchase is read from either SET. -/
theorem order_within_types_three :
    parseReceiptPayload Sample.purchaseSsl .gregorian Sample.ordered =
      parseReceiptPayload Sample.purchaseSsl .gregorian Sample.reordered ∧
    creationDate Sample.purchaseSsl .gregorian Sample.ordered =
      creationDate Sample.purchaseSsl .gregorian Sample.reordered ∧
    parseReceiptPayload Sample.purchaseSsl .gregorian Sample.ordered =
      parseReceiptPayload Sample.purchaseSsl .gregorian Sample.reorderedInside ∧
    creationDate Sample.purchaseSsl .gregorian Sample.reordered = some 1577836800000 ∧
    (parseReceiptPayload Sample.purchaseSsl .gregorian Sample.reorderedInside).inApp.map
      (fun purchase => (purchase.quantity, purchase.productId)) = [(some 5, some "a")] := by
  obtain ⟨payload, date, -, inside⟩ :=
    order_within_types Sample.purchaseSsl .gregorian Sample.sameWithinTypes_ordered
  have purchase : SameInside Sample.purchaseSsl ⟨17, [0x31, 0x00]⟩ ⟨17, [0x31, 0x02, 0x05, 0x00]⟩ :=
    .purchase (by decide +kernel) (by decide +kernel) Sample.sameWithinTypes_purchase
  exact ⟨payload, date, inside _ (.cons purchase (.cons (.refl _) (.cons (.refl _) .nil))),
    by decide +kernel, by decide +kernel⟩

end ReceiptVerifier
