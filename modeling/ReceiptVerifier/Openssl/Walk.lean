import ReceiptVerifier.Lib.Ber
import ReceiptVerifier.Basic

/-!
# The header walk

`rust/openssl/src/walk.rs`: OpenSSL's header decoder, `ASN1_get_object`, run over raw BER before any
value is decoded. The walk bounds how deep constructed values nest and how many values there are,
and hands each value OpenSSL's `ANY` decoder would judge to a check the caller supplies.

`ASN1_get_object` is OpenSSL's, so it is a parameter (`Asn1GetObject`) with its documented
behaviour; `headerReader` is what `header` makes of it, in the terms of `Ber`.
-/

namespace ReceiptVerifier

namespace Openssl

open Ber (Header HeaderReader isLongLength lengthOctets)

/-! ## Headers -/

/-- What one call of `ASN1_get_object` reports. -/
structure Asn1Object where
  tag : Nat
  cls : Nat
  constructed : Bool
  indefinite : Bool
  /-- How far the cursor moved: the identifier and the length octets. -/
  head : Nat
  /-- The content length; 0 for an indefinite one. -/
  length : Nat
deriving DecidableEq, Repr

/-- `ASN1_get_object`, `none` when it reports an error, as X.690 describes what it reads: an
identifier octet (more in high-tag form), an initial length octet and the octets it announces. -/
structure Asn1GetObject where
  getObject : Bytes → Option Asn1Object
  two_le_head : ∀ {i o}, getObject i = some o → 2 ≤ o.head
  head_le : ∀ {i o}, getObject i = some o → o.head ≤ i.length
  indefinite_constructed : ∀ {i o}, getObject i = some o → o.indefinite = true →
    o.constructed = true ∧ o.length = 0
  constructed_iff : ∀ {b i o}, getObject (b :: i) = some o →
    (o.constructed = true ↔ b &&& 0x20 ≠ 0)
  short_head : ∀ {b i o}, getObject (b :: i) = some o → b &&& 0x1f ≠ 0x1f →
    o.head = 2 + lengthOctets (b :: i)
  /-- Octets after the content are not looked at, but `asn1_get_length` asks for one octet more than
  a length in the long form takes. -/
  getObject_congr : ∀ {i j o}, getObject i = some o → j.take o.head = i.take o.head →
    o.head + o.length ≤ j.length → (isLongLength (i.take o.head) = true → o.head < j.length) →
    getObject j = some o

/-- `V_ASN1_UNIVERSAL`. -/
def vAsn1Universal : Nat := 0x00
/-- `V_ASN1_OCTET_STRING`. -/
def vAsn1OctetString : Nat := 4
/-- `V_ASN1_SEQUENCE`. -/
def vAsn1Sequence : Nat := 16
/-- `V_ASN1_SET`. -/
def vAsn1Set : Nat := 17

/-- Whether the header is one `Headers::Short` refuses. -/
def isLongForm (h : Header) : Bool :=
  h.highTagForm || decide (h.head > 2 + 4)

/-- The octets of the whole value, for a definite length. -/
def definiteSize (h : Header) : Nat := h.head + h.content

variable (g : Asn1GetObject)

/-- The header of the TLV at the start of `input`, whose definite content must lie within
`input`. -/
def header (input : Bytes) : Option Header :=
  match input with
  | [] => none
  | first :: _ =>
    match g.getObject input with
    | none => none
    | some o =>
      if o.head + o.length ≤ input.length then
        some { tag := o.tag, cls := o.cls, constructed := o.constructed,
               indefinite := o.indefinite, head := o.head, content := o.length,
               highTagForm := first &&& 0x1f == 0x1f }
      else none

variable {g} in
theorem header_eq_some {input : Bytes} {h : Header} (e : header g input = some h) :
    ∃ first rest o, input = first :: rest ∧ g.getObject input = some o ∧
      o.head + o.length ≤ input.length ∧
      h = { tag := o.tag, cls := o.cls, constructed := o.constructed, indefinite := o.indefinite,
            head := o.head, content := o.length, highTagForm := first &&& 0x1f == 0x1f } := by
  cases input with
  | nil => simp [header] at e
  | cons first rest =>
    cases ho : g.getObject (first :: rest) with
    | none => simp [header, ho] at e
    | some o =>
      simp only [header, ho] at e
      split at e
      · rename_i fits
        exact ⟨first, rest, o, rfl, rfl, fits, (Option.some.inj e).symm⟩
      · cases e

/-- `header` as a `Ber.HeaderReader`. -/
def headerReader : HeaderReader where
  header := header g
  two_le_head e := by
    obtain ⟨_, _, o, _, ho, _, rfl⟩ := header_eq_some e
    exact g.two_le_head ho
  fits e := by
    obtain ⟨_, _, o, _, _, fits, rfl⟩ := header_eq_some e
    exact fits
  indefinite_constructed e := by
    obtain ⟨_, _, o, _, ho, _, rfl⟩ := header_eq_some e
    exact g.indefinite_constructed ho
  constructed_iff e := by
    obtain ⟨_, _, o, same, ho, _, rfl⟩ := header_eq_some e
    obtain ⟨rfl, rfl⟩ := List.cons.inj same
    exact g.constructed_iff ho
  highTagForm_iff e := by
    obtain ⟨first, rest, o, rfl, _, _, rfl⟩ := header_eq_some e
    simp
  short_head e := by
    obtain ⟨first, rest, o, rfl, ho, _, rfl⟩ := header_eq_some e
    intro low
    exact g.short_head ho (by simpa using low)
  header_congr {i j h} e hj hlen more := by
    obtain ⟨first, rest, o, rfl, ho, _, rfl⟩ := header_eq_some e
    have two := g.two_le_head ho
    cases j with
    | nil => simp only [List.length_nil] at hlen; omega
    | cons first' rest' =>
      have same : first' = first := by
        have := congrArg List.head? hj
        simpa [List.head?_take, show o.head ≠ 0 by omega] using this
      subst same
      simp only [header, g.getObject_congr ho hj hlen more]
      rw [if_pos hlen]

/-! ## The walk -/

/-- How far one walk may go: constructed values nested inside one another, and values in all. -/
structure Budget where
  depth : Nat
  nodes : Nat

/-- Which header forms a walk accepts: all of BER, or none in high-tag form and none with more than
four length octets. -/
inductive Headers where
  | ber
  | short
deriving DecidableEq, Repr

/-- Why a walk stopped. -/
inductive WalkError where
  | malformed
  | trailing
  | tooDeep
  | tooManyNodes
deriving DecidableEq, Repr

/-- The universal types whose primitive form OpenSSL's `ANY` decoder checks. -/
def checkedTags : List Nat := [1, 2, 3, 5, 6, 10, 16, 17, 23, 24, 28, 30]

/-- The universal types OpenSSL refuses in constructed form. -/
def primitiveOnlyTags : List Nat := [1, 2, 5, 6, 10]

structure Walker where
  maxDepth : Nat
  headers : Headers
  primitive : Option (Bytes → Bool)

namespace Walker

variable (w : Walker)

/-- `Headers::Short` and a header it refuses. -/
def refusesForm (h : Header) : Bool :=
  w.headers == .short && isLongForm h

/-- A primitive value outside a constructed string that the check refuses. -/
def refusesPrimitive (h : Header) (string : Nat) (value : Bytes) : Bool :=
  match w.primitive with
  | none => false
  | some check =>
    string == 0 && h.cls == vAsn1Universal && checkedTags.contains h.tag && !check value

/-- The constructed-string level of the children of a constructed value, itself a chunk of `string`
levels: one more inside a string, 1 at the outermost level of a string a check is there to judge,
else 0. `none` for a type OpenSSL reads only as a primitive. -/
def level (h : Header) (string : Nat) : Option Nat :=
  if string > 0 then some (string + 1)
  else if w.primitive.isSome && h.cls == vAsn1Universal && h.tag != vAsn1Sequence &&
      h.tag != vAsn1Set then
    if primitiveOnlyTags.contains h.tag then none else some 1
  else some 0

/-- A whole constructed string that the check refuses. -/
def refusesString (level : Nat) (value : Bytes) : Bool :=
  match w.primitive with
  | none => false
  | some check => level == 1 && !check value

end Walker

/-- An encoded size: every value consumes at least two octets. -/
abbrev Size := { n : Nat // 2 ≤ n }

mutual

/-- The encoded size of the value at the start of `input`, and the nodes left after it. The value
sits inside `depth` constructed values and is a chunk of a constructed string of `string`
constructed levels (0 outside any string). -/
def Walker.value (w : Walker) (nodesLeft : Nat) (input : Bytes) (depth string : Nat) :
    Except WalkError (Size × Nat) :=
  match nodesLeft with
  | 0 => .error .tooManyNodes
  | nodesLeft + 1 =>
    match e : header g input with
    | none => .error .malformed
    | some h =>
      have two : 2 ≤ h.head := (headerReader g).two_le_head e
      if w.refusesForm h then .error .malformed
      else if h.constructed = false then
        if w.refusesPrimitive h string (input.take (definiteSize h)) then .error .malformed
        else .ok (⟨definiteSize h, Nat.le_add_right_of_le two⟩, nodesLeft)
      else if depth ≥ w.maxDepth then .error .tooDeep
      else
        match w.level h string with
        | none => .error .malformed
        | some level =>
          let walked :=
            if h.indefinite then
              Walker.untilEoc w nodesLeft (input.drop h.head) (depth + 1) level
            else
              Walker.filling w nodesLeft ((input.drop h.head).take h.content) (depth + 1) level
          match walked with
          | .error err => .error err
          | .ok (walked, nodesLeft) =>
            let size := h.head + walked
            if w.refusesString level (input.take size) then .error .malformed
            else .ok (⟨size, Nat.le_add_right_of_le two⟩, nodesLeft)
termination_by 2 * input.length
decreasing_by
  all_goals
    have fits := (headerReader g).fits e
    simp only [List.length_take, List.length_drop]
    omega

/-- The values of an indefinite length, up to and with its end-of-contents octets. -/
def Walker.untilEoc (w : Walker) (nodesLeft : Nat) (rest : Bytes) (depth level : Nat) :
    Except WalkError (Nat × Nat) :=
  match rest with
  -- no octets: what `value` answers for them
  | [] => if nodesLeft = 0 then .error .tooManyNodes else .error .malformed
  | first :: rest =>
    if Ber.eoc.isPrefixOf (first :: rest) then .ok (2, nodesLeft)
    else
      match Walker.value w nodesLeft (first :: rest) depth level with
      | .error err => .error err
      | .ok (size, nodesLeft) =>
        match Walker.untilEoc w nodesLeft ((first :: rest).drop size.1) depth level with
        | .error err => .error err
        | .ok (walked, nodesLeft) => .ok (size.1 + walked, nodesLeft)
termination_by 2 * rest.length + 1
decreasing_by
  · omega
  · have := size.2
    simp only [List.length_drop, List.length_cons]
    omega

/-- The values of a definite length, which must fill it. -/
def Walker.filling (w : Walker) (nodesLeft : Nat) (rest : Bytes) (depth level : Nat) :
    Except WalkError (Nat × Nat) :=
  match rest with
  | [] => .ok (0, nodesLeft)
  | first :: rest =>
    if w.primitive.isSome && Ber.eoc.isPrefixOf (first :: rest) then .error .malformed
    else
      match Walker.value w nodesLeft (first :: rest) depth level with
      | .error err => .error err
      | .ok (size, nodesLeft) =>
        match Walker.filling w nodesLeft ((first :: rest).drop size.1) depth level with
        | .error err => .error err
        | .ok (walked, nodesLeft) => .ok (size.1 + walked, nodesLeft)
termination_by 2 * rest.length + 1
decreasing_by
  · omega
  · have := size.2
    simp only [List.length_drop, List.length_cons]
    omega

end

/-- Walks the one value `input` must be, within `budget`, with nothing after it. -/
def walkExact (input : Bytes) (budget : Budget) (headers : Headers)
    (primitive : Option (Bytes → Bool)) : Except WalkError Unit :=
  let walker : Walker := { maxDepth := budget.depth, headers := headers, primitive := primitive }
  match walker.value g budget.nodes input 0 0 with
  | .error err => .error err
  | .ok (size, _) => if size.1 = input.length then .ok () else .error .trailing

/-! ## The helpers over walked input -/

/-- How deep the helpers below go on their own. -/
def helperDepth : Nat := 256

/-- `usize::MAX`. -/
def usizeMax : Nat := 2 ^ 64 - 1

/-- The encoded size of the value at the start of `input`; `none` when it is not one value. -/
def sizeOfValue (input : Bytes) : Option Size :=
  let walker : Walker := { maxDepth := helperDepth, headers := .ber, primitive := none }
  match walker.value g usizeMax input 0 0 with
  | .error _ => none
  | .ok (size, _) => some size

/-- The loop of `children` over what is left of the body. -/
def childrenFrom (indefinite : Bool) (rest : Bytes) : Option (List Bytes) :=
  match rest with
  | [] => if indefinite then none else some []
  | first :: rest =>
    if indefinite && Ber.eoc.isPrefixOf (first :: rest) then some []
    else
      match sizeOfValue g (first :: rest) with
      | none => none
      | some size =>
        (childrenFrom indefinite ((first :: rest).drop size.1)).map
          ((first :: rest).take size.1 :: ·)
termination_by rest.length
decreasing_by
  have := size.2
  simp only [List.length_drop, List.length_cons]
  omega

/-- The values inside the constructed value at the start of `input`, each as its whole encoding, in
order. `none` when `input` does not start with a constructed value, or one of them is not a
value. -/
def children (input : Bytes) : Option (List Bytes) :=
  match header g input with
  | none => none
  | some outer =>
    if outer.constructed = false then none
    else if outer.indefinite then childrenFrom g true (input.drop outer.head)
    else childrenFrom g false ((input.drop outer.head).take outer.content)

/-- Why the chunks of a constructed `OCTET STRING` are refused. -/
inductive ChunkError where
  | foreign
  | malformed
deriving DecidableEq, Repr

mutual

/-- The encoded size of the `OCTET STRING` at the start of `input`, when its chunks at every depth
are `OCTET STRING`s, with `depthLeft` constructed levels still allowed. -/
def octetStringWithin (input : Bytes) (depthLeft : Nat) : Except ChunkError Size :=
  match e : header g input with
  | none => .error .malformed
  | some string =>
    have two : 2 ≤ string.head := (headerReader g).two_le_head e
    if string.tag ≠ vAsn1OctetString ∨ string.cls ≠ vAsn1Universal then .error .foreign
    else if string.constructed = false then
      .ok ⟨definiteSize string, Nat.le_add_right_of_le two⟩
    else
      match depthLeft with
      | 0 => .error .malformed
      | depthLeft + 1 =>
        let walked :=
          if string.indefinite then
            chunksUntilEoc (input.drop string.head) depthLeft
          else
            chunksFilling ((input.drop string.head).take string.content) depthLeft
        match walked with
        | .error err => .error err
        | .ok walked => .ok ⟨string.head + walked, Nat.le_add_right_of_le two⟩
termination_by 2 * input.length
decreasing_by
  all_goals
    have fits := (headerReader g).fits e
    simp only [List.length_take, List.length_drop]
    omega

/-- The chunks of an indefinite length, up to and with its end-of-contents octets. -/
def chunksUntilEoc (rest : Bytes) (depthLeft : Nat) : Except ChunkError Nat :=
  match rest with
  | [] => .error .malformed
  | first :: rest =>
    if Ber.eoc.isPrefixOf (first :: rest) then .ok 2
    else
      match octetStringWithin (first :: rest) depthLeft with
      | .error err => .error err
      | .ok size =>
        match chunksUntilEoc ((first :: rest).drop size.1) depthLeft with
        | .error err => .error err
        | .ok walked => .ok (size.1 + walked)
termination_by 2 * rest.length + 1
decreasing_by
  · omega
  · have := size.2
    simp only [List.length_drop, List.length_cons]
    omega

/-- The chunks of a definite length, which must fill it. -/
def chunksFilling (rest : Bytes) (depthLeft : Nat) : Except ChunkError Nat :=
  match rest with
  | [] => .ok 0
  | first :: rest =>
    match octetStringWithin (first :: rest) depthLeft with
    | .error err => .error err
    | .ok size =>
      match chunksFilling ((first :: rest).drop size.1) depthLeft with
      | .error err => .error err
      | .ok walked => .ok (size.1 + walked)
termination_by 2 * rest.length + 1
decreasing_by
  · omega
  · have := size.2
    simp only [List.length_drop, List.length_cons]
    omega

end

/-- `octet_string_within` at the helpers' own depth bound. -/
def octetString (input : Bytes) : Except ChunkError Size :=
  octetStringWithin g input helperDepth

/-- Whether the value that is all of `input` is an `OCTET STRING` whose chunks, at every depth, are
`OCTET STRING`s. -/
def octetStringExact (input : Bytes) : Except ChunkError Unit :=
  match octetString g input with
  | .error err => .error err
  | .ok size => if size.1 = input.length then .ok () else .error .malformed

end Openssl

end ReceiptVerifier
