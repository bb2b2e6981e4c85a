import ReceiptVerifier.Openssl.Certificate

/-!
# The receipt payload's ASN.1

`rust/openssl/src/payload.rs`: the attribute SET and the INTEGER and string values inside it, read
by OpenSSL's item decoders after the header walk.
-/

namespace ReceiptVerifier

namespace Openssl

/-- One attribute as OpenSSL reads it. -/
structure RawAttribute where
  attributeType : Int
  value : Bytes
deriving DecidableEq, Repr

/-- `ASN1_INTEGER_get_int64`. -/
def int64 (value : Int) : Option Int :=
  if -2 ^ 63 ≤ value ∧ value < 2 ^ 63 then some value else none

/-- The type and the value of an attribute's fields. -/
def attributeOf (fields : List Asn1Type) : Option RawAttribute :=
  match fields with
  | .integer type :: _ :: .octetString value :: _ =>
    (int64 type).map fun type => { attributeType := type, value := value }
  | _ => none

def walkErrorText : WalkError → String
  | .tooDeep => "payload nests deeper than the ASN.1 depth bound"
  | .tooManyNodes => "payload holds more values than the ASN.1 node budget"
  | .malformed | .trailing => "payload is not one well-formed value"

variable (ssl : OpenSsl)

/-- The third field of an entry, when the entry is constructed and has one. -/
def entryValue (entry : Bytes) : Option Bytes :=
  (children ssl.asn1 entry).bind fun fields => fields[2]?

/-- The loop of `valuesAreOctetStrings` over the entries. -/
def entriesAreOctetStrings : List Bytes → Except ChunkError Unit
  | [] => .ok ()
  | entry :: entries =>
    match entryValue ssl entry with
    | none => entriesAreOctetStrings entries
    | some value =>
      match header ssl.asn1 value with
      | none => entriesAreOctetStrings entries
      | some h =>
        if h.constructed && h.cls == vAsn1Universal && h.tag == vAsn1OctetString then
          match octetStringExact ssl.asn1 value with
          | .error err => .error err
          | .ok () => entriesAreOctetStrings entries
        else entriesAreOctetStrings entries

/-- Whether the chunks of every constructed attribute value are OCTET STRINGs. -/
def valuesAreOctetStrings (set : Bytes) : Except ChunkError Unit :=
  match children ssl.asn1 set with
  | none => .ok ()
  | some entries => entriesAreOctetStrings ssl entries

/-- Reads a `SET OF ReceiptAttribute`. -/
def attributeSet (der : Bytes) (budget : Budget) : Except String (List RawAttribute) :=
  match walkExact ssl.asn1 der budget .short (some ssl.decodesAsAny) with
  | .error err => .error (walkErrorText err)
  | .ok () =>
    match valuesAreOctetStrings ssl der with
    | .error _ => .error "an attribute value has a chunk that is not an OCTET STRING"
    | .ok () =>
      match (ssl.receiptPayload der).bind fun entries => entries.mapM attributeOf with
      | none => .error "payload is not a SET OF ReceiptAttribute"
      | some attributes => .ok attributes

/-- Reads a payload's attributes, unwrapping one OCTET STRING around the SET. -/
def receiptAttributes (der : Bytes) (budget : Budget) : Except String (List RawAttribute) :=
  let isOctetString := (header ssl.asn1 der).any fun h =>
    h.cls == vAsn1Universal && h.tag == vAsn1OctetString
  if !isOctetString then attributeSet ssl der budget
  else
    match walkExact ssl.asn1 der budget .short (some ssl.decodesAsAny) with
    | .error err => .error (walkErrorText err)
    | .ok () =>
      match octetStringExact ssl.asn1 der with
      | .error .foreign =>
        .error "double-wrapped payload has a chunk that is not an OCTET STRING"
      | .error .malformed => .error "double-wrapped payload does not decode"
      | .ok () =>
        match ssl.octetStringItem der with
        | none => .error "double-wrapped payload does not decode"
        | some inner =>
          match attributeSet ssl inner budget with
          | .error _ => .error "double-wrapped payload is not a SET OF ReceiptAttribute"
          | .ok attributes => .ok attributes

/-- The header of a value, when it is not in a long form. -/
def shortHeader (der : Bytes) : Option Ber.Header :=
  (header ssl.asn1 der).filter fun h => !isLongForm h

/-- An INTEGER that fits 64 bits. -/
def attributeInteger (der : Bytes) : Option Int :=
  if (shortHeader ssl der).isNone then none
  else (ssl.integerItem der).bind int64

/-- The two string types Apple uses. -/
inductive StringKind where
  | utf8
  | ia5
deriving DecidableEq, Repr

/-- A primitive UTF8String or IA5String. -/
def attributeString (der : Bytes) : Option (StringKind × Bytes) :=
  match shortHeader ssl der with
  | none => none
  | some h =>
    if h.constructed then none
    else
      match ssl.displayText der with
      | none => none
      | some (kind, octets) =>
        if kind = 12 then some (.utf8, octets)
        else if kind = 22 then some (.ia5, octets)
        else none

end Openssl

end ReceiptVerifier
