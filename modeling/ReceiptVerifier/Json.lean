import ReceiptVerifier.Datetime
import ReceiptVerifier.JsonValue

/-!
# JSON documents

`rust/src/json.rs`: the documents the core reads as JSON, each into a map from member name to the
member's raw text, and the values read from it. The grammar is `serde_json`'s, a crate outside the
repository, so it is a parameter (`SerdeJson`).
-/

namespace ReceiptVerifier

/-- What `serde_json` reads. A value's raw text is the text it has in the document. -/
structure SerdeJson where
  /-- The members of the object a document is, in order, each name unescaped and each value raw. -/
  wholeObject : String → Option (List (String × String))
  /-- The members of the object a document starts with. -/
  leadingObject : String → Option (List (String × String))
  /-- The whole document as a value, in which a repeated name keeps its last value, or the text of
  the error. -/
  value : String → Except String JsonValue
  /-- The value, when it is a string. -/
  string : String → Option String
  /-- The elements, when the value is an array of strings. -/
  strings : String → Option (List String)
  /-- `str::parse` of a number with a fraction or an exponent, when it is a finite double within the
  `i64` range, cast to an `i64`. -/
  double : String → Option Int

/-- `core::str::from_utf8`. -/
def fromUtf8 (bytes : Bytes) : Option String := String.fromUTF8? ⟨bytes.toArray⟩

theorem fromUtf8_utf8 (text : String) : fromUtf8 (utf8 text) = some text := by
  have bytes : (⟨(utf8 text).toArray⟩ : ByteArray) = text.toByteArray := by
    rw [← String.utf8Encode_toList, List.utf8Encode, utf8]
    apply ByteArray.ext
    simp
  rw [fromUtf8, bytes, String.fromUTF8?, dif_pos text.isValidUTF8]
  rfl

/-- A document's members: each name, and the raw text of its last value. -/
abbrev Members := Std.ExtTreeMap String String

/-- A repeated name keeps its last value. -/
def membersOf (members : List (String × String)) : Members :=
  members.foldl (fun map member => map.insert member.1 member.2) ∅

variable (json : SerdeJson)

/-- The members of the object a text starts with. What follows the object is not read. -/
def topLevelMembers (text : String) : Option Members := (json.leadingObject text).map membersOf

/-- The members of the object that is the whole text. -/
def wholeObjectMembers (text : String) : Option Members := (json.wholeObject text).map membersOf

/-- The member's value when it is a string. -/
def string (members : Members) (name : String) : Option String := members[name]?.bind json.string

/-- The member's value when it is an array whose elements are all strings. -/
def strings (members : Members) (name : String) : Option (List String) :=
  members[name]?.bind json.strings

/-- The `White_Space` property. -/
def isWhitespace (c : Char) : Bool :=
  let n := c.toNat
  0x9 ≤ n && n ≤ 0xd || n == 0x20 || n == 0x85 || n == 0xa0 || n == 0x1680 ||
    0x2000 ≤ n && n ≤ 0x200a || n == 0x2028 || n == 0x2029 || n == 0x202f || n == 0x205f ||
    n == 0x3000

/-- `str::trim`. -/
def trim (text : List Char) : List Char :=
  ((text.dropWhile isWhitespace).reverse.dropWhile isWhitespace).reverse

/-- The number a run of decimal digits spells. -/
def decimal (text : List Char) : Option Int :=
  if text.isEmpty then none
  else
    text.foldlM (fun (value : Int) c =>
      if c.isDigit then some (value * 10 + (c.toNat - 0x30 : Nat)) else none) 0

/-- `str::parse` to an `i64`. -/
def parseI64 (text : List Char) : Option Int :=
  let value :=
    match text with
    | '-' :: digits => (decimal digits).map fun value => -value
    | '+' :: digits => decimal digits
    | digits => decimal digits
  value.filter fun value => decide (-(2 ^ 63) ≤ value ∧ value < 2 ^ 63)

/-- The member's value as epoch milliseconds: an integer must fit an `i64`; a number with a fraction
or an exponent is truncated. -/
def instant (members : Members) (name : String) : Option Int :=
  match members[name]? with
  | none => none
  | some raw =>
    let text := trim raw.toList
    if !text.head?.any fun c => c == '-' || c.isDigit then none
    else if text.all fun c => c == '-' || c.isDigit then parseI64 text
    else json.double (String.ofList text)

end ReceiptVerifier
