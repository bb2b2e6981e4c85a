import Mathlib.Data.List.Basic
import Mathlib.Tactic.Common

/-!
# JSON values

`serde_json`'s `Value` and `Map`, and the compact text `Display` writes. The crate is built without
`preserve_order`, so a map is ordered by name.
-/

namespace ReceiptVerifier

/-- `serde_json::Value`. -/
inductive JsonValue where
  | null
  | bool (value : Bool)
  | number (value : Int)
  /-- A number that is no integer of 64 bits, in the text it is written in. -/
  | float (text : String)
  | string (text : String)
  | array (elements : List JsonValue)
  | object (members : List (String × JsonValue))

/-- `serde_json::Map`: each name once, in order. -/
abbrev JsonMap := List (String × JsonValue)

namespace JsonMap

/-- A name that is there gets the new value. -/
def insert : JsonMap → String → JsonValue → JsonMap
  | [], key, value => [(key, value)]
  | (key', value') :: json, key, value =>
    if key < key' then (key, value) :: (key', value') :: json
    else if key == key' then (key, value) :: json
    else (key', value') :: insert json key value

theorem lookup_insert_self (json : JsonMap) (key : String) (value : JsonValue) :
    (json.insert key value).lookup key = some value := by
  induction json with
  | nil => simp [insert]
  | cons member json ih =>
    obtain ⟨key', value'⟩ := member
    rw [insert]
    split
    · simp
    · split
      · simp
      next differs =>
        rw [Bool.not_eq_true] at differs
        rw [List.lookup_cons, differs]
        exact ih

end JsonMap

/-! ## The text -/

/-- A digit of `\u00xx`. -/
def hexDigit (n : Nat) : Char := "0123456789abcdef".toList.getD n '0'

/-- A character in a string: the escapes of RFC 8259 that have a letter, `\u00xx` for the other
control characters, and everything else as it is. -/
def escapeChar (c : Char) : List Char :=
  if c == '"' then ['\\', '"']
  else if c == '\\' then ['\\', '\\']
  else if c.toNat == 0x08 then ['\\', 'b']
  else if c.toNat == 0x09 then ['\\', 't']
  else if c.toNat == 0x0a then ['\\', 'n']
  else if c.toNat == 0x0c then ['\\', 'f']
  else if c.toNat == 0x0d then ['\\', 'r']
  else if c.toNat < 0x20 then
    ['\\', 'u', '0', '0', hexDigit (c.toNat / 16), hexDigit (c.toNat % 16)]
  else [c]

def displayString (text : String) : String :=
  "\"" ++ String.ofList (text.toList.flatMap escapeChar) ++ "\""

mutual

/-- `Display`, with no whitespace. -/
def JsonValue.display : JsonValue → String
  | .null => "null"
  | .bool value => toString value
  | .float text => text
  | .number value => toString value
  | .string text => displayString text
  | .array elements => "[" ++ JsonValue.displayElements elements ++ "]"
  | .object members => "\x7b" ++ JsonValue.displayMembers members ++ "\x7d"

def JsonValue.displayElements : List JsonValue → String
  | [] => ""
  | [value] => value.display
  | value :: values => value.display ++ "," ++ JsonValue.displayElements values

def JsonValue.displayMembers : List (String × JsonValue) → String
  | [] => ""
  | [(key, value)] => displayString key ++ ":" ++ value.display
  | (key, value) :: members =>
    displayString key ++ ":" ++ value.display ++ "," ++ JsonValue.displayMembers members

end

/-! ## The text of another writer -/

mutual

/-- A compact text whose strings are written in a way of its own. -/
def JsonValue.displayWith (quote : String → String) : JsonValue → String
  | .null => "null"
  | .bool value => toString value
  | .float text => text
  | .number value => toString value
  | .string text => quote text
  | .array elements => "[" ++ ",".intercalate (JsonValue.displayElementsWith quote elements) ++ "]"
  | .object members =>
    "\x7b" ++ ",".intercalate (JsonValue.displayMembersWith quote members) ++ "\x7d"

def JsonValue.displayElementsWith (quote : String → String) : List JsonValue → List String
  | [] => []
  | value :: values => value.displayWith quote :: JsonValue.displayElementsWith quote values

def JsonValue.displayMembersWith (quote : String → String) :
    List (String × JsonValue) → List String
  | [] => []
  | (key, value) :: members =>
    (quote key ++ ":" ++ value.displayWith quote) :: JsonValue.displayMembersWith quote members

end

end ReceiptVerifier
