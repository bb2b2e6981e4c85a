import Mathlib.Data.List.TakeWhile
import ReceiptVerifier.Lib.Utf16

/-!
# JSON texts

The grammar of RFC 8259: `Json.Spells` relates a value to the texts that spell it, whitespace and
escapes included, and `Json.Text` adds the whitespace around. A string is its UTF-16 code units, so
that every escape has a value, and a number is its text.

Compact texts, with no whitespace, are put together with `spells_array` and `spells_object`.
-/

/-- A JSON value. -/
inductive Json where
  | null
  | bool (value : Bool)
  | number (raw : List Char)
  | string (units : List UInt16)
  | array (elements : List Json)
  | object (members : List (List UInt16 × Json))

namespace Json

/-! ## Numbers -/

def isNumberChar (c : Char) : Bool := c.isDigit || ['-', '+', '.', 'e', 'E'].contains c

def dropSign : List Char → List Char
  | '-' :: text => text
  | '+' :: text => text
  | text => text

def isDigits (text : List Char) : Bool := !text.isEmpty && text.all Char.isDigit

/-- `[ exp ]`. -/
def isExponent : List Char → Bool
  | [] => true
  | c :: text => (c == 'e' || c == 'E') && isDigits (dropSign text)

/-- `[ frac ] [ exp ]`. -/
def isFraction : List Char → Bool
  | '.' :: d :: text => d.isDigit && isExponent (text.dropWhile Char.isDigit)
  | text => isExponent text

/-- `int [ frac ] [ exp ]`. -/
def isUnsigned : List Char → Bool
  | '0' :: text => isFraction text
  | d :: text => d.isDigit && isFraction (text.dropWhile Char.isDigit)
  | [] => false

/-- `number`. -/
def isNumber : List Char → Bool
  | '-' :: text => isUnsigned text
  | text => isUnsigned text

/-! ## Strings -/

/-- The value of a hexadecimal digit. -/
def hexValue (c : Char) : Option Nat :=
  if c.isDigit then some (c.toNat - '0'.toNat)
  else if 'a' ≤ c ∧ c ≤ 'f' then some (c.toNat - 'a'.toNat + 10)
  else if 'A' ≤ c ∧ c ≤ 'F' then some (c.toNat - 'A'.toNat + 10)
  else none

/-- The code unit of `\uXXXX`. -/
def hexUnit (a b c d : Char) : Option UInt16 := do
  let a ← hexValue a
  let b ← hexValue b
  let c ← hexValue c
  let d ← hexValue d
  pure (.ofNat (((a * 16 + b) * 16 + c) * 16 + d))

/-- The code unit of an escape with a letter. -/
def shortEscape : Char → Option UInt16
  | '"' => some 0x22
  | '\\' => some 0x5c
  | '/' => some 0x2f
  | 'b' => some 0x08
  | 'f' => some 0x0c
  | 'n' => some 0x0a
  | 'r' => some 0x0d
  | 't' => some 0x09
  | _ => none

/-- A character a string holds as it is. -/
def isUnescaped (c : Char) : Bool := 0x20 ≤ c.toNat && c != '"' && c != '\\'

/-- `char`, with the code units it stands for. -/
inductive SpellsChar : List UInt16 → List Char → Prop
  | raw (c : Char) (h : isUnescaped c = true) : SpellsChar (Utf16.encodeChar c) [c]
  | short (c : Char) (unit : UInt16) (h : shortEscape c = some unit) : SpellsChar [unit] ['\\', c]
  | hex (a b c d : Char) (unit : UInt16) (h : hexUnit a b c d = some unit) :
      SpellsChar [unit] ['\\', 'u', a, b, c, d]

/-- What stands between the quotation marks of a string. -/
inductive SpellsBody : List UInt16 → List Char → Prop
  | nil : SpellsBody [] []
  | cons {char units : List UInt16} {text body : List Char} (head : SpellsChar char text)
      (rest : SpellsBody units body) : SpellsBody (char ++ units) (text ++ body)

/-- `string`. -/
def SpellsString (units : List UInt16) (text : List Char) : Prop :=
  ∃ body, SpellsBody units body ∧ text = '"' :: (body ++ ['"'])

/-! ## Values -/

def isSpace (c : Char) : Bool := [' ', '\t', '\n', '\r'].contains c

/-- `ws`. -/
def Space (text : List Char) : Prop := ∀ c ∈ text, isSpace c = true

/-- A text with whitespace around it. -/
def Padded (spells : List Char → Prop) (text : List Char) : Prop :=
  ∃ before body after, Space before ∧ spells body ∧ Space after ∧ text = before ++ (body ++ after)

def literal (value : Bool) : List Char := if value then "true".toList else "false".toList

mutual

/-- `value`. -/
def Spells : Json → List Char → Prop
  | .null, text => text = "null".toList
  | .bool value, text => text = literal value
  | .number raw, text => isNumber raw = true ∧ text = raw
  | .string units, text => SpellsString units text
  | .array elements, text =>
    ∃ body, SpellsElements elements body ∧ text = '[' :: (body ++ [']'])
  | .object members, text =>
    ∃ body, SpellsMembers members body ∧ text = '\x7b' :: (body ++ ['\x7d'])

/-- What stands between the brackets of an array. -/
def SpellsElements : List Json → List Char → Prop
  | [], body => Space body
  | value :: values, body => ∃ item more, Padded (fun text => value.Spells text) item ∧
      SpellsMore values more ∧ body = item ++ more

/-- The elements after one: a separator before each. -/
def SpellsMore : List Json → List Char → Prop
  | [], more => more = []
  | value :: values, more => ∃ item rest, Padded (fun text => value.Spells text) item ∧
      SpellsMore values rest ∧ more = ',' :: (item ++ rest)

/-- What stands between the braces of an object. -/
def SpellsMembers : List (List UInt16 × Json) → List Char → Prop
  | [], body => Space body
  | (name, value) :: members, body => ∃ named item more, Padded (SpellsString name) named ∧
      Padded (fun text => value.Spells text) item ∧ SpellsMoreMembers members more ∧
      body = named ++ ':' :: (item ++ more)

/-- The members after one. -/
def SpellsMoreMembers : List (List UInt16 × Json) → List Char → Prop
  | [], more => more = []
  | (name, value) :: members, more => ∃ named item rest, Padded (SpellsString name) named ∧
      Padded (fun text => value.Spells text) item ∧ SpellsMoreMembers members rest ∧
      more = ',' :: (named ++ ':' :: (item ++ rest))

end

/-- `JSON-text`. -/
def Text (value : Json) (text : List Char) : Prop := Padded value.Spells text

/-! ## Compact texts -/

theorem space_nil : Space [] := fun _ mem => nomatch mem

theorem padded_self {spells : List Char → Prop} {text : List Char} (h : spells text) :
    Padded spells text :=
  ⟨[], text, [], space_nil, h, space_nil, by simp⟩

theorem intercalate_cons (text : List Char) (texts : List (List Char)) :
    [','].intercalate (text :: texts) = text ++ texts.flatMap fun text => ',' :: text := by
  induction texts generalizing text with
  | nil => simp [List.intercalate]
  | cons next texts ih =>
    have step : [','].intercalate (text :: next :: texts) =
        text ++ ',' :: [','].intercalate (next :: texts) := by
      simp [List.intercalate, List.intersperse]
    rw [step, ih, List.flatMap_cons, List.cons_append]

theorem spellsMore_flatMap {texts : List (List Char)} {values : List Json}
    (h : List.Forall₂ (fun text value => value.Spells text) texts values) :
    SpellsMore values (texts.flatMap fun text => ',' :: text) := by
  induction h with
  | nil => rw [SpellsMore]; rfl
  | cons spelt _ ih =>
    rw [SpellsMore]
    exact ⟨_, _, padded_self spelt, ih, rfl⟩

/-- The elements' texts with a separator between them, in brackets. -/
theorem spells_array {texts : List (List Char)} {values : List Json}
    (h : List.Forall₂ (fun text value => value.Spells text) texts values) :
    (Json.array values).Spells ('[' :: ([','].intercalate texts ++ [']'])) := by
  rw [Spells]
  refine ⟨_, ?_, rfl⟩
  cases h with
  | nil => rw [SpellsElements]; exact space_nil
  | cons spelt rest =>
    rw [SpellsElements, intercalate_cons]
    exact ⟨_, _, padded_self spelt, spellsMore_flatMap rest, rfl⟩

/-- A name, a colon and a value. -/
def SpellsMember (text : List Char) (member : List UInt16 × Json) : Prop :=
  ∃ named item, SpellsString member.1 named ∧ member.2.Spells item ∧ text = named ++ ':' :: item

theorem spellsMoreMembers_flatMap {texts : List (List Char)} {members : List (List UInt16 × Json)}
    (h : List.Forall₂ SpellsMember texts members) :
    SpellsMoreMembers members (texts.flatMap fun text => ',' :: text) := by
  induction h with
  | nil => rw [SpellsMoreMembers]; rfl
  | cons spelt _ ih =>
    obtain ⟨named, item, naming, value, rfl⟩ := spelt
    rw [SpellsMoreMembers]
    exact ⟨_, _, _, padded_self naming, padded_self value, ih, by simp⟩

/-- The members' texts with a separator between them, in braces. -/
theorem spells_object {texts : List (List Char)} {members : List (List UInt16 × Json)}
    (h : List.Forall₂ SpellsMember texts members) :
    (Json.object members).Spells ('\x7b' :: ([','].intercalate texts ++ ['\x7d'])) := by
  rw [Spells]
  refine ⟨_, ?_, rfl⟩
  cases h with
  | nil => rw [SpellsMembers]; exact space_nil
  | cons spelt rest =>
    obtain ⟨named, item, naming, value, rfl⟩ := spelt
    rw [SpellsMembers, intercalate_cons]
    exact ⟨_, _, _, padded_self naming, padded_self value, spellsMoreMembers_flatMap rest, by simp⟩

theorem spellsBody_raw {text : List Char} (h : ∀ c ∈ text, isUnescaped c = true) :
    SpellsBody (Utf16.encode text) text := by
  induction text with
  | nil => exact .nil
  | cons c text ih =>
    rw [List.forall_mem_cons] at h
    exact .cons (.raw c h.1) (ih h.2)

/-! ## Integers -/

/-- The number that digits spell. -/
def digitsValue (text : List Char) : Option Nat :=
  if isDigits text then some (Nat.ofDigitChars 10 text 0) else none

/-- The integer that a text in decimal spells. -/
def decimal : List Char → Option Int
  | '-' :: text => (digitsValue text).map fun n : Nat => -(n : Int)
  | text => (digitsValue text).map fun n : Nat => (n : Int)

theorem isDigits_toDigits (n : Nat) : isDigits (Nat.toDigits 10 n) = true := by
  rw [isDigits, Bool.and_eq_true, List.all_eq_true]
  refine ⟨?_, fun c mem => Nat.isDigit_of_mem_toDigits (by decide) (by decide) mem⟩
  simp [Nat.toDigits_ne_nil]

theorem digitsValue_toDigits (n : Nat) : digitsValue (Nat.toDigits 10 n) = some n := by
  rw [digitsValue, if_pos (isDigits_toDigits n), Nat.ofDigitChars_ten_toDigits]

theorem toDigits_head {n : Nat} (h : 0 < n) :
    ∃ d more, Nat.toDigits 10 n = d :: more ∧ d ≠ '0' := by
  induction n using Nat.strongRecOn with
  | _ n ih =>
    by_cases small : n < 10
    · refine ⟨n.digitChar, [], Nat.toDigits_of_lt_base small, ?_⟩
      have digits : ∀ d < 10, 0 < d → d.digitChar ≠ '0' := by decide
      exact digits n small h
    · obtain ⟨d, more, digits, nonzero⟩ := ih (n / 10) (by omega) (by omega)
      exact ⟨d, _, by rw [Nat.toDigits_of_base_le (by decide) (by omega), digits, List.cons_append],
        nonzero⟩

theorem isUnsigned_toDigits (n : Nat) : isUnsigned (Nat.toDigits 10 n) = true := by
  rcases Nat.eq_zero_or_pos n with rfl | positive
  · decide
  · obtain ⟨d, more, digits, nonzero⟩ := toDigits_head positive
    have all : ∀ c ∈ d :: more, c.isDigit = true := by
      rw [← digits]
      exact fun c mem => Nat.isDigit_of_mem_toDigits (by decide) (by decide) mem
    rw [List.forall_mem_cons] at all
    rw [digits]
    unfold isUnsigned
    split
    · next same => exact absurd (List.cons.inj same).1 nonzero
    · next same =>
      obtain ⟨rfl, rfl⟩ := List.cons.inj same
      rw [List.dropWhile_eq_nil_iff.mpr all.2, all.1]
      rfl
    · next same => cases same

theorem toList_repr (n : Int) : n.repr.toList =
    if 0 ≤ n then Nat.toDigits 10 n.toNat else '-' :: Nat.toDigits 10 (-n).toNat := by
  rw [Int.repr_eq_if]
  split <;> simp [Nat.toList_repr]

theorem toDigits_head_ne_minus (n : Nat) (more : List Char) : Nat.toDigits 10 n ≠ '-' :: more := by
  intro same
  have digit : '-'.isDigit = true :=
    Nat.isDigit_of_mem_toDigits (b := 10) (n := n) (by decide) (by decide)
      (by rw [same]; exact List.mem_cons_self)
  cases digit

/-- An integer in decimal is a number. -/
theorem isNumber_repr (n : Int) : isNumber n.repr.toList = true := by
  rw [toList_repr]
  split
  · unfold isNumber
    split
    · next same => exact absurd same (toDigits_head_ne_minus _ _)
    · exact isUnsigned_toDigits _
  · exact isUnsigned_toDigits _

theorem decimal_repr (n : Int) : decimal n.repr.toList = some n := by
  rw [toList_repr]
  split
  · next positive =>
    unfold decimal
    split
    · next same => exact absurd same (toDigits_head_ne_minus _ _)
    · rw [digitsValue_toDigits, Option.map_some, Int.toNat_of_nonneg positive]
  · next negative =>
    rw [decimal, digitsValue_toDigits, Option.map_some, Int.toNat_of_nonneg (by omega), Int.neg_neg]

/-! ## Names -/

mutual

/-- No object in the value repeats a name. -/
def NodupNames : Json → Prop
  | .array elements => NodupElements elements
  | .object members => (members.map Prod.fst).Nodup ∧ NodupMembers members
  | _ => True

def NodupElements : List Json → Prop
  | [] => True
  | value :: values => value.NodupNames ∧ NodupElements values

def NodupMembers : List (List UInt16 × Json) → Prop
  | [] => True
  | (_, value) :: members => value.NodupNames ∧ NodupMembers members

end

theorem nodupElements_iff {values : List Json} :
    NodupElements values ↔ ∀ value ∈ values, value.NodupNames := by
  induction values with
  | nil => simp [NodupElements]
  | cons value values ih => rw [NodupElements, ih, List.forall_mem_cons]

theorem nodupMembers_iff {members : List (List UInt16 × Json)} :
    NodupMembers members ↔ ∀ member ∈ members, member.2.NodupNames := by
  induction members with
  | nil => simp [NodupMembers]
  | cons member members ih => rw [NodupMembers, ih, List.forall_mem_cons]

end Json
