import ReceiptVerifier.Lib.Rfc8259

/-!
# A reader of JSON texts

`read` is a reader for the grammar of RFC 8259. It reads every text that spells a value as that
value (`read_eq_of_text`), so a text spells at most one value (`Text.unique`).
-/

namespace Json

/-! ## The reader -/

/-- What follows the white space. -/
def skipSpace (text : List Char) : List Char := text.dropWhile isSpace

/-- The rest of a string after its opening quotation mark. -/
def readBody : List Char → Option (List UInt16 × List Char)
  | '"' :: rest => some ([], rest)
  | '\\' :: 'u' :: a :: b :: c :: d :: rest => do
    let unit ← hexUnit a b c d
    let (units, rest) ← readBody rest
    pure (unit :: units, rest)
  | '\\' :: c :: rest => do
    let unit ← shortEscape c
    let (units, rest) ← readBody rest
    pure (unit :: units, rest)
  | c :: rest =>
    if isUnescaped c then do
      let (units, rest) ← readBody rest
      pure (Utf16.encodeChar c ++ units, rest)
    else none
  | [] => none

/-- A string and what follows it. -/
def readString : List Char → Option (List UInt16 × List Char)
  | '"' :: text => readBody text
  | _ => none

/-- Reads past the whitespace around. -/
def padded {α : Type} (reader : List Char → Option (α × List Char)) (text : List Char) :
    Option (α × List Char) := do
  let (a, rest) ← reader (skipSpace text)
  pure (a, skipSpace rest)

/-- A member's name and the colon. -/
def readName (text : List Char) : Option (List UInt16 × List Char) :=
  match padded readString text with
  | some (name, ':' :: rest) => some (name, rest)
  | _ => none

mutual

/-- The value at the start of a text, and what follows it. -/
def readValue : Nat → List Char → Option (Json × List Char)
  | 0, _ => none
  | fuel + 1, text =>
    match text with
    | '"' :: text => (readBody text).map fun (units, rest) => (.string units, rest)
    | '[' :: text =>
      match skipSpace text with
      | ']' :: rest => pure (.array [], rest)
      | _ => do
        let (value, text) ← padded (readValue fuel) text
        let (values, rest) ← readMore fuel text
        pure (.array (value :: values), rest)
    | '\x7b' :: text =>
      match skipSpace text with
      | '\x7d' :: rest => pure (.object [], rest)
      | _ => do
        let (name, text) ← readName text
        let (value, text) ← padded (readValue fuel) text
        let (members, rest) ← readMoreMembers fuel text
        pure (.object ((name, value) :: members), rest)
    | 'n' :: 'u' :: 'l' :: 'l' :: rest => pure (.null, rest)
    | 't' :: 'r' :: 'u' :: 'e' :: rest => pure (.bool true, rest)
    | 'f' :: 'a' :: 'l' :: 's' :: 'e' :: rest => pure (.bool false, rest)
    | text =>
      if isNumber (text.takeWhile isNumberChar) then
        pure (.number (text.takeWhile isNumberChar), text.dropWhile isNumberChar)
      else none

/-- The elements after one, and the closing bracket. -/
def readMore : Nat → List Char → Option (List Json × List Char)
  | 0, _ => none
  | fuel + 1, text =>
    match text with
    | ',' :: text => do
      let (value, text) ← padded (readValue fuel) text
      let (values, rest) ← readMore fuel text
      pure (value :: values, rest)
    | ']' :: rest => pure ([], rest)
    | _ => none

/-- The members after one, and the closing brace. -/
def readMoreMembers : Nat → List Char → Option (List (List UInt16 × Json) × List Char)
  | 0, _ => none
  | fuel + 1, text =>
    match text with
    | ',' :: text => do
      let (name, text) ← readName text
      let (value, text) ← padded (readValue fuel) text
      let (members, rest) ← readMoreMembers fuel text
      pure ((name, value) :: members, rest)
    | '\x7d' :: rest => pure ([], rest)
    | _ => none

end

/-- Reads a whole text. -/
def read (text : List Char) : Option Json :=
  match padded (readValue text.length) text with
  | some (value, []) => some value
  | _ => none

/-! ## Completeness -/

/-- What may follow a value: nothing that could go on with a number. -/
def Stops (rest : List Char) : Prop := ∀ c more, rest = c :: more → isNumberChar c = false

/-- What may follow an item: neither that nor whitespace. -/
def Delimited (rest : List Char) : Prop :=
  ∀ c more, rest = c :: more → isNumberChar c = false ∧ isSpace c = false

/-- The first character of a value or a name. -/
def Starts (text : List Char) : Prop :=
  ∃ c more, text = c :: more ∧ isSpace c = false ∧ c ≠ ']' ∧ c ≠ '\x7d'

theorem delimited_nil : Delimited [] := by
  intro c more h
  cases h

theorem delimited_cons {c : Char} (h : isNumberChar c = false ∧ isSpace c = false)
    (rest : List Char) : Delimited (c :: rest) := by
  rintro c' more ⟨⟩
  exact h

theorem isNumberChar_of_isSpace {c : Char} (h : isSpace c = true) : isNumberChar c = false := by
  have spaces : c = ' ' ∨ c = '\t' ∨ c = '\n' ∨ c = '\r' := by simpa [isSpace] using h
  obtain rfl | rfl | rfl | rfl := spaces <;> rfl

/-- What follows a value stops a number. -/
theorem Delimited.stops {rest : List Char} (h : Delimited rest) : Stops rest :=
  fun c more same => (h c more same).1

/-- So does white space before it. -/
theorem Delimited.stops_append {rest space : List Char} (h : Delimited rest) (ws : Space space) :
    Stops (space ++ rest) := by
  cases space with
  | nil => exact h.stops
  | cons c space =>
    rintro c' more ⟨⟩
    exact isNumberChar_of_isSpace (ws c List.mem_cons_self)

theorem skipSpace_append {space text : List Char} (ws : Space space) :
    skipSpace (space ++ text) = skipSpace text := by
  unfold skipSpace
  exact List.dropWhile_append_of_pos ws

theorem Delimited.skipSpace_eq {rest : List Char} (h : Delimited rest) : skipSpace rest = rest := by
  cases rest with
  | nil => rfl
  | cons c more =>
    rw [skipSpace, List.dropWhile_cons_of_neg]
    simp [(h c more rfl).2]

theorem Starts.skipSpace_append {text : List Char} (h : Starts text) (rest : List Char) :
    skipSpace (text ++ rest) = text ++ rest := by
  obtain ⟨c, more, rfl, notSpace, -, -⟩ := h
  rw [List.cons_append, skipSpace, List.dropWhile_cons_of_neg]
  simp [notSpace]

/-- A reader that reads every spelling of a value reads it with whitespace around. -/
theorem padded_eq {α : Type} {reader : List Char → Option (α × List Char)} {a : α}
    {spells : List Char → Prop} {item rest : List Char} (h : Padded spells item)
    (starts : ∀ body, spells body → Starts body)
    (reads : ∀ body rest, spells body → body.length ≤ item.length → Stops rest →
      reader (body ++ rest) = some (a, rest)) (delimited : Delimited rest) :
    padded reader (item ++ rest) = some (a, rest) := by
  obtain ⟨before, body, after, spaceBefore, spelt, spaceAfter, rfl⟩ := h
  have short : body.length ≤ (before ++ (body ++ after)).length := by
    simp only [List.length_append]
    omega
  have read := reads body (after ++ rest) spelt short (delimited.stops_append spaceAfter)
  rw [padded, List.append_assoc, List.append_assoc, Json.skipSpace_append spaceBefore,
    (starts body spelt).skipSpace_append, read]
  simp [Json.skipSpace_append spaceAfter, delimited.skipSpace_eq]

/-! ## Strings -/

/-- A character that needs no escape stands for its code units. -/
theorem readBody_raw {c : Char} (h : isUnescaped c = true) (text : List Char) :
    readBody (c :: text) =
      (readBody text).map fun (units, rest) => (Utf16.encodeChar c ++ units, rest) := by
  have notQuote : c ≠ '"' := by rintro rfl; revert h; decide
  have notBackslash : c ≠ '\\' := by rintro rfl; revert h; decide
  rw [readBody.eq_def]
  split
  · next same => exact absurd (List.cons.inj same).1 notQuote
  · next same => exact absurd (List.cons.inj same).1 notBackslash
  · next same => exact absurd (List.cons.inj same).1 notBackslash
  · next same =>
    obtain ⟨rfl, rfl⟩ := List.cons.inj same
    rw [if_pos h]
    cases readBody text <;> rfl
  · next same => cases same

/-- A short escape stands for one code unit. -/
theorem readBody_short {c : Char} {unit : UInt16} (h : shortEscape c = some unit)
    (text : List Char) :
    readBody ('\\' :: c :: text) =
      (readBody text).map fun (units, rest) => (unit :: units, rest) := by
  have notU : c ≠ 'u' := by
    rintro rfl
    cases h
  rw [readBody.eq_def]
  split
  · next same => exact absurd (List.cons.inj same).1 (by decide)
  · next same => exact absurd (List.cons.inj (List.cons.inj same).2).1 notU
  · next same =>
    obtain ⟨-, same⟩ := List.cons.inj same
    obtain ⟨rfl, rfl⟩ := List.cons.inj same
    rw [h]
    cases readBody text <;> rfl
  · next no same =>
    obtain ⟨rfl, rfl⟩ := List.cons.inj same
    exact absurd rfl (no c text rfl)
  · next same => cases same

/-- Four hex digits stand for one code unit. -/
theorem readBody_hex {a b c d : Char} {unit : UInt16} (h : hexUnit a b c d = some unit)
    (text : List Char) :
    readBody ('\\' :: 'u' :: a :: b :: c :: d :: text) =
      (readBody text).map fun (units, rest) => (unit :: units, rest) := by
  rw [readBody, h]
  cases readBody text <;> rfl

/-- What a body spells is read, to the closing quote. -/
theorem readBody_eq {units : List UInt16} {body : List Char} (h : SpellsBody units body)
    (rest : List Char) : readBody (body ++ '"' :: rest) = some (units, rest) := by
  induction h with
  | nil => rw [List.nil_append, readBody]
  | cons head _ ih =>
    cases head with
    | raw c plain => rw [List.append_assoc, List.singleton_append, readBody_raw plain, ih]; rfl
    | short c unit escape =>
      rw [List.append_assoc, List.cons_append, List.singleton_append, readBody_short escape, ih]
      rfl
    | hex a b c d unit escape =>
      rw [List.append_assoc]
      simp only [List.cons_append, List.nil_append]
      rw [readBody_hex escape, ih]
      rfl

/-- What a string spells is read, and what follows is left. -/
theorem readString_eq {units : List UInt16} {text : List Char} (h : SpellsString units text)
    (rest : List Char) : readString (text ++ rest) = some (units, rest) := by
  obtain ⟨body, spelt, rfl⟩ := h
  rw [List.cons_append, List.append_assoc]
  exact readBody_eq spelt rest

theorem SpellsString.starts {units : List UInt16} {text : List Char}
    (h : SpellsString units text) : Starts text := by
  obtain ⟨body, -, rfl⟩ := h
  exact ⟨'"', _, rfl, by decide, by decide, by decide⟩

/-- A member's name is read with its colon and the space around it. -/
theorem readName_eq {name : List UInt16} {named : List Char}
    (h : Padded (SpellsString name) named) (rest : List Char) :
    readName (named ++ ':' :: rest) = some (name, rest) := by
  have read : padded readString (named ++ ':' :: rest) = some (name, ':' :: rest) :=
    padded_eq h (fun _ => SpellsString.starts)
      (fun body rest spelt _ _ => readString_eq spelt rest) (delimited_cons (by decide) rest)
  rw [readName, read]
  rfl

/-! ## Numbers -/

theorem isNumberChar_of_isDigit {c : Char} (h : c.isDigit = true) : isNumberChar c = true := by
  simp [isNumberChar, h]

theorem forall_of_dropWhile {text : List Char}
    (h : ∀ c ∈ text.dropWhile Char.isDigit, isNumberChar c = true) :
    ∀ c ∈ text, isNumberChar c = true := by
  induction text with
  | nil => simp
  | cons d text ih =>
    rw [List.forall_mem_cons]
    by_cases digit : d.isDigit = true
    · rw [List.dropWhile_cons_of_pos digit] at h
      exact ⟨isNumberChar_of_isDigit digit, ih h⟩
    · rw [List.dropWhile_cons_of_neg digit] at h
      exact List.forall_mem_cons.mp h

theorem isDigits_chars {text : List Char} (h : isDigits text = true) :
    ∀ c ∈ text, isNumberChar c = true := by
  rw [isDigits, Bool.and_eq_true, List.all_eq_true] at h
  exact fun c mem => isNumberChar_of_isDigit (h.2 c mem)

theorem isExponent_chars {text : List Char} (h : isExponent text = true) :
    ∀ c ∈ text, isNumberChar c = true := by
  unfold isExponent at h
  split at h
  · simp
  · next e text =>
    rw [Bool.and_eq_true, Bool.or_eq_true, beq_iff_eq, beq_iff_eq] at h
    obtain ⟨letter, digits⟩ := h
    have signed : ∀ c ∈ text, isNumberChar c = true := by
      unfold dropSign at digits
      split at digits
      · exact List.forall_mem_cons.mpr ⟨by decide, isDigits_chars digits⟩
      · exact List.forall_mem_cons.mpr ⟨by decide, isDigits_chars digits⟩
      · exact isDigits_chars digits
    refine List.forall_mem_cons.mpr ⟨?_, signed⟩
    rcases letter with rfl | rfl <;> decide

theorem isFraction_chars {text : List Char} (h : isFraction text = true) :
    ∀ c ∈ text, isNumberChar c = true := by
  unfold isFraction at h
  split at h
  · rw [Bool.and_eq_true] at h
    exact List.forall_mem_cons.mpr ⟨by decide, List.forall_mem_cons.mpr
      ⟨isNumberChar_of_isDigit h.1, forall_of_dropWhile (isExponent_chars h.2)⟩⟩
  · exact isExponent_chars h

/-- The characters of a number without its sign, the first one a digit. -/
theorem isUnsigned_chars {text : List Char} (h : isUnsigned text = true) :
    (∃ d more, text = d :: more ∧ d.isDigit = true) ∧ ∀ c ∈ text, isNumberChar c = true := by
  unfold isUnsigned at h
  split at h
  · exact ⟨⟨_, _, rfl, by decide⟩, List.forall_mem_cons.mpr ⟨by decide, isFraction_chars h⟩⟩
  · rw [Bool.and_eq_true] at h
    exact ⟨⟨_, _, rfl, h.1⟩, List.forall_mem_cons.mpr
      ⟨isNumberChar_of_isDigit h.1, forall_of_dropWhile (isFraction_chars h.2)⟩⟩
  · cases h

/-- A number starts with a digit or a minus, and has no character but those of numbers. -/
theorem isNumber_chars {raw : List Char} (h : isNumber raw = true) :
    (∃ d more, raw = d :: more ∧ (d = '-' ∨ d.isDigit = true)) ∧
      ∀ c ∈ raw, isNumberChar c = true := by
  unfold isNumber at h
  split at h
  · exact ⟨⟨_, _, rfl, .inl rfl⟩, List.forall_mem_cons.mpr ⟨by decide, (isUnsigned_chars h).2⟩⟩
  · obtain ⟨⟨d, more, rfl, digit⟩, chars⟩ := isUnsigned_chars h
    exact ⟨⟨d, more, rfl, .inr digit⟩, chars⟩

/-- A number is read to the end where something that stops one follows. -/
theorem takeWhile_number {raw rest : List Char} (h : isNumber raw = true) (stops : Stops rest) :
    (raw ++ rest).takeWhile isNumberChar = raw ∧ (raw ++ rest).dropWhile isNumberChar = rest := by
  have chars := (isNumber_chars h).2
  rw [List.takeWhile_append_of_pos chars, List.dropWhile_append_of_pos chars]
  cases rest with
  | nil => simp
  | cons c more =>
    have stop := stops c more rfl
    simp [stop]

/-! ## Values -/

/-- What neither a bracket, a brace, a quotation mark nor a literal starts is read as a number. -/
theorem readValue_number {raw rest : List Char} (h : isNumber raw = true) (stops : Stops rest)
    (fuel : Nat) : readValue (fuel + 1) (raw ++ rest) = some (.number raw, rest) := by
  obtain ⟨taken, dropped⟩ := takeWhile_number h stops
  obtain ⟨⟨d, more, rfl, start⟩, -⟩ := isNumber_chars h
  have other : d ≠ '"' ∧ d ≠ '[' ∧ d ≠ '\x7b' ∧ d ≠ 'n' ∧ d ≠ 't' ∧ d ≠ 'f' := by
    refine ⟨?_, ?_, ?_, ?_, ?_, ?_⟩ <;> rintro rfl <;> revert start <;> decide
  obtain ⟨quote, bracket, brace, n, t, f⟩ := other
  rw [readValue.eq_def]
  dsimp only
  split
  · next same => exact absurd (List.cons.inj same).1 quote
  · next same => exact absurd (List.cons.inj same).1 bracket
  · next same => exact absurd (List.cons.inj same).1 brace
  · next same => exact absurd (List.cons.inj same).1 n
  · next same => exact absurd (List.cons.inj same).1 t
  · next same => exact absurd (List.cons.inj same).1 f
  · rw [taken, dropped, if_pos h]
    rfl

/-- No value begins with white space. -/
theorem Spells.starts {value : Json} {text : List Char} (h : value.Spells text) : Starts text := by
  cases value with
  | null =>
    rw [Spells] at h
    exact ⟨'n', _, h, by decide, by decide, by decide⟩
  | bool value =>
    rw [Spells] at h
    cases value with
    | true => exact ⟨'t', _, h, by decide, by decide, by decide⟩
    | false => exact ⟨'f', _, h, by decide, by decide, by decide⟩
  | number raw =>
    rw [Spells] at h
    obtain ⟨number, rfl⟩ := h
    obtain ⟨⟨d, more, rfl, start⟩, -⟩ := isNumber_chars number
    refine ⟨d, more, rfl, ?_, ?_, ?_⟩
    · cases space : isSpace d with
      | false => rfl
      | true =>
        have stop := isNumberChar_of_isSpace space
        rcases start with rfl | digit
        · cases stop
        · rw [isNumberChar_of_isDigit digit] at stop
          cases stop
    · rintro rfl
      revert start
      decide
    · rintro rfl
      revert start
      decide
  | string units =>
    rw [Spells] at h
    exact h.starts
  | array elements =>
    rw [Spells] at h
    obtain ⟨body, -, rfl⟩ := h
    exact ⟨'[', _, rfl, by decide, by decide, by decide⟩
  | object members =>
    rw [Spells] at h
    obtain ⟨body, -, rfl⟩ := h
    exact ⟨'\x7b', _, rfl, by decide, by decide, by decide⟩

/-- What is padded starts, after its whitespace, as the value does. -/
theorem Padded.skipSpace_append {spells : List Char → Prop} {item : List Char}
    (h : Padded spells item) (starts : ∀ body, spells body → Starts body) (rest : List Char) :
    ∃ c more, skipSpace (item ++ rest) = c :: more ∧ c ≠ ']' ∧ c ≠ '\x7d' := by
  obtain ⟨before, body, after, spaceBefore, spelt, -, rfl⟩ := h
  have begins := starts body spelt
  rw [List.append_assoc, List.append_assoc, Json.skipSpace_append spaceBefore,
    begins.skipSpace_append]
  obtain ⟨c, more, rfl, -, bracket, brace⟩ := begins
  exact ⟨c, _, rfl, bracket, brace⟩

/-- An array that does not close at once begins with an element. -/
theorem readValue_array {text : List Char} {c : Char} {more : List Char}
    (first : skipSpace text = c :: more) (h : c ≠ ']') (fuel : Nat) :
    readValue (fuel + 1) ('[' :: text) = (do
      let (value, text) ← padded (readValue fuel) text
      let (values, rest) ← readMore fuel text
      pure (.array (value :: values), rest)) := by
  rw [readValue]
  split
  · next same => exact absurd (List.cons.inj (first.symm.trans same)).1 h
  · rfl

/-- An object that does not close at once begins with a member. -/
theorem readValue_object {text : List Char} {c : Char} {more : List Char}
    (first : skipSpace text = c :: more) (h : c ≠ '\x7d') (fuel : Nat) :
    readValue (fuel + 1) ('\x7b' :: text) = (do
      let (name, text) ← readName text
      let (value, text) ← padded (readValue fuel) text
      let (members, rest) ← readMoreMembers fuel text
      pure (.object ((name, value) :: members), rest)) := by
  rw [readValue]
  split
  · next same => exact absurd (List.cons.inj (first.symm.trans same)).1 h
  · rfl

/-- What follows an element is a comma or the closing bracket. -/
theorem SpellsMore.delimited {values : List Json} {more : List Char} (h : SpellsMore values more)
    (rest : List Char) : Delimited (more ++ ']' :: rest) := by
  cases values with
  | nil =>
    rw [SpellsMore] at h
    rw [h]
    exact delimited_cons (by decide) rest
  | cons value values =>
    rw [SpellsMore] at h
    obtain ⟨item, rest', -, -, rfl⟩ := h
    exact delimited_cons (by decide) _

theorem SpellsMoreMembers.delimited {members : List (List UInt16 × Json)} {more : List Char}
    (h : SpellsMoreMembers members more) (rest : List Char) :
    Delimited (more ++ '\x7d' :: rest) := by
  cases members with
  | nil =>
    rw [SpellsMoreMembers] at h
    rw [h]
    exact delimited_cons (by decide) rest
  | cons member members =>
    rw [SpellsMoreMembers] at h
    obtain ⟨named, item, rest', -, -, -, rfl⟩ := h
    exact delimited_cons (by decide) _

mutual

/-- What a value spells is read as the value, with fuel for each of its characters. -/
theorem readValue_eq : ∀ (value : Json) {text : List Char} (rest : List Char) {fuel : Nat},
    value.Spells text → text.length ≤ fuel → Stops rest →
      readValue fuel (text ++ rest) = some (value, rest)
  | value, text, rest, 0, spelt, enough, _ => by
    obtain ⟨c, more, rfl, -⟩ := spelt.starts
    cases enough
  | .null, text, rest, fuel + 1, spelt, _, _ => by
    rw [Spells] at spelt
    rw [spelt]
    rfl
  | .bool true, text, rest, fuel + 1, spelt, _, _ => by
    rw [Spells] at spelt
    rw [spelt]
    rfl
  | .bool false, text, rest, fuel + 1, spelt, _, _ => by
    rw [Spells] at spelt
    rw [spelt]
    rfl
  | .number raw, text, rest, fuel + 1, spelt, _, stops => by
    rw [Spells] at spelt
    obtain ⟨number, rfl⟩ := spelt
    exact readValue_number number stops fuel
  | .string units, text, rest, fuel + 1, spelt, _, _ => by
    rw [Spells] at spelt
    obtain ⟨body, body', rfl⟩ := spelt
    rw [List.cons_append, List.append_assoc, readValue, List.singleton_append,
      readBody_eq body' rest]
    rfl
  | .array [], text, rest, fuel + 1, spelt, _, _ => by
    rw [Spells] at spelt
    obtain ⟨body, space, rfl⟩ := spelt
    rw [SpellsElements] at space
    have close : skipSpace (body ++ ']' :: rest) = ']' :: rest := by
      rw [skipSpace_append space]
      exact (delimited_cons (by decide) rest).skipSpace_eq
    rw [List.cons_append, List.append_assoc, List.singleton_append, readValue, close]
    rfl
  | .array (value :: values), text, rest, fuel + 1, spelt, enough, _ => by
    rw [Spells] at spelt
    obtain ⟨body, elements, rfl⟩ := spelt
    rw [SpellsElements] at elements
    obtain ⟨item, more, padding, others, rfl⟩ := elements
    simp only [List.length_cons, List.length_append, List.length_nil] at enough
    obtain ⟨c, after, first, bracket, -⟩ := padding.skipSpace_append (fun _ => Spells.starts)
      (more ++ ']' :: rest)
    have one : padded (readValue fuel) (item ++ (more ++ ']' :: rest)) =
        some (value, more ++ ']' :: rest) :=
      padded_eq padding (fun _ => Spells.starts)
        (fun body rest spelt short => readValue_eq value rest spelt (by omega))
        (others.delimited rest)
    have all := readMore_eq values rest others (by omega : more.length < fuel)
    have whole : '[' :: (item ++ more ++ [']']) ++ rest =
        '[' :: (item ++ (more ++ ']' :: rest)) := by simp
    rw [whole, readValue_array first bracket, one]
    simp [all]
  | .object [], text, rest, fuel + 1, spelt, _, _ => by
    rw [Spells] at spelt
    obtain ⟨body, space, rfl⟩ := spelt
    rw [SpellsMembers] at space
    have close : skipSpace (body ++ '\x7d' :: rest) = '\x7d' :: rest := by
      rw [skipSpace_append space]
      exact (delimited_cons (by decide) rest).skipSpace_eq
    rw [List.cons_append, List.append_assoc, List.singleton_append, readValue, close]
    rfl
  | .object ((name, value) :: members), text, rest, fuel + 1, spelt, enough, _ => by
    rw [Spells] at spelt
    obtain ⟨body, elements, rfl⟩ := spelt
    rw [SpellsMembers] at elements
    obtain ⟨named, item, more, naming, padding, others, rfl⟩ := elements
    simp only [List.length_cons, List.length_append, List.length_nil] at enough
    obtain ⟨c, after, first, -, brace⟩ := naming.skipSpace_append (fun _ => SpellsString.starts)
      (':' :: (item ++ (more ++ '\x7d' :: rest)))
    have one : padded (readValue fuel) (item ++ (more ++ '\x7d' :: rest)) =
        some (value, more ++ '\x7d' :: rest) :=
      padded_eq padding (fun _ => Spells.starts)
        (fun body rest spelt short => readValue_eq value rest spelt (by omega))
        (others.delimited rest)
    have all := readMoreMembers_eq members rest others (by omega : more.length < fuel)
    have whole : '\x7b' :: (named ++ ':' :: (item ++ more) ++ ['\x7d']) ++ rest =
        '\x7b' :: (named ++ ':' :: (item ++ (more ++ '\x7d' :: rest))) := by simp
    rw [whole, readValue_object first brace, readName_eq naming]
    simp [one, all]

/-- So are the elements after the first one. -/
theorem readMore_eq : ∀ (values : List Json) {more : List Char} (rest : List Char) {fuel : Nat},
    SpellsMore values more → more.length < fuel →
      readMore fuel (more ++ ']' :: rest) = some (values, rest)
  | values, more, rest, 0, _, enough => by cases enough
  | [], more, rest, fuel + 1, spelt, _ => by
    rw [SpellsMore] at spelt
    rw [spelt]
    rfl
  | value :: values, more, rest, fuel + 1, spelt, enough => by
    rw [SpellsMore] at spelt
    obtain ⟨item, others, padding, spelt, rfl⟩ := spelt
    simp only [List.length_cons, List.length_append] at enough
    have one : padded (readValue fuel) (item ++ (others ++ ']' :: rest)) =
        some (value, others ++ ']' :: rest) :=
      padded_eq padding (fun _ => Spells.starts)
        (fun body rest spelt short => readValue_eq value rest spelt (by omega))
        (spelt.delimited rest)
    have all := readMore_eq values rest spelt (by omega : others.length < fuel)
    rw [List.cons_append, List.append_assoc, readMore]
    simp [one, all]

/-- So are the members after the first one. -/
theorem readMoreMembers_eq : ∀ (members : List (List UInt16 × Json)) {more : List Char}
    (rest : List Char) {fuel : Nat}, SpellsMoreMembers members more → more.length < fuel →
      readMoreMembers fuel (more ++ '\x7d' :: rest) = some (members, rest)
  | members, more, rest, 0, _, enough => by cases enough
  | [], more, rest, fuel + 1, spelt, _ => by
    rw [SpellsMoreMembers] at spelt
    rw [spelt]
    rfl
  | (name, value) :: members, more, rest, fuel + 1, spelt, enough => by
    rw [SpellsMoreMembers] at spelt
    obtain ⟨named, item, others, naming, padding, spelt, rfl⟩ := spelt
    simp only [List.length_cons, List.length_append] at enough
    have one : padded (readValue fuel) (item ++ (others ++ '\x7d' :: rest)) =
        some (value, others ++ '\x7d' :: rest) :=
      padded_eq padding (fun _ => Spells.starts)
        (fun body rest spelt short => readValue_eq value rest spelt (by omega))
        (spelt.delimited rest)
    have all := readMoreMembers_eq members rest spelt (by omega : others.length < fuel)
    have whole : ',' :: (named ++ ':' :: (item ++ others)) ++ '\x7d' :: rest =
        ',' :: (named ++ ':' :: (item ++ (others ++ '\x7d' :: rest))) := by simp
    rw [whole, readMoreMembers, readName_eq naming]
    simp [one, all]

end

/-- Whatever spells a value is read as it. -/
theorem read_eq_of_text {value : Json} {text : List Char} (h : value.Text text) :
    read text = some value := by
  have whole : padded (readValue text.length) (text ++ []) = some (value, []) :=
    padded_eq h (fun _ => Spells.starts)
      (fun body rest spelt short => readValue_eq value rest spelt short) delimited_nil
  rw [List.append_nil] at whole
  rw [read, whole]

/-- A text spells at most one value. -/
theorem Text.unique {value other : Json} {text : List Char} (h : value.Text text)
    (h' : other.Text text) : other = value :=
  Option.some.inj ((read_eq_of_text h').symm.trans (read_eq_of_text h))

/-! ## Characters -/

/-- A character that a text may hold: no control character but those of whitespace. -/
def isTextChar (c : Char) : Bool := decide (0x20 ≤ c.toNat) || isSpace c

theorem isTextChar_of_le {c : Char} (h : 0x20 ≤ c.toNat) : isTextChar c = true := by
  rw [isTextChar, decide_eq_true h, Bool.true_or]

theorem isTextChar_of_isUnescaped {c : Char} (h : isUnescaped c = true) : isTextChar c = true := by
  rw [isUnescaped, Bool.and_eq_true, Bool.and_eq_true] at h
  exact isTextChar_of_le (of_decide_eq_true h.1.1)

theorem isTextChar_of_isNumberChar {c : Char} (h : isNumberChar c = true) :
    isTextChar c = true := by
  rw [isNumberChar, Bool.or_eq_true, Char.isDigit, Bool.and_eq_true, decide_eq_true_eq] at h
  rcases h with ⟨low, -⟩ | mem
  · have low : 48 ≤ c.toNat := low
    exact isTextChar_of_le (by omega)
  · have all : ['-', '+', '.', 'e', 'E'].all isTextChar = true := by decide
    exact List.all_eq_true.mp all c (List.contains_iff_mem.mp mem)

theorem isTextChar_of_shortEscape {c : Char} {unit : UInt16} (h : shortEscape c = some unit) :
    isTextChar c = true := by
  unfold shortEscape at h
  split at h
  all_goals first | decide | cases h

theorem isTextChar_of_hexValue {c : Char} {n : Nat} (h : hexValue c = some n) :
    isTextChar c = true := by
  unfold hexValue at h
  split at h
  · next digit => exact isTextChar_of_isNumberChar (isNumberChar_of_isDigit digit)
  · split at h
    · next lower =>
      have low : 'a'.toNat ≤ c.toNat := lower.1
      exact isTextChar_of_le (Nat.le_trans (by decide) low)
    · split at h
      · next upper =>
        have low : 'A'.toNat ≤ c.toNat := upper.1
        exact isTextChar_of_le (Nat.le_trans (by decide) low)
      · cases h

theorem isTextChar_of_hexUnit {a b c d : Char} {unit : UInt16} (h : hexUnit a b c d = some unit) :
    ∀ x ∈ [a, b, c, d], isTextChar x = true := by
  simp only [hexUnit, Option.bind_eq_bind, Option.bind_eq_some_iff] at h
  obtain ⟨na, ha, nb, hb, nc, hc, nd, hd, -⟩ := h
  simp only [List.forall_mem_cons, isTextChar_of_hexValue ha, isTextChar_of_hexValue hb,
    isTextChar_of_hexValue hc, isTextChar_of_hexValue hd, List.not_mem_nil, false_implies,
    implies_true, and_self]

theorem Space.chars {text : List Char} (h : Space text) : ∀ c ∈ text, isTextChar c = true := by
  intro c mem
  rw [isTextChar, h c mem, Bool.or_true]

/-- White space around a text adds no other control character. -/
theorem Padded.chars {spells : List Char → Prop} {text : List Char} (h : Padded spells text)
    (all : ∀ body, spells body → ∀ c ∈ body, isTextChar c = true) :
    ∀ c ∈ text, isTextChar c = true := by
  obtain ⟨before, body, after, spaceBefore, spelt, spaceAfter, rfl⟩ := h
  simp only [List.forall_mem_append]
  exact ⟨spaceBefore.chars, all body spelt, spaceAfter.chars⟩

/-- A character of a string, escaped or not, is written in characters of a text. -/
theorem SpellsChar.chars {units : List UInt16} {text : List Char} (h : SpellsChar units text) :
    ∀ c ∈ text, isTextChar c = true := by
  cases h with
  | raw c h =>
    rw [List.forall_mem_singleton]
    exact isTextChar_of_isUnescaped h
  | short c unit h =>
    rw [List.forall_mem_cons, List.forall_mem_singleton]
    exact ⟨by decide, isTextChar_of_shortEscape h⟩
  | hex a b c d unit h =>
    rw [List.forall_mem_cons, List.forall_mem_cons]
    exact ⟨by decide, by decide, isTextChar_of_hexUnit h⟩

theorem SpellsString.chars {units : List UInt16} {text : List Char} (h : SpellsString units text) :
    ∀ c ∈ text, isTextChar c = true := by
  obtain ⟨body, spelt, rfl⟩ := h
  have inner : ∀ c ∈ body, isTextChar c = true := by
    induction spelt with
    | nil => exact fun c mem => (List.not_mem_nil mem).elim
    | cons head _ ih => exact List.forall_mem_append.mpr ⟨head.chars, ih⟩
  rw [List.forall_mem_cons, List.forall_mem_append, List.forall_mem_singleton]
  exact ⟨by decide, inner, by decide⟩

mutual

/-- A text holds no control character but those of whitespace, however deep its values are
nested. -/
theorem Spells.chars : ∀ (value : Json) {text : List Char}, value.Spells text →
    ∀ c ∈ text, isTextChar c = true
  | .null, text, h => by
    rw [Spells] at h
    rw [h]
    exact List.all_eq_true.mp (by decide)
  | .bool value, text, h => by
    rw [Spells] at h
    rw [h]
    cases value <;> exact List.all_eq_true.mp (by decide)
  | .number raw, text, h => by
    rw [Spells] at h
    obtain ⟨number, rfl⟩ := h
    exact fun c mem => isTextChar_of_isNumberChar ((isNumber_chars number).2 c mem)
  | .string units, text, h => by
    rw [Spells] at h
    exact h.chars
  | .array elements, text, h => by
    rw [Spells] at h
    obtain ⟨body, spelt, rfl⟩ := h
    rw [List.forall_mem_cons, List.forall_mem_append, List.forall_mem_singleton]
    exact ⟨by decide, elements_chars elements spelt, by decide⟩
  | .object members, text, h => by
    rw [Spells] at h
    obtain ⟨body, spelt, rfl⟩ := h
    rw [List.forall_mem_cons, List.forall_mem_append, List.forall_mem_singleton]
    exact ⟨by decide, members_chars members spelt, by decide⟩

theorem elements_chars : ∀ (values : List Json) {body : List Char}, SpellsElements values body →
    ∀ c ∈ body, isTextChar c = true
  | [], body, h => by
    rw [SpellsElements] at h
    exact h.chars
  | value :: values, body, h => by
    rw [SpellsElements] at h
    obtain ⟨item, more, padding, spelt, rfl⟩ := h
    exact List.forall_mem_append.mpr
      ⟨padding.chars fun _ => Spells.chars value, more_chars values spelt⟩

theorem more_chars : ∀ (values : List Json) {more : List Char}, SpellsMore values more →
    ∀ c ∈ more, isTextChar c = true
  | [], more, h => by
    rw [SpellsMore] at h
    rw [h]
    exact fun c mem => (List.not_mem_nil mem).elim
  | value :: values, more, h => by
    rw [SpellsMore] at h
    obtain ⟨item, rest, padding, spelt, rfl⟩ := h
    rw [List.forall_mem_cons, List.forall_mem_append]
    exact ⟨by decide, padding.chars fun _ => Spells.chars value, more_chars values spelt⟩

theorem members_chars : ∀ (members : List (List UInt16 × Json)) {body : List Char},
    SpellsMembers members body → ∀ c ∈ body, isTextChar c = true
  | [], body, h => by
    rw [SpellsMembers] at h
    exact h.chars
  | (name, value) :: members, body, h => by
    rw [SpellsMembers] at h
    obtain ⟨named, item, more, naming, padding, spelt, rfl⟩ := h
    rw [List.forall_mem_append, List.forall_mem_cons, List.forall_mem_append]
    exact ⟨naming.chars fun _ => SpellsString.chars, by decide,
      padding.chars fun _ => Spells.chars value, moreMembers_chars members spelt⟩

theorem moreMembers_chars : ∀ (members : List (List UInt16 × Json)) {more : List Char},
    SpellsMoreMembers members more → ∀ c ∈ more, isTextChar c = true
  | [], more, h => by
    rw [SpellsMoreMembers] at h
    rw [h]
    exact fun c mem => (List.not_mem_nil mem).elim
  | (name, value) :: members, more, h => by
    rw [SpellsMoreMembers] at h
    obtain ⟨named, item, rest, naming, padding, spelt, rfl⟩ := h
    rw [List.forall_mem_cons, List.forall_mem_append, List.forall_mem_cons, List.forall_mem_append]
    exact ⟨by decide, naming.chars fun _ => SpellsString.chars, by decide,
      padding.chars fun _ => Spells.chars value, moreMembers_chars members spelt⟩

end

theorem Text.chars {value : Json} {text : List Char} (h : value.Text text) :
    ∀ c ∈ text, isTextChar c = true :=
  Padded.chars h fun _ => Spells.chars value

end Json
