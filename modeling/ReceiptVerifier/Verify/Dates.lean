import ReceiptVerifier.Java.ReceiptDecoder

/-!
# The two ports read receipt dates alike

Rust matches the bytes of a text, Java its characters. Both accept only ASCII texts
(`isAscii_of_parseReceiptDate`, `isAscii_of_matchReceiptDate`), and on those each step of one is the
step of the other on the bytes. Rust also refuses what an offset carries outside the years 0000 to
9999 of UTC, which Java returns.
-/

namespace ReceiptVerifier

open Java (matchFraction matchOffset matchReceiptDate parseInt)

/-! ## ASCII texts -/

/-- The byte of an ASCII character. -/
def ascii (c : Char) : UInt8 := UInt8.ofNat c.toNat

def IsAscii (text : List Char) : Prop := ∀ c ∈ text, c.toNat < 0x80

theorem toNat_ascii {c : Char} (h : c.toNat < 0x80) : (ascii c).toNat = c.toNat := by
  rw [ascii, UInt8.toNat_ofNat']
  omega

theorem utf8EncodeChar_ascii {c : Char} (h : c.toNat < 0x80) :
    String.utf8EncodeChar c = [ascii c] := by
  have small : c.val.toNat ≤ 0x7f := by
    have : c.val.toNat < 0x80 := h
    omega
  rw [String.utf8EncodeChar]
  simp only [small, ↓reduceIte]
  rfl

/-- A character outside ASCII has only bytes outside ASCII. -/
theorem utf8EncodeChar_high {c : Char} (h : 0x80 ≤ c.toNat) :
    ∀ b ∈ String.utf8EncodeChar c, 0x80 ≤ b.toNat := by
  have large : ¬ c.val.toNat ≤ 0x7f := by
    have : 0x80 ≤ c.val.toNat := h
    omega
  rw [String.utf8EncodeChar]
  simp only [large, ↓reduceIte]
  split
  · simp
    omega
  · split
    · simp
      omega
    · simp
      omega

theorem utf8_ascii {text : String} (h : IsAscii text.toList) :
    utf8 text = text.toList.map ascii := by
  rw [utf8]
  generalize text.toList = cs at h
  induction cs with
  | nil => rfl
  | cons c cs ih =>
    obtain ⟨own, rest⟩ := List.forall_mem_cons.mp h
    rw [List.flatMap_cons, List.map_cons, utf8EncodeChar_ascii own, ih rest]
    rfl

theorem isAscii_of_utf8 {text : String} (h : ∀ b ∈ utf8 text, b.toNat < 0x80) :
    IsAscii text.toList := by
  intro c mem
  by_contra high
  obtain ⟨b, own⟩ := List.exists_mem_of_ne_nil _ (String.utf8EncodeChar_ne_nil (c := c))
  have large := utf8EncodeChar_high (Nat.le_of_not_lt high) b own
  exact absurd (h b (List.mem_flatMap.mpr ⟨c, mem, own⟩)) (Nat.not_lt.mpr large)

theorem ascii_eq_iff {c d : Char} (hc : c.toNat < 0x80) (hd : d.toNat < 0x80) :
    ascii c = ascii d ↔ c = d := by
  constructor
  · intro same
    have : c.toNat = d.toNat := by rw [← toNat_ascii hc, ← toNat_ascii hd, same]
    exact Char.toNat_inj.mp this
  · exact congrArg ascii

theorem ascii_beq {c d : Char} (hc : c.toNat < 0x80) (hd : d.toNat < 0x80) :
    (ascii c == ascii d) = (c == d) := by
  rw [Bool.eq_iff_iff, beq_iff_eq, beq_iff_eq, ascii_eq_iff hc hd]

theorem isDigit_iff {c : Char} : c.isDigit = true ↔ 0x30 ≤ c.toNat ∧ c.toNat ≤ 0x39 := by
  rw [Char.isDigit]
  simp [UInt32.le_iff_toNat_le]

theorem isAsciiDigit_iff {b : UInt8} :
    isAsciiDigit b = true ↔ 0x30 ≤ b.toNat ∧ b.toNat ≤ 0x39 := by
  rw [isAsciiDigit]
  simp [UInt8.le_iff_toNat_le]

theorem isAsciiDigit_ascii {c : Char} (h : c.toNat < 0x80) :
    isAsciiDigit (ascii c) = c.isDigit := by
  rw [Bool.eq_iff_iff, isAsciiDigit_iff, isDigit_iff, toNat_ascii h]

theorem digit_ascii {c : Char} (h : c.toNat < 0x80) :
    digit (ascii c) = (c.toNat - 0x30 : Nat) := by
  rw [digit, toNat_ascii h]

/-! ## Numbers -/

theorem digits_ascii (field : List Char) (h : IsAscii field) :
    digits (field.map ascii) = if field.all Char.isDigit then some (parseInt field) else none := by
  have fold : ∀ value : Int, (field.map ascii).foldlM (fun (value : Int) byte =>
      if isAsciiDigit byte then some (value * 10 + digit byte) else none) value =
      if field.all Char.isDigit then some (field.foldl (fun (value : Int) (c : Char) =>
        value * 10 + (c.toNat - '0'.toNat : Nat)) value) else none := by
    induction field with
    | nil => simp
    | cons c field ih =>
      obtain ⟨own, rest⟩ := List.forall_mem_cons.mp h
      intro value
      rw [List.map_cons, List.foldlM_cons, isAsciiDigit_ascii own, digit_ascii own]
      cases isDigit : c.isDigit with
      | false => simp [isDigit]
      | true => simpa [isDigit] using ih rest _
  exact fold 0

theorem foldl_digit_ascii {taken : List Char} (h : IsAscii taken) (value : Int) :
    (taken.map ascii).foldl (fun value byte => value * 10 + digit byte) value =
      taken.foldl (fun (value : Int) (c : Char) =>
        value * 10 + (c.toNat - '0'.toNat : Nat)) value := by
  induction taken generalizing value with
  | nil => rfl
  | cons c taken ih =>
    obtain ⟨own, rest⟩ := List.forall_mem_cons.mp h
    rw [List.map_cons, List.foldl_cons, List.foldl_cons, digit_ascii own]
    exact ih rest _

/-! ## The fraction -/

/-- The milliseconds of a fraction, as Java reads them. -/
def fractionMillis (fraction : Option (List Char)) : Int :=
  parseInt (if (fraction.getD []).length > 3 then (fraction.getD []).take 3
    else fraction.getD [] ++ ['0', '0', '0'].drop (fraction.getD []).length)

/-- The first three digits, with zeros for those that are missing. -/
theorem take_three {taken : List Char} (some : taken ≠ []) :
    (taken ++ ['0', '0']).take 3 =
      if taken.length > 3 then taken.take 3 else taken ++ ['0', '0', '0'].drop taken.length := by
  match taken, some with
  | [a], _ => rfl
  | [a, b], _ => rfl
  | [a, b, c], _ => rfl
  | a :: b :: c :: d :: rest, _ => simp

theorem isAscii_take {text : List Char} (h : IsAscii text) (n : Nat) : IsAscii (text.take n) :=
  fun c mem => h c (List.mem_of_mem_take mem)

theorem isAscii_drop {text : List Char} (h : IsAscii text) (n : Nat) : IsAscii (text.drop n) :=
  fun c mem => h c (List.mem_of_mem_drop mem)

theorem takeWhile_ascii {text : List Char} (h : IsAscii text) :
    (text.map ascii).takeWhile isAsciiDigit = (text.takeWhile Char.isDigit).map ascii := by
  induction text with
  | nil => rfl
  | cons c text ih =>
    obtain ⟨own, rest⟩ := List.forall_mem_cons.mp h
    rw [List.map_cons, List.takeWhile_cons, List.takeWhile_cons, isAsciiDigit_ascii own]
    cases c.isDigit with
    | false => rfl
    | true => simp [ih rest]

theorem readFraction_cons (b : UInt8) (rest : Bytes) :
    readFraction (b :: rest) = if b = 0x2e then
      if (rest.takeWhile isAsciiDigit).isEmpty then none
      else some (((rest.takeWhile isAsciiDigit ++ [0x30, 0x30]).take 3).foldl
        (fun value byte => value * 10 + digit byte) 0,
        rest.drop (rest.takeWhile isAsciiDigit).length)
      else some (0, b :: rest) := by
  by_cases dot : b = 0x2e
  · subst dot
    rfl
  · rw [if_neg dot, readFraction]
    intro fraction same
    exact absurd (List.cons.inj same).1 dot

theorem readFraction_ascii {rest : List Char} (h : IsAscii rest) :
    readFraction (rest.map ascii) =
      (matchFraction rest).map fun read => (fractionMillis read.1, read.2.map ascii) := by
  cases rest with
  | nil => rfl
  | cons c rest' =>
    obtain ⟨own, rest⟩ := List.forall_mem_cons.mp h
    have dot : ascii c = 0x2e ↔ c = '.' := ascii_eq_iff (d := '.') own (by decide)
    rw [List.map_cons, readFraction_cons, matchFraction, takeWhile_ascii rest]
    by_cases isDot : c = '.'
    · rw [if_pos (dot.mpr isDot), if_pos (beq_iff_eq.mpr isDot)]
      have taken : IsAscii (rest'.takeWhile Char.isDigit) :=
        fun c mem => rest c (List.takeWhile_subset _ mem)
      generalize digits : rest'.takeWhile Char.isDigit = field at taken ⊢
      cases field with
      | nil => rfl
      | cons d field =>
        have pad : (d :: field).map ascii ++ [0x30, 0x30] =
            (d :: field ++ ['0', '0']).map ascii := by
          simp [ascii]
        have padded : IsAscii ((d :: field ++ ['0', '0']).take 3) := by
          apply isAscii_take
          intro c mem
          rcases List.mem_append.mp mem with own | zero
          · exact taken c own
          · rcases List.mem_pair.mp zero with rfl | rfl <;> decide
        rw [pad, ← List.map_take, foldl_digit_ascii padded, take_three (List.cons_ne_nil d field),
          List.length_map, ← List.map_drop]
        rfl
    · rw [if_neg (mt dot.mp isDot), if_neg (mt beq_iff_eq.mp isDot)]
      rfl

theorem isAscii_matchFraction {rest rest' : List Char} {fraction : Option (List Char)}
    (h : IsAscii rest) (read : matchFraction rest = some (fraction, rest')) : IsAscii rest' := by
  cases rest with
  | nil =>
    cases read
    exact h
  | cons c rest =>
    rw [matchFraction] at read
    split at read
    · dsimp only at read
      split at read
      · cases read
      · cases read
        exact isAscii_drop (List.forall_mem_cons.mp h).2 _
    · cases read
      exact h

/-! ## The offset -/

/-- The minutes of an offset that is in range, as Java reads them. -/
def offsetMinutes (offset : Option (Char × List Char × List Char)) : Option Int :=
  match offset with
  | none => some 0
  | some (sign, hours, minutes) =>
    if parseInt hours > 23 ∨ parseInt minutes > 59 then none
    else some ((parseInt hours * 60 + parseInt minutes) * if sign = '-' then -1 else 1)

theorem readOffset_ascii {rest : List Char} (h : IsAscii rest) :
    readOffset (rest.map ascii) = (matchOffset rest).bind offsetMinutes := by
  match rest, h with
  | [], _ => rfl
  | [z], h =>
    have own : z.toNat < 0x80 := h z List.mem_cons_self
    have upper : (ascii z == 0x5a) = (z == 'Z') := ascii_beq (d := 'Z') own (by decide)
    have lower : (ascii z == 0x7a) = (z == 'z') := ascii_beq (d := 'z') own (by decide)
    simp only [List.map_cons, List.map_nil, readOffset, matchOffset, upper, lower]
    split <;> rfl
  | [sign, h1, h2, colon, m1, m2], h =>
    have plus : (ascii sign == 0x2b) = (sign == '+') :=
      ascii_beq (d := '+') (h sign (by simp)) (by decide)
    have minus : (ascii sign == 0x2d) = (sign == '-') :=
      ascii_beq (d := '-') (h sign (by simp)) (by decide)
    have colons : (ascii colon == 0x3a) = (colon == ':') :=
      ascii_beq (d := ':') (h colon (by simp)) (by decide)
    have hours := digits_ascii [h1, h2]
      fun c mem => h c (by rcases List.mem_pair.mp mem with rfl | rfl <;> simp)
    have minutes := digits_ascii [m1, m2]
      fun c mem => h c (by rcases List.mem_pair.mp mem with rfl | rfl <;> simp)
    simp only [List.map_cons, List.map_nil] at hours minutes
    simp only [List.map_cons, List.map_nil, readOffset, matchOffset, plus, minus, colons, hours,
      minutes]
    have all : [h1, h2, m1, m2].all Char.isDigit =
        ([h1, h2].all Char.isDigit && [m1, m2].all Char.isDigit) := by
      simp [Bool.and_assoc]
    rw [all]
    cases (sign == '+' || sign == '-') && colon == ':' with
    | false => rfl
    | true =>
      cases [h1, h2].all Char.isDigit with
      | false => rfl
      | true =>
        cases [m1, m2].all Char.isDigit with
        | false => rfl
        | true =>
          simp only [Bool.and_self, ↓reduceIte, Option.bind_some, offsetMinutes, beq_iff_eq]
          split_ifs <;> simp
  | [_, _], _ => rfl
  | [_, _, _], _ => rfl
  | [_, _, _, _], _ => rfl
  | [_, _, _, _, _], _ => rfl
  | _ :: _ :: _ :: _ :: _ :: _ :: _ :: _, _ => rfl

/-! ## ASCII dates -/

/-- The instant of the groups of a date, as Java computes it. -/
def dateMillis (m : Java.DateGroups) : Option Int :=
  (offsetMinutes m.offset).bind fun offset =>
    if parseInt m.second > 60 ∨
        !Gregorian.isDate (parseInt m.year) (parseInt m.month) (parseInt m.day) ∨
        !Gregorian.isTime (parseInt m.hour) (parseInt m.minute) (min (parseInt m.second) 59)
    then none
    else
      some ((Gregorian.epochSecond (parseInt m.year) (parseInt m.month) (parseInt m.day)
        (parseInt m.hour) (parseInt m.minute) (min (parseInt m.second) 59) - offset * 60) * 1000 +
        fractionMillis m.fraction)

theorem parseDate_eq (text : String) :
    Java.parseDate text = (matchReceiptDate text.toList).bind dateMillis := by
  unfold Java.parseDate
  cases matchReceiptDate text.toList with
  | none => rfl
  | some m =>
    rcases m with ⟨year, month, day, hour, minute, second, fraction, offset⟩
    cases offset with
    | none =>
      simp only [Option.map_none, Option.getD_none, Option.bind_some, dateMillis, offsetMinutes,
        fractionMillis]
      by_cases late : parseInt second > 60
      · simp [late]
      · simp [late]
    | some read =>
      obtain ⟨sign, hours, minutes⟩ := read
      simp only [Option.map_some, Option.getD_some, Option.bind_some, dateMillis, offsetMinutes,
        fractionMillis, Option.some.injEq]
      by_cases range : parseInt hours > 23 ∨ parseInt minutes > 59
      · rw [if_pos range, if_pos (.inr range)]
        rfl
      · rw [if_neg range]
        by_cases late : parseInt second > 60
        · simp [late]
        · simp [late, range]

/-- Whether an instant is one that Rust returns. -/
def inRange (instant : Int) : Bool := firstMillis ≤ instant ∧ instant ≤ lastMillis

/-- A year of four digits is one that jiff and the calendar agree on. -/
theorem parseInt_year (y1 y2 y3 y4 : Char) (digits : [y1, y2, y3, y4].all Char.isDigit = true) :
    -9999 ≤ parseInt [y1, y2, y3, y4] ∧ parseInt [y1, y2, y3, y4] ≤ 9999 := by
  simp only [List.all_cons, List.all_nil, Bool.and_true, Bool.and_eq_true, isDigit_iff] at digits
  simp only [parseInt, List.foldl_cons, List.foldl_nil, Char.reduceToNat]
  omega

/-- The calendar check and the arithmetic after the fields are read. -/
theorem civil_eq (jiff : Jiff) {year month day hour minute second offset millis : Int}
    (first : -9999 ≤ year) (last : year ≤ 9999) :
    (if second > 60 then none
      else if !jiff.isDate year month day then none
      else if !jiff.isTime hour minute (min second 59) then none
      else if firstMillis ≤ (jiff.sinceEpoch ⟨year, month, day, hour, minute, min second 59⟩ -
          offset * 60) * 1000 + millis ∧ (jiff.sinceEpoch ⟨year, month, day, hour, minute,
          min second 59⟩ - offset * 60) * 1000 + millis ≤ lastMillis
        then some ((jiff.sinceEpoch ⟨year, month, day, hour, minute, min second 59⟩ -
          offset * 60) * 1000 + millis)
      else none) =
    (if second > 60 ∨ !Gregorian.isDate year month day ∨
        !Gregorian.isTime hour minute (min second 59) then none
      else some ((Gregorian.epochSecond year month day hour minute (min second 59) - offset * 60) *
        1000 + millis)).filter inRange := by
  have date : jiff.isDate year month day = Gregorian.isDate year month day :=
    jiff.isDate_eq first last
  have time : jiff.isTime hour minute (min second 59) =
      Gregorian.isTime hour minute (min second 59) := jiff.isTime_eq
  by_cases late : second > 60
  · simp [late]
  · cases isDate : Gregorian.isDate year month day with
    | false => simp [date, isDate]
    | true =>
      cases isTime : Gregorian.isTime hour minute (min second 59) with
      | false => simp [time, isTime]
      | true =>
        have epoch := jiff.sinceEpoch_eq (c := ⟨year, month, day, hour, minute, min second 59⟩)
          (date.trans isDate) (time.trans isTime)
        simp [late, date, isDate, time, isTime, epoch, Option.filter, inRange]

/-- The separators of a date, on its bytes and on its characters. -/
theorem separators_ascii {dash dash' colon colon' t : Char}
    (h : IsAscii [dash, dash', colon, colon', t]) :
    (ascii dash == 0x2d && ascii dash' == 0x2d && ascii colon == 0x3a && ascii colon' == 0x3a &&
      (ascii t == 0x54 || ascii t == 0x74)) =
    (dash == '-' && dash' == '-' && colon == ':' && colon' == ':' && (t == 'T' || t == 't')) := by
  simp only [IsAscii, List.forall_mem_cons] at h
  obtain ⟨hdash, hdash', hcolon, hcolon', ht, -⟩ := h
  rw [show (ascii dash == 0x2d) = (dash == '-') from ascii_beq (d := '-') hdash (by decide),
    show (ascii dash' == 0x2d) = (dash' == '-') from ascii_beq (d := '-') hdash' (by decide),
    show (ascii colon == 0x3a) = (colon == ':') from ascii_beq (d := ':') hcolon (by decide),
    show (ascii colon' == 0x3a) = (colon' == ':') from ascii_beq (d := ':') hcolon' (by decide),
    show (ascii t == 0x54) = (t == 'T') from ascii_beq (d := 'T') ht (by decide),
    show (ascii t == 0x74) = (t == 't') from ascii_beq (d := 't') ht (by decide)]

/-- Each step of Rust on the bytes of an ASCII text is Java's on its characters. -/
theorem parseReceiptDate_ascii (jiff : Jiff) {text : String} (h : IsAscii text.toList) :
    parseReceiptDate jiff text = (Java.parseDate text).filter inRange := by
  rw [parseDate_eq, parseReceiptDate, utf8_ascii h]
  generalize text.toList = cs at h ⊢
  -- nineteen characters, or too few for either
  rcases cs with _ | ⟨y1, _ | ⟨y2, _ | ⟨y3, _ | ⟨y4, _ | ⟨dash, _ | ⟨mo1, _ | ⟨mo2, _ | ⟨dash', _ |
    ⟨d1, _ | ⟨d2, _ | ⟨t, _ | ⟨h1, _ | ⟨h2, _ | ⟨colon, _ | ⟨mi1, _ | ⟨mi2, _ | ⟨colon', _ |
    ⟨s1, _ | ⟨s2, rest⟩⟩⟩⟩⟩⟩⟩⟩⟩⟩⟩⟩⟩⟩⟩⟩⟩⟩⟩
  iterate 19 rfl
  simp only [IsAscii, List.forall_mem_cons] at h
  obtain ⟨hy1, hy2, hy3, hy4, hdash, hmo1, hmo2, hdash', hd1, hd2, ht, hh1, hh2, hcolon, hmi1, hmi2,
    hcolon', hs1, hs2, hrest⟩ := h
  have year := digits_ascii [y1, y2, y3, y4] (by simp [IsAscii, *])
  have month := digits_ascii [mo1, mo2] (by simp [IsAscii, *])
  have day := digits_ascii [d1, d2] (by simp [IsAscii, *])
  have hour := digits_ascii [h1, h2] (by simp [IsAscii, *])
  have minute := digits_ascii [mi1, mi2] (by simp [IsAscii, *])
  have second := digits_ascii [s1, s2] (by simp [IsAscii, *])
  simp only [List.map_cons, List.map_nil] at year month day hour minute second
  simp only [List.map_cons, List.take_succ_cons, List.take_zero, List.drop_succ_cons,
    List.drop_zero,
    year, month, day, hour, minute, second, readFraction_ascii hrest, matchReceiptDate]
  rw [separators_ascii (by simp [IsAscii, *])]
  have all : [y1, y2, y3, y4, mo1, mo2, d1, d2, h1, h2, mi1, mi2, s1, s2].all Char.isDigit =
      ([y1, y2, y3, y4].all Char.isDigit && [mo1, mo2].all Char.isDigit &&
      [d1, d2].all Char.isDigit && [h1, h2].all Char.isDigit && [mi1, mi2].all Char.isDigit &&
      [s1, s2].all Char.isDigit) := by
    simp [Bool.and_assoc]
  have isYear := parseInt_year y1 y2 y3 y4
  rw [all]
  generalize [y1, y2, y3, y4].all Char.isDigit = yearDigits at isYear ⊢
  generalize [mo1, mo2].all Char.isDigit = monthDigits
  generalize [d1, d2].all Char.isDigit = dayDigits
  generalize [h1, h2].all Char.isDigit = hourDigits
  generalize [mi1, mi2].all Char.isDigit = minuteDigits
  generalize [s1, s2].all Char.isDigit = secondDigits
  cases dash == '-' && dash' == '-' && colon == ':' && colon' == ':' && (t == 'T' || t == 't') with
  | false => rfl
  | true =>
    cases fraction : matchFraction rest with
    | none => simp
    | some read =>
      obtain ⟨taken, rest'⟩ := read
      have offset := readOffset_ascii (isAscii_matchFraction hrest fraction)
      by_cases matched : yearDigits && monthDigits && dayDigits && hourDigits && minuteDigits &&
        secondDigits
      · simp only [Bool.and_eq_true] at matched
        obtain ⟨⟨⟨⟨⟨rfl, rfl⟩, rfl⟩, rfl⟩, rfl⟩, rfl⟩ := matched
        obtain ⟨first, last⟩ := isYear rfl
        simp only [Option.map_some, Option.bind_eq_bind, Option.bind_some, offset, ↓reduceIte,
          civil_eq jiff first last, Bool.and_self]
        cases matchOffset rest' with
        | none => rfl
        | some groups =>
          simp only [Option.bind_some, dateMillis]
          cases offsetMinutes groups with
          | none => rfl
          | some minutes => rfl
      · -- Java has matched all the digits by now, Rust fails at the first field without them
        simp only [Bool.and_eq_true, not_and_or, Bool.not_eq_true] at matched
        rcases matched with ((((rfl | rfl) | rfl) | rfl) | rfl) | rfl <;> simp

/-! ## Both ports accept ASCII only -/

theorem toNat_lt_of_isDigit {c : Char} (h : c.isDigit = true) : c.toNat < 0x80 := by
  have := isDigit_iff.mp h
  omega

theorem toNat_lt_of_isAsciiDigit {b : UInt8} (h : isAsciiDigit b = true) : b.toNat < 0x80 := by
  have := isAsciiDigit_iff.mp h
  omega

theorem isAscii_of_matchOffset {rest : List Char} {offset : Option (Char × List Char × List Char)}
    (h : matchOffset rest = some offset) : IsAscii rest := by
  unfold matchOffset at h
  split at h
  · split at h
    next z =>
      simp only [Bool.or_eq_true, beq_iff_eq] at z
      intro c mem
      rw [List.mem_singleton.mp mem]
      rcases z with rfl | rfl <;> decide
    · cases h
  · split at h
    next sign h1 h2 colon m1 m2 shape =>
      simp only [Bool.and_eq_true, Bool.or_eq_true, beq_iff_eq, List.all_cons, List.all_nil,
        Bool.and_true] at shape
      obtain ⟨⟨isSign, rfl⟩, hh1, hh2, hm1, hm2⟩ := shape
      simp only [IsAscii, List.forall_mem_cons]
      refine ⟨?_, toNat_lt_of_isDigit hh1, toNat_lt_of_isDigit hh2, by decide,
        toNat_lt_of_isDigit hm1, toNat_lt_of_isDigit hm2, by simp⟩
      rcases isSign with rfl | rfl <;> decide
    · cases h
  · cases h

theorem forall_mem_of_drop_takeWhile {α : Type} {p : α → Bool} {P : α → Prop} {l : List α}
    (taken : ∀ a, p a = true → P a) (left : ∀ a ∈ l.drop (l.takeWhile p).length, P a) :
    ∀ a ∈ l, P a := by
  induction l with
  | nil => simp
  | cons a l ih =>
    rw [List.takeWhile_cons] at left
    cases own : p a with
    | false => simpa [own] using left
    | true =>
      rw [List.forall_mem_cons]
      exact ⟨taken a own, ih (by simpa [own] using left)⟩

theorem isAscii_of_matchFraction {rest rest' : List Char} {fraction : Option (List Char)}
    (read : matchFraction rest = some (fraction, rest')) (h : IsAscii rest') : IsAscii rest := by
  cases rest with
  | nil => simp [IsAscii]
  | cons c rest =>
    rw [matchFraction] at read
    split at read
    next dot =>
      dsimp only at read
      split at read
      · cases read
      · cases read
        rw [IsAscii, List.forall_mem_cons]
        refine ⟨?_, ?_⟩
        · rw [beq_iff_eq.mp dot]
          decide
        · exact forall_mem_of_drop_takeWhile (fun c => toNat_lt_of_isDigit) h
    · cases read
      exact h

/-- A group of digits. -/
def IsDigits (width : Nat) (text : List Char) : Prop :=
  text.length = width ∧ text.all Char.isDigit = true

theorem IsDigits.isAscii {width : Nat} {text : List Char} (h : IsDigits width text) :
    IsAscii text :=
  fun c mem => toNat_lt_of_isDigit (List.all_eq_true.mp h.2 c mem)

/-- What the pattern matched, group by group. -/
theorem matchReceiptDate_cases {text : List Char} {m : Java.DateGroups}
    (h : matchReceiptDate text = some m) :
    ∃ t rest rest', text = m.year ++ '-' :: (m.month ++ '-' :: (m.day ++ t :: (m.hour ++ ':' ::
        (m.minute ++ ':' :: (m.second ++ rest))))) ∧ (t = 'T' ∨ t = 't') ∧
      matchFraction rest = some (m.fraction, rest') ∧ matchOffset rest' = some m.offset ∧
      IsDigits 4 m.year ∧ IsDigits 2 m.month ∧ IsDigits 2 m.day ∧ IsDigits 2 m.hour ∧
      IsDigits 2 m.minute ∧ IsDigits 2 m.second := by
  unfold matchReceiptDate at h
  split at h
  next y1 y2 y3 y4 dash mo1 mo2 dash' d1 d2 t h1 h2 colon mi1 mi2 colon' s1 s2 rest =>
    split at h
    next shape =>
      simp only [Option.bind_eq_bind, Option.bind_eq_some_iff] at h
      obtain ⟨⟨fraction, rest'⟩, fractionRead, offset, offsetRead, own⟩ := h
      cases own
      simp only [Bool.and_eq_true, Bool.or_eq_true, beq_iff_eq, List.all_cons, List.all_nil,
        Bool.and_true] at shape
      obtain ⟨⟨⟨⟨⟨rfl, rfl⟩, rfl⟩, rfl⟩, letter⟩, hy1, hy2, hy3, hy4, hmo1, hmo2, hd1, hd2, hh1,
        hh2, hmi1, hmi2, hs1, hs2⟩ := shape
      refine ⟨t, rest, rest', rfl, letter, fractionRead, offsetRead, ⟨rfl, ?_⟩, ⟨rfl, ?_⟩,
        ⟨rfl, ?_⟩, ⟨rfl, ?_⟩, ⟨rfl, ?_⟩, ⟨rfl, ?_⟩⟩
      · simp [hy1, hy2, hy3, hy4]
      · simp [hmo1, hmo2]
      · simp [hd1, hd2]
      · simp [hh1, hh2]
      · simp [hmi1, hmi2]
      · simp [hs1, hs2]
    · cases h
  · cases h

theorem isAscii_of_matchReceiptDate {text : List Char} {m : Java.DateGroups}
    (h : matchReceiptDate text = some m) : IsAscii text := by
  obtain ⟨t, rest, rest', rfl, isT, read, matched, year, month, day, hour, minute, second⟩ :=
    matchReceiptDate_cases h
  have left := isAscii_of_matchFraction read (isAscii_of_matchOffset matched)
  have letter : t.toNat < 0x80 := by rcases isT with rfl | rfl <;> decide
  simp only [IsAscii, List.forall_mem_append, List.forall_mem_cons]
  exact ⟨year.isAscii, by decide, month.isAscii, by decide, day.isAscii, letter, hour.isAscii,
    by decide, minute.isAscii, by decide, second.isAscii, left⟩

theorem toNat_lt_of_digits {field : Bytes} {value : Int} (h : digits field = some value) :
    ∀ b ∈ field, b.toNat < 0x80 := by
  have fold : ∀ start : Int, field.foldlM (fun (value : Int) byte =>
      if isAsciiDigit byte then some (value * 10 + digit byte) else none) start = some value →
      ∀ b ∈ field, b.toNat < 0x80 := by
    clear h
    induction field with
    | nil => simp
    | cons b field ih =>
      intro start read
      rw [List.foldlM_cons] at read
      split at read
      next own =>
        rw [List.forall_mem_cons]
        exact ⟨toNat_lt_of_isAsciiDigit own, ih _ read⟩
      · cases read
  exact fold 0 h

theorem toNat_lt_of_readFraction {rest rest' : Bytes} {millis : Int}
    (read : readFraction rest = some (millis, rest')) (h : ∀ b ∈ rest', b.toNat < 0x80) :
    ∀ b ∈ rest, b.toNat < 0x80 := by
  cases rest with
  | nil => simp
  | cons b rest =>
    rw [readFraction_cons] at read
    split at read
    next dot =>
      split at read
      · cases read
      · cases read
        rw [List.forall_mem_cons]
        refine ⟨by rw [dot]; decide, ?_⟩
        exact forall_mem_of_drop_takeWhile (fun b => toNat_lt_of_isAsciiDigit) h
    · cases read
      exact h

theorem toNat_lt_of_readOffset {rest : Bytes} {minutes : Int}
    (read : readOffset rest = some minutes) : ∀ b ∈ rest, b.toNat < 0x80 := by
  unfold readOffset at read
  split at read
  next z =>
    split at read
    next isZ =>
      simp only [Bool.or_eq_true, beq_iff_eq] at isZ
      intro b mem
      rw [List.mem_singleton.mp mem]
      rcases isZ with rfl | rfl <;> decide
    · cases read
  next sign h1 h2 colon m1 m2 =>
    split at read
    next shape =>
      simp only [Bool.and_eq_true, Bool.or_eq_true, beq_iff_eq] at shape
      obtain ⟨isSign, rfl⟩ := shape
      split at read
      next hours minutes readHours readMinutes =>
        have hh := toNat_lt_of_digits readHours
        have hm := toNat_lt_of_digits readMinutes
        simp only [List.forall_mem_cons] at hh hm ⊢
        refine ⟨?_, hh.1, hh.2.1, by decide, hm⟩
        rcases isSign with rfl | rfl <;> decide
      · cases read
    · cases read
  · cases read

theorem isAscii_of_parseReceiptDate {jiff : Jiff} {text : String} {instant : Int}
    (h : parseReceiptDate jiff text = some instant) : IsAscii text.toList := by
  apply isAscii_of_utf8
  unfold parseReceiptDate at h
  split at h
  next y1 y2 y3 y4 dash mo1 mo2 dash' d1 d2 t h1 h2 colon mi1 mi2 colon' s1 s2 head =>
    split at h
    next shape =>
      simp only [Option.bind_eq_bind, Option.bind_eq_some_iff] at h
      obtain ⟨⟨millis, rest'⟩, fraction, minutes, offset, second, hs, h⟩ := h
      split at h
      · cases h
      simp only [Option.bind_eq_some_iff] at h
      obtain ⟨year, hy, month, hmo, day, hd, h⟩ := h
      split at h
      · cases h
      simp only [Option.bind_eq_some_iff] at h
      obtain ⟨hour, hh, minute, hmi, -⟩ := h
      have left := toNat_lt_of_readFraction fraction (toNat_lt_of_readOffset offset)
      simp only [Bool.and_eq_true, Bool.or_eq_true, beq_iff_eq] at shape
      obtain ⟨⟨⟨⟨rfl, rfl⟩, rfl⟩, rfl⟩, isT⟩ := shape
      have letter : t.toNat < 0x80 := by rcases isT with rfl | rfl <;> decide
      have hs := toNat_lt_of_digits hs
      have hy := toNat_lt_of_digits hy
      have hmo := toNat_lt_of_digits hmo
      have hd := toNat_lt_of_digits hd
      have hh := toNat_lt_of_digits hh
      have hmi := toNat_lt_of_digits hmi
      simp only [List.forall_mem_cons] at hs hy hmo hd hh hmi
      have front : ∀ b ∈ (utf8 text).take 19, b.toNat < 0x80 := by
        rw [head]
        simp only [List.forall_mem_cons, letter, hs, hy, hmo, hd, hh, hmi, true_and]
        exact ⟨by decide, by decide, by decide, by decide, by simp⟩
      intro b mem
      rw [← List.take_append_drop 19 (utf8 text)] at mem
      rcases List.mem_append.mp mem with own | own
      · exact front b own
      · exact left b own
    · cases h
  · cases h

/-- **The two ports read receipt dates alike**, as far as Rust reads them: Rust reads what Java
reads within the years 0000 to 9999 of UTC. -/
theorem parseReceiptDate_eq_java (jiff : Jiff) (text : String) :
    parseReceiptDate jiff text = (Java.parseDate text).filter inRange := by
  by_cases own : IsAscii text.toList
  · exact parseReceiptDate_ascii jiff own
  · have java : matchReceiptDate text.toList = none := by
      rw [Option.eq_none_iff_forall_ne_some]
      exact fun m read => own (isAscii_of_matchReceiptDate read)
    have rust : parseReceiptDate jiff text = none := by
      rw [Option.eq_none_iff_forall_ne_some]
      exact fun instant read => own (isAscii_of_parseReceiptDate read)
    rw [rust, parseDate_eq, java]
    rfl

/-- An offset carries a date of the year 0000 into the year before: Java reads it, Rust does not. -/
theorem parseDate_before_first :
    Java.parseDate "0000-01-01T00:00:00+00:01" = some (-62167219260000) ∧
      parseReceiptDate Jiff.gregorian "0000-01-01T00:00:00+00:01" = none := by
  decide +kernel

end ReceiptVerifier
