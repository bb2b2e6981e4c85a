import ReceiptVerifier.Lib.Rfc3339
import ReceiptVerifier.Verify.Dates

/-!
# The language of receipt dates

`parseReceiptDate` accepts the RFC 3339 texts of instants from 0000-01-01T00:00:00Z to
9999-12-31T23:59:59.999Z and no other text, and gives the instant down to the millisecond.
-/

namespace ReceiptVerifier

open Java (matchFraction matchOffset matchReceiptDate parseInt)
open Rfc3339 (SpellsNumber SpellsFraction SpellsOffset Stamp fractionValue)

/-! ## Numbers -/

theorem parseInt_eq (text : List Char) : parseInt text = (Nat.ofDigitChars 10 text 0 : Int) := by
  have fold : ∀ value : Nat, text.foldl (fun (value : Int) (c : Char) =>
      value * 10 + (c.toNat - '0'.toNat : Nat)) value = (Nat.ofDigitChars 10 text value : Int) := by
    induction text with
    | nil => exact fun value => rfl
    | cons c text ih =>
      intro value
      rw [List.foldl_cons, Nat.ofDigitChars_cons, ← ih, Int.mul_comm]
      rfl
  exact fold 0

theorem spellsNumber_parseInt {width : Nat} {text : List Char} (digits : IsDigits width text) :
    SpellsNumber width text (parseInt text).toNat :=
  ⟨digits.1, digits.2, by rw [parseInt_eq, Int.toNat_natCast]⟩

theorem parseInt_nonneg (text : List Char) : 0 ≤ parseInt text := by
  rw [parseInt_eq]
  exact Int.natCast_nonneg _

theorem parseInt_of_spellsNumber {width value : Nat} {text : List Char}
    (h : SpellsNumber width text value) : parseInt text = value := by
  rw [parseInt_eq, h.2.2]

/-- Two digits, as the characters they are. -/
theorem SpellsNumber.cases_two {text : List Char} {value : Nat} (h : SpellsNumber 2 text value) :
    ∃ a b, text = [a, b] ∧ a.isDigit = true ∧ b.isDigit = true := by
  obtain ⟨length, digits, -⟩ := h
  match text, length with
  | [a, b], _ => exact ⟨a, b, rfl, by simpa using digits⟩

theorem SpellsNumber.cases_four {text : List Char} {value : Nat} (h : SpellsNumber 4 text value) :
    ∃ a b c d, text = [a, b, c, d] ∧ a.isDigit = true ∧ b.isDigit = true ∧ c.isDigit = true ∧
      d.isDigit = true := by
  obtain ⟨length, digits, -⟩ := h
  match text, length with
  | [a, b, c, d], _ => exact ⟨a, b, c, d, rfl, by simpa using digits⟩

/-! ## Fractions -/

/-- The milliseconds of a fraction are its first three digits, which round it down. -/
theorem fractionMillis_eq {digits : List Char} (all : digits.all Char.isDigit = true) :
    fractionMillis (some digits) = ⌊fractionValue digits * 1000⌋ := by
  rw [fractionMillis, Option.getD_some, parseInt_eq]
  split
  next long =>
    have three : (digits.take 3).length = 3 := List.length_take_of_le (Nat.le_of_lt long)
    have floor := @Rfc3339.floor_fractionValue (digits.take 3) (digits.drop 3)
      (by rwa [List.take_append_drop])
    rw [List.take_append_drop, three] at floor
    exact_mod_cast floor.symm
  next short =>
    have zeros : ['0', '0', '0'].drop digits.length = List.replicate (3 - digits.length) '0' := by
      change (List.replicate 3 '0').drop digits.length = _
      rw [List.drop_replicate]
    have three : (digits ++ List.replicate (3 - digits.length) '0').length = 3 := by
      rw [List.length_append, List.length_replicate]
      omega
    have floor := @Rfc3339.floor_fractionValue (digits ++ List.replicate (3 - digits.length) '0') []
      (by simp [all])
    rw [List.append_nil, three, Rfc3339.fractionValue_append_zeros] at floor
    rw [zeros]
    exact_mod_cast floor.symm

theorem fractionMillis_none : fractionMillis none = ⌊(0 : ℚ) * 1000⌋ := by
  rw [zero_mul, Int.floor_zero]
  rfl

theorem spellsFraction_of_match {rest rest' : List Char} {fraction : Option (List Char)}
    (h : matchFraction rest = some (fraction, rest')) :
    ∃ text value, SpellsFraction text value ∧ rest = text ++ rest' ∧
      fractionMillis fraction = ⌊value * 1000⌋ := by
  cases rest with
  | nil =>
    cases h
    exact ⟨[], 0, .absent, rfl, fractionMillis_none⟩
  | cons c rest =>
    rw [matchFraction] at h
    split at h
    next dot =>
      dsimp only at h
      split at h
      · cases h
      next some =>
        cases h
        rw [List.isEmpty_iff] at some
        have all : (rest.takeWhile Char.isDigit).all Char.isDigit = true := List.all_takeWhile
        refine ⟨_, _, .digits some all, ?_, fractionMillis_eq all⟩
        rw [beq_iff_eq.mp dot, List.cons_append,
          List.prefix_iff_eq_append.mp (List.takeWhile_prefix Char.isDigit)]
    · cases h
      exact ⟨[], 0, .absent, rfl, fractionMillis_none⟩

/-- What follows a fraction does not go on with it. -/
def EndsFraction (rest : List Char) : Prop :=
  ∀ c, rest.head? = some c → c ≠ '.' ∧ c.isDigit = false

theorem matchFraction_of_spells {text rest : List Char} {value : ℚ} (h : SpellsFraction text value)
    (ends : EndsFraction rest) :
    ∃ fraction, matchFraction (text ++ rest) = some (fraction, rest) ∧
      fractionMillis fraction = ⌊value * 1000⌋ := by
  cases h with
  | absent =>
    refine ⟨none, ?_, fractionMillis_none⟩
    cases rest with
    | nil => rfl
    | cons c rest =>
      have dot : ¬ (c == '.') = true := fun isDot => (ends c rfl).1 (beq_iff_eq.mp isDot)
      rw [List.nil_append, matchFraction, if_neg dot]
  | @digits digits some all =>
    refine ⟨digits, ?_, fractionMillis_eq all⟩
    have stops : rest.takeWhile Char.isDigit = [] := by
      cases rest with
      | nil => rfl
      | cons c rest => simp [(ends c rfl).2]
    have taken : (digits ++ rest).takeWhile Char.isDigit = digits := by
      rw [List.takeWhile_append_of_pos (List.all_eq_true.mp all), stops, List.append_nil]
    rw [List.cons_append, matchFraction, if_pos (beq_self_eq_true _)]
    dsimp only
    rw [taken, if_neg (by rwa [List.isEmpty_iff]), List.drop_left]

/-! ## Offsets -/

theorem spellsOffset_of_match {rest : List Char} {offset : Option (Char × List Char × List Char)}
    {minutes : Int} (h : matchOffset rest = some offset)
    (range : offsetMinutes offset = some minutes) :
    SpellsOffset rest minutes := by
  unfold matchOffset at h
  split at h
  next z =>
    split at h
    next letter =>
      cases h
      cases range
      simp only [Bool.or_eq_true, beq_iff_eq] at letter
      exact .utc letter
    · cases h
  next sign h1 h2 colon m1 m2 =>
    split at h
    next shape =>
      cases h
      simp only [Bool.and_eq_true, Bool.or_eq_true, beq_iff_eq, List.all_cons, List.all_nil,
        Bool.and_true] at shape
      obtain ⟨⟨isSign, rfl⟩, hh1, hh2, hm1, hm2⟩ := shape
      rw [offsetMinutes] at range
      split at range
      · cases range
      next within =>
        cases range
        have hoursNonneg := parseInt_nonneg [h1, h2]
        have minutesNonneg := parseInt_nonneg [m1, m2]
        have numeric := @SpellsOffset.numeric sign [h1, h2] [m1, m2] _ _ isSign
          (spellsNumber_parseInt ⟨rfl, by simp [hh1, hh2]⟩)
          (spellsNumber_parseInt ⟨rfl, by simp [hm1, hm2]⟩) (by omega) (by omega)
        rw [Int.toNat_of_nonneg hoursNonneg, Int.toNat_of_nonneg minutesNonneg] at numeric
        have signed : (parseInt [h1, h2] * 60 + parseInt [m1, m2]) *
            (if sign = '-' then -1 else 1) =
              if sign = '-' then -(parseInt [h1, h2] * 60 + parseInt [m1, m2])
              else parseInt [h1, h2] * 60 + parseInt [m1, m2] := by
          split <;> omega
        rw [signed]
        exact numeric
    · cases h
  · cases h

theorem matchOffset_of_spells {rest : List Char} {minutes : Int} (h : SpellsOffset rest minutes) :
    EndsFraction rest ∧ ∃ offset, matchOffset rest = some offset ∧
      offsetMinutes offset = some minutes := by
  cases h with
  | @utc z letter =>
    refine ⟨?_, none, ?_, rfl⟩
    · rintro c ⟨⟩
      rcases letter with rfl | rfl <;> decide
    · rcases letter with rfl | rfl <;> rfl
  | @numeric sign h m hours minutes isSign spellsHours spellsMinutes hours_le minutes_le =>
    obtain ⟨h1, h2, rfl, hh1, hh2⟩ := SpellsNumber.cases_two spellsHours
    obtain ⟨m1, m2, rfl, hm1, hm2⟩ := SpellsNumber.cases_two spellsMinutes
    refine ⟨?_, some (sign, [h1, h2], [m1, m2]), ?_, ?_⟩
    · rintro c ⟨⟩
      rcases isSign with rfl | rfl <;> decide
    · have shape : ((sign == '+' || sign == '-') && ':' == ':' &&
          [h1, h2, m1, m2].all Char.isDigit) = true := by
        simp [isSign, hh1, hh2, hm1, hm2]
      simp only [List.cons_append, List.nil_append, matchOffset, shape, if_true]
    · rw [offsetMinutes, parseInt_of_spellsNumber spellsHours,
        parseInt_of_spellsNumber spellsMinutes, if_neg (by omega)]
      split <;> simp

/-! ## Texts -/

/-- The groups Java matches denote the stamp. -/
structure Denotes (m : Java.DateGroups) (stamp : Stamp) : Prop where
  year : parseInt m.year = stamp.year
  month : parseInt m.month = stamp.month
  day : parseInt m.day = stamp.day
  hour : parseInt m.hour = stamp.hour
  minute : parseInt m.minute = stamp.minute
  second : parseInt m.second = stamp.second
  fraction : fractionMillis m.fraction = ⌊stamp.fraction * 1000⌋
  offset : offsetMinutes m.offset = some stamp.offset

theorem spells_of_match {text : List Char} {m : Java.DateGroups} {minutes : Int}
    (h : matchReceiptDate text = some m) (range : offsetMinutes m.offset = some minutes) :
    ∃ stamp, Rfc3339.Spells text stamp ∧ Denotes m stamp := by
  obtain ⟨t, rest, rest', rfl, letter, fractionRead, offsetRead, year, month, day, hour, minute,
    second⟩ := matchReceiptDate_cases h
  obtain ⟨frac, value, spellsFraction, rfl, millis⟩ := spellsFraction_of_match fractionRead
  let stamp : Stamp :=
    { year := (parseInt m.year).toNat, month := (parseInt m.month).toNat
      day := (parseInt m.day).toNat, hour := (parseInt m.hour).toNat
      minute := (parseInt m.minute).toNat, second := (parseInt m.second).toNat
      fraction := value, offset := minutes }
  have number : ∀ text : List Char, parseInt text = ((parseInt text).toNat : Int) :=
    fun text => (Int.toNat_of_nonneg (parseInt_nonneg text)).symm
  refine ⟨stamp, ?_, number _, number _, number _, number _, number _, number _, millis, range⟩
  exact .dateTime (spellsNumber_parseInt year) (spellsNumber_parseInt month)
    (spellsNumber_parseInt day) letter (spellsNumber_parseInt hour) (spellsNumber_parseInt minute)
    (spellsNumber_parseInt second) spellsFraction (spellsOffset_of_match offsetRead range)

theorem match_of_spells {text : List Char} {stamp : Stamp} (h : Rfc3339.Spells text stamp) :
    ∃ m, matchReceiptDate text = some m ∧ Denotes m stamp := by
  cases h with
  | @dateTime y mo d h mi s frac off t _ year month day letter hour minute second fraction offset =>
    obtain ⟨ends, groups, offsetRead, minutes⟩ := matchOffset_of_spells offset
    obtain ⟨digits, fractionRead, millis⟩ := matchFraction_of_spells fraction ends
    have denotes := Denotes.mk (m := ⟨y, mo, d, h, mi, s, digits, groups⟩)
      (parseInt_of_spellsNumber year) (parseInt_of_spellsNumber month)
      (parseInt_of_spellsNumber day) (parseInt_of_spellsNumber hour)
      (parseInt_of_spellsNumber minute) (parseInt_of_spellsNumber second) millis minutes
    refine ⟨_, ?_, denotes⟩
    obtain ⟨y1, y2, y3, y4, rfl, hy1, hy2, hy3, hy4⟩ := SpellsNumber.cases_four year
    obtain ⟨mo1, mo2, rfl, hmo1, hmo2⟩ := SpellsNumber.cases_two month
    obtain ⟨d1, d2, rfl, hd1, hd2⟩ := SpellsNumber.cases_two day
    obtain ⟨h1, h2, rfl, hh1, hh2⟩ := SpellsNumber.cases_two hour
    obtain ⟨mi1, mi2, rfl, hmi1, hmi2⟩ := SpellsNumber.cases_two minute
    obtain ⟨s1, s2, rfl, hs1, hs2⟩ := SpellsNumber.cases_two second
    have shape : ('-' == '-' && '-' == '-' && ':' == ':' && ':' == ':' && (t == 'T' || t == 't') &&
        [y1, y2, y3, y4, mo1, mo2, d1, d2, h1, h2, mi1, mi2, s1, s2].all Char.isDigit) = true := by
      simp only [List.all_cons, hy1, hy2, hy3, hy4, hmo1, hmo2, hd1, hd2, hh1, hh2, hmi1, hmi2, hs1,
        hs2, List.all_nil, Bool.and_self, beq_self_eq_true, Bool.and_true, Bool.true_and,
        Bool.or_eq_true, beq_iff_eq]
      exact letter
    simp only [List.cons_append, List.nil_append, matchReceiptDate, shape, if_true, fractionRead,
      offsetRead, Option.bind_eq_bind, Option.bind_some]

/-- The instant of the groups is the stamp's, rounded down, and there is one when the stamp
exists. -/
theorem Denotes.dateMillis_iff {m : Java.DateGroups} {stamp : Stamp} (denotes : Denotes m stamp)
    {instant : Int} :
    dateMillis m = some instant ↔ stamp.Exists ∧ ⌊stamp.instant * 1000⌋ = instant := by
  rw [dateMillis, denotes.offset, Option.bind_some, denotes.year, denotes.month, denotes.day,
    denotes.hour,
    denotes.minute, denotes.second, denotes.fraction, stamp.floor_instant]
  have cut : min (stamp.second : Int) 59 = (min stamp.second 59 : Nat) := by omega
  rw [cut]
  constructor
  · intro read
    split at read
    · cases read
    next valid =>
      simp only [not_or, Bool.not_eq_true, Bool.not_eq_false', Gregorian.isTime, Bool.and_eq_true,
        decide_eq_true_eq] at valid
      obtain ⟨second_le, date, time⟩ := valid
      exact ⟨⟨date, by omega, by omega, by omega⟩, Option.some.inj read⟩
  · rintro ⟨⟨date, hour_le, minute_le, second_le⟩, rfl⟩
    rw [if_neg]
    simp only [not_or, Bool.not_eq_true, Bool.not_eq_false', Gregorian.isTime, Bool.and_eq_true,
      decide_eq_true_eq]
    exact ⟨by omega, date, by omega⟩

/-- What the regular expression and the calendar together accept. -/
theorem parseDate_iff {text : String} {instant : Int} :
    Java.parseDate text = some instant ↔
      ∃ stamp, Rfc3339.Spells text.toList stamp ∧ stamp.Exists ∧
        ⌊stamp.instant * 1000⌋ = instant := by
  rw [parseDate_eq, Option.bind_eq_some_iff]
  constructor
  · rintro ⟨m, matched, read⟩
    have ranged := read
    rw [dateMillis] at ranged
    obtain ⟨minutes, range, -⟩ := Option.bind_eq_some_iff.mp ranged
    obtain ⟨stamp, spells, denotes⟩ := spells_of_match matched range
    exact ⟨stamp, spells, denotes.dateMillis_iff.mp read⟩
  · rintro ⟨stamp, spells, valid⟩
    obtain ⟨m, matched, denotes⟩ := match_of_spells spells
    exact ⟨m, matched, denotes.dateMillis_iff.mpr valid⟩

theorem parseReceiptDate_iff (jiff : Jiff) {text : String} {instant : Int} :
    parseReceiptDate jiff text = some instant ↔
      ∃ stamp, Rfc3339.Spells text.toList stamp ∧ stamp.Exists ∧
        ⌊stamp.instant * 1000⌋ = instant ∧ firstMillis ≤ instant ∧ instant ≤ lastMillis := by
  rw [parseReceiptDate_eq_java, Option.filter_eq_some_iff, parseDate_iff, inRange,
    decide_eq_true_eq]
  constructor
  · rintro ⟨⟨stamp, spells, valid, floor⟩, range⟩
    exact ⟨stamp, spells, valid, floor, range⟩
  · rintro ⟨stamp, spells, valid, floor, range⟩
    exact ⟨⟨stamp, spells, valid, floor⟩, range⟩

/-! ## Machine integers -/

/-- Why a computation in machine integers gives nothing: it returned `None`, or an operation
overflowed. -/
inductive Stop where
  | refused
  | overflow
deriving DecidableEq, Repr

def Stop.ofOption {α : Type} : Option α → Except Stop α
  | some a => .ok a
  | none => .error .refused

/-- The signed widths `parse_receipt_date` computes in. -/
inductive Width where
  | i8
  | i16
  | i64

def Width.max : Width → Int
  | .i8 => 127
  | .i16 => 32767
  | .i64 => 9223372036854775807

def Width.fits (width : Width) (n : Int) : Bool := -width.max - 1 ≤ n && n ≤ width.max

namespace Fixed

/-- The result of an operation. -/
def result (width : Width) (n : Int) : Except Stop Int :=
  if width.fits n then .ok n else .error .overflow

/-- The closure `digits`, which folds an `i16`. -/
def digits (field : Bytes) : Except Stop Int :=
  field.foldlM (fun (value : Int) byte =>
    if isAsciiDigit byte then do
      let tens ← result .i16 (value * 10)
      result .i16 (tens + digit byte)
    else .error .refused) 0

/-- The closure `two`: an `i8`, if it is one. -/
def two (tens units : UInt8) : Except Stop Int := do
  let value ← digits [tens, units]
  if Width.fits .i8 value then .ok value else .error .refused

def readFraction (rest : Bytes) : Except Stop (Int × Bytes) :=
  match rest with
  | 0x2e :: fraction =>
    let taken := fraction.takeWhile isAsciiDigit
    if taken.isEmpty then .error .refused
    else do
      let millis ← ((taken ++ [0x30, 0x30]).take 3).foldlM (fun (value : Int) byte => do
        let tens ← result .i64 (value * 10)
        result .i64 (tens + digit byte)) 0
      .ok (millis, fraction.drop taken.length)
  | _ => .ok (0, rest)

def readOffset (rest : Bytes) : Except Stop Int :=
  match rest with
  | [z] => if z == 0x5a || z == 0x7a then .ok 0 else .error .refused
  | [sign, h1, h2, colon, m1, m2] =>
    if (sign == 0x2b || sign == 0x2d) && colon == 0x3a then do
      let hours ← digits [h1, h2]
      let minutes ← digits [m1, m2]
      if hours > 23 ∨ minutes > 59 then .error .refused
      else do
        let ofHours ← result .i16 (hours * 60)
        let minutes ← result .i16 (ofHours + minutes)
        if sign == 0x2d then result .i64 (-minutes) else .ok minutes
    else .error .refused
  | _ => .error .refused

/-- `parse_receipt_date` with every operation in its own width. -/
def parseReceiptDate (jiff : Jiff) (text : String) : Except Stop Int :=
  match (utf8 text).take 19, (utf8 text).drop 19 with
  | [y1, y2, y3, y4, dash, mo1, mo2, dash', d1, d2, t, h1, h2, colon, mi1, mi2, colon', s1, s2],
      rest =>
    if dash == 0x2d && dash' == 0x2d && colon == 0x3a && colon' == 0x3a &&
        (t == 0x54 || t == 0x74) then do
      let (millis, rest) ← readFraction rest
      let offsetMinutes ← readOffset rest
      let second ← two s1 s2
      if second > 60 then .error .refused
      else
        let year ← digits [y1, y2, y3, y4]
        let month ← two mo1 mo2
        let day ← two d1 d2
        if !jiff.isDate year month day then .error .refused
        else
          let hour ← two h1 h2
          let minute ← two mi1 mi2
          if !jiff.isTime hour minute (min second 59) then .error .refused
          else
            let civil : Civil := ⟨year, month, day, hour, minute, min second 59⟩
            let offset ← result .i64 (offsetMinutes * 60)
            let seconds ← result .i64 (jiff.sinceEpoch civil - offset)
            let scaled ← result .i64 (seconds * 1000)
            let instant ← result .i64 (scaled + millis)
            if firstMillis ≤ instant ∧ instant ≤ lastMillis then .ok instant else .error .refused
    else .error .refused
  | _, _ => .error .refused

end Fixed

theorem Stop.ofOption_bind {α β : Type} {x : Option α} {f : α → Except Stop β} {g : α → Option β}
    (h : ∀ a, x = some a → f a = Stop.ofOption (g a)) :
    (Stop.ofOption x >>= f) = Stop.ofOption (x >>= g) := by
  cases x with
  | none => rfl
  | some a => exact h a rfl

theorem Fixed.result_eq {width : Width} {n : Int} (low : -width.max - 1 ≤ n)
    (high : n ≤ width.max) :
    Fixed.result width n = .ok n := by
  rw [Fixed.result, if_pos]
  simp [Width.fits, low, high]

/-- Shifting a number by one digit. -/
theorem Fixed.push_eq {width : Width} {value units : Int} (low : 0 ≤ value) (nonneg : 0 ≤ units)
    (high : value * 10 + units ≤ width.max) :
    (do
      let tens ← Fixed.result width (value * 10)
      Fixed.result width (tens + units)) = .ok (value * 10 + units) := by
  rw [Fixed.result_eq (by omega) (by omega)]
  exact Fixed.result_eq (by omega) high

theorem digit_bounds {byte : UInt8} (h : isAsciiDigit byte = true) :
    0 ≤ digit byte ∧ digit byte ≤ 9 := by
  have range := isAsciiDigit_iff.mp h
  unfold digit
  omega

/-- A digit more takes the room of one digit. -/
theorem room_cons {value units limit : Int} {byte : UInt8} {left : Bytes} (nonneg : 0 ≤ value)
    (digit : 0 ≤ units ∧ units ≤ 9) (room : (value + 1) * 10 ^ (byte :: left).length ≤ limit) :
    value * 10 + units + 1 ≤ limit ∧ (value * 10 + units + 1) * 10 ^ left.length ≤ limit := by
  have positive : (1 : Int) ≤ 10 ^ left.length := one_le_pow₀ (by decide)
  have next : (value * 10 + units + 1) * 10 ^ left.length ≤ limit := by
    calc (value * 10 + units + 1) * 10 ^ left.length
        ≤ ((value + 1) * 10) * 10 ^ left.length :=
          mul_le_mul_of_nonneg_right (by omega) (by omega)
      _ = (value + 1) * 10 ^ (byte :: left).length := by
          rw [List.length_cons, pow_succ]
          ring
      _ ≤ limit := room
  exact ⟨(le_mul_of_one_le_right (by omega) positive).trans next, next⟩

/-- The digits of a field fit while there is room for those that are left. -/
theorem Fixed.foldlM_digits {field : Bytes} {value : Int} (nonneg : 0 ≤ value)
    (room : (value + 1) * 10 ^ field.length ≤ 10000) :
    field.foldlM (fun (value : Int) byte =>
      if isAsciiDigit byte then do
        let tens ← Fixed.result .i16 (value * 10)
        Fixed.result .i16 (tens + digit byte)
      else .error .refused) value =
    Stop.ofOption (field.foldlM (fun (value : Int) byte =>
      if isAsciiDigit byte then some (value * 10 + digit byte) else none) value) := by
  induction field generalizing value with
  | nil => rfl
  | cons byte field ih =>
    rw [List.foldlM_cons, List.foldlM_cons]
    cases isDigit : isAsciiDigit byte with
    | false => rfl
    | true =>
      have bounds := digit_bounds isDigit
      obtain ⟨small, next⟩ := room_cons nonneg bounds room
      rw [if_pos rfl, if_pos rfl, Fixed.push_eq nonneg bounds.1 (by
        simp only [Width.max]
        omega)]
      exact ih (by omega) next

theorem Fixed.digits_eq {field : Bytes} (short : field.length ≤ 4) :
    Fixed.digits field = Stop.ofOption (ReceiptVerifier.digits field) := by
  refine Fixed.foldlM_digits le_rfl ?_
  rw [zero_add, one_mul]
  exact pow_le_pow_right₀ (by decide) short

/-- What digits can spell. -/
theorem foldl_digit_bounds {taken : Bytes} {value : Int}
    (all : ∀ b ∈ taken, isAsciiDigit b = true) (nonneg : 0 ≤ value) :
    0 ≤ taken.foldl (fun value byte => value * 10 + digit byte) value ∧
      taken.foldl (fun value byte => value * 10 + digit byte) value <
        (value + 1) * 10 ^ taken.length := by
  induction taken generalizing value with
  | nil =>
    rw [List.length_nil, pow_zero, mul_one]
    exact ⟨nonneg, Int.lt_succ value⟩
  | cons byte taken ih =>
    obtain ⟨own, rest⟩ := List.forall_mem_cons.mp all
    have bounds := digit_bounds own
    have next : 0 ≤ value * 10 + digit byte := by omega
    obtain ⟨low, high⟩ := ih rest next
    exact ⟨low, high.trans_le (room_cons nonneg bounds le_rfl).2⟩

theorem digits_bounds {field : Bytes} {value : Int} (h : digits field = some value) :
    0 ≤ value ∧ value < 10 ^ field.length := by
  have fold : ∀ start : Int, field.foldlM (fun (value : Int) byte =>
      if isAsciiDigit byte then some (value * 10 + digit byte) else none) start = some value →
      (∀ b ∈ field, isAsciiDigit b = true) ∧
        field.foldl (fun value byte => value * 10 + digit byte) start = value := by
    clear h
    induction field with
    | nil =>
      rintro start ⟨⟩
      exact ⟨by simp, rfl⟩
    | cons byte field ih =>
      intro start read
      rw [List.foldlM_cons] at read
      split at read
      next own =>
        obtain ⟨all, total⟩ := ih _ read
        exact ⟨List.forall_mem_cons.mpr ⟨own, all⟩, total⟩
      · cases read
  obtain ⟨all, rfl⟩ := fold 0 h
  have bounds := foldl_digit_bounds all (le_refl 0)
  rwa [zero_add, one_mul] at bounds

/-- The digits of a fraction and the zeros after them. -/
theorem allDigits_padded (rest : Bytes) :
    ∀ b ∈ (rest.takeWhile isAsciiDigit ++ [0x30, 0x30]).take 3, isAsciiDigit b = true := by
  intro b mem
  rcases List.mem_append.mp (List.mem_of_mem_take mem) with own | zero
  · exact (List.all_eq_true.mp List.all_takeWhile) b own
  · rcases List.mem_pair.mp zero with rfl | rfl <;> decide

theorem Fixed.two_eq (tens units : UInt8) :
    Fixed.two tens units = Stop.ofOption (ReceiptVerifier.digits [tens, units]) := by
  rw [Fixed.two, Fixed.digits_eq (by simp)]
  cases read : ReceiptVerifier.digits [tens, units] with
  | none => rfl
  | some value =>
    have bounds := digits_bounds read
    change ite _ _ _ = _
    have fits : Width.fits .i8 value = true := by
      simp only [List.length_cons, List.length_nil, Nat.zero_add, Nat.reduceAdd, Int.reducePow]
        at bounds
      rw [Width.fits, Bool.and_eq_true]
      exact ⟨decide_eq_true (by simp only [Width.max]; omega),
        decide_eq_true (by simp only [Width.max]; omega)⟩
    rw [if_pos fits]
    rfl

/-- At most three digits fit an `i64`. -/
theorem Fixed.foldlM_fraction {taken : Bytes} {value : Int}
    (all : ∀ b ∈ taken, isAsciiDigit b = true) (nonneg : 0 ≤ value)
    (room : (value + 1) * 10 ^ taken.length ≤ 1000) :
    taken.foldlM (fun (value : Int) byte => do
      let tens ← Fixed.result .i64 (value * 10)
      Fixed.result .i64 (tens + digit byte)) value =
    .ok (taken.foldl (fun value byte => value * 10 + digit byte) value) := by
  induction taken generalizing value with
  | nil => rfl
  | cons byte taken ih =>
    obtain ⟨own, rest⟩ := List.forall_mem_cons.mp all
    have bounds := digit_bounds own
    obtain ⟨small, next⟩ := room_cons nonneg bounds room
    rw [List.foldlM_cons, List.foldl_cons, Fixed.push_eq nonneg bounds.1 (by
      simp only [Width.max]
      omega)]
    exact ih rest (by omega) next

theorem Fixed.readFraction_cons (b : UInt8) (rest : Bytes) :
    Fixed.readFraction (b :: rest) = if b = 0x2e then
      if (rest.takeWhile isAsciiDigit).isEmpty then .error .refused
      else do
        let millis ← ((rest.takeWhile isAsciiDigit ++ [0x30, 0x30]).take 3).foldlM
          (fun (value : Int) byte => do
            let tens ← Fixed.result .i64 (value * 10)
            Fixed.result .i64 (tens + digit byte)) 0
        .ok (millis, rest.drop (rest.takeWhile isAsciiDigit).length)
      else .ok (0, b :: rest) := by
  by_cases dot : b = 0x2e
  · subst dot
    rfl
  · rw [if_neg dot, Fixed.readFraction]
    intro fraction same
    exact absurd (List.cons.inj same).1 dot

theorem Fixed.readFraction_eq (rest : Bytes) :
    Fixed.readFraction rest = Stop.ofOption (ReceiptVerifier.readFraction rest) := by
  cases rest with
  | nil => rfl
  | cons b rest =>
    rw [Fixed.readFraction_cons, ReceiptVerifier.readFraction_cons]
    split
    · split
      · rfl
      · have short : ((rest.takeWhile isAsciiDigit ++ [0x30, 0x30]).take 3).length ≤ 3 :=
          List.length_take_le _ _
        rw [Fixed.foldlM_fraction (allDigits_padded rest) le_rfl (by
          rw [zero_add, one_mul]
          exact pow_le_pow_right₀ (by decide) short)]
        rfl
    · rfl

theorem Fixed.readOffset_eq (rest : Bytes) :
    Fixed.readOffset rest = Stop.ofOption (ReceiptVerifier.readOffset rest) := by
  match rest with
  | [] | [_, _] | [_, _, _] | [_, _, _, _] | [_, _, _, _, _] |
    _ :: _ :: _ :: _ :: _ :: _ :: _ :: _ => rfl
  | [z] =>
    simp only [Fixed.readOffset, ReceiptVerifier.readOffset]
    split <;> rfl
  | [sign, h1, h2, colon, m1, m2] =>
    simp only [Fixed.readOffset, ReceiptVerifier.readOffset]
    split
    · rw [Fixed.digits_eq (by simp), Fixed.digits_eq (by simp)]
      cases readHours : ReceiptVerifier.digits [h1, h2] with
      | none => rfl
      | some hours =>
        cases readMinutes : ReceiptVerifier.digits [m1, m2] with
        | none => rfl
        | some minutes =>
          have hoursLow := (digits_bounds readHours).1
          have minutesLow := (digits_bounds readMinutes).1
          change ite _ _ _ = Stop.ofOption (ite _ _ _)
          split
          · rfl
          next within =>
            have ofHours : Fixed.result .i16 (hours * 60) = .ok (hours * 60) :=
              Fixed.result_eq (by simp only [Width.max]; omega) (by simp only [Width.max]; omega)
            have total : Fixed.result .i16 (hours * 60 + minutes) = .ok (hours * 60 + minutes) :=
              Fixed.result_eq (by simp only [Width.max]; omega) (by simp only [Width.max]; omega)
            have negated : Fixed.result .i64 (-(hours * 60 + minutes)) =
                .ok (-(hours * 60 + minutes)) :=
              Fixed.result_eq (by simp only [Width.max]; omega) (by simp only [Width.max]; omega)
            rw [ofHours, ok_bind, total, ok_bind, negated]
            split <;> rfl
    · rfl

/-- The seconds of a civil time `jiff` made are far inside an `i64`. -/
theorem sinceEpoch_bounds (jiff : Jiff) {civil : Civil} (low : 0 ≤ civil.year)
    (high : civil.year ≤ 9999) (date : jiff.isDate civil.year civil.month civil.day = true)
    (time : jiff.isTime civil.hour civil.minute civil.second = true) :
    -(10 ^ 12) ≤ jiff.sinceEpoch civil ∧ jiff.sinceEpoch civil ≤ 10 ^ 12 := by
  rw [jiff.sinceEpoch_eq date time]
  rw [jiff.isDate_eq (by omega) high] at date
  rw [jiff.isTime_eq] at time
  exact Gregorian.epochSecond_bounds low high date time

/-- What the last operations of `parse_receipt_date` compute, they compute without overflow. -/
theorem Fixed.instant_eq {sinceEpoch minutes millis : Int}
    (since : -(10 ^ 12) ≤ sinceEpoch ∧ sinceEpoch ≤ 10 ^ 12)
    (offset : -1439 ≤ minutes ∧ minutes ≤ 1439) (fraction : 0 ≤ millis ∧ millis ≤ 999) :
    (do
      let offset ← Fixed.result .i64 (minutes * 60)
      let seconds ← Fixed.result .i64 (sinceEpoch - offset)
      let scaled ← Fixed.result .i64 (seconds * 1000)
      let instant ← Fixed.result .i64 (scaled + millis)
      if firstMillis ≤ instant ∧ instant ≤ lastMillis then .ok instant else .error .refused) =
    Stop.ofOption (if firstMillis ≤ (sinceEpoch - minutes * 60) * 1000 + millis ∧
        (sinceEpoch - minutes * 60) * 1000 + millis ≤ lastMillis then
      some ((sinceEpoch - minutes * 60) * 1000 + millis) else none) := by
  rw [Fixed.result_eq (by simp only [Width.max]; omega) (by simp only [Width.max]; omega), ok_bind,
    Fixed.result_eq (by simp only [Width.max]; omega) (by simp only [Width.max]; omega), ok_bind,
    Fixed.result_eq (by simp only [Width.max]; omega) (by simp only [Width.max]; omega), ok_bind,
    Fixed.result_eq (by simp only [Width.max]; omega) (by simp only [Width.max]; omega), ok_bind]
  split <;> rfl

theorem readFraction_bounds {rest rest' : Bytes} {millis : Int}
    (h : readFraction rest = some (millis, rest')) : 0 ≤ millis ∧ millis ≤ 999 := by
  cases rest with
  | nil =>
    cases h
    decide
  | cons b rest =>
    rw [readFraction_cons] at h
    split at h
    · split at h
      · cases h
      · cases h
        have bounds := foldl_digit_bounds (allDigits_padded rest) (le_refl 0)
        have short : ((10 : Int) ^ ((rest.takeWhile isAsciiDigit ++ [0x30, 0x30]).take 3).length) ≤
            10 ^ 3 := pow_le_pow_right₀ (by decide) (List.length_take_le _ _)
        omega
    · cases h
      decide

theorem readOffset_bounds {rest : Bytes} {minutes : Int} (h : readOffset rest = some minutes) :
    -1439 ≤ minutes ∧ minutes ≤ 1439 := by
  unfold readOffset at h
  split at h
  · split at h
    · cases h
      decide
    · cases h
  · split at h
    · split at h
      next hours minutes readHours readMinutes =>
        have hoursLow := (digits_bounds readHours).1
        have minutesLow := (digits_bounds readMinutes).1
        split at h
        · cases h
        next within =>
          cases h
          split <;> omega
      · cases h
    · cases h
  · cases h

theorem Fixed.parseReceiptDate_eq (jiff : Jiff) (text : String) :
    Fixed.parseReceiptDate jiff text =
      Stop.ofOption (ReceiptVerifier.parseReceiptDate jiff text) := by
  unfold Fixed.parseReceiptDate ReceiptVerifier.parseReceiptDate
  generalize (utf8 text).take 19 = head
  generalize (utf8 text).drop 19 = rest
  split
  next y1 y2 y3 y4 dash mo1 mo2 dash' d1 d2 t h1 h2 colon mi1 mi2 colon' s1 s2 =>
    dsimp only
    split
    · rw [Fixed.readFraction_eq]
      refine Stop.ofOption_bind fun fraction fractionRead => ?_
      rw [Fixed.readOffset_eq]
      refine Stop.ofOption_bind fun minutes offsetRead => ?_
      rw [Fixed.two_eq]
      refine Stop.ofOption_bind fun second secondRead => ?_
      split
      · rfl
      rw [Fixed.digits_eq (by simp)]
      refine Stop.ofOption_bind fun year yearRead => ?_
      rw [Fixed.two_eq]
      refine Stop.ofOption_bind fun month monthRead => ?_
      rw [Fixed.two_eq]
      refine Stop.ofOption_bind fun day dayRead => ?_
      split
      · rfl
      next date =>
        rw [Fixed.two_eq]
        refine Stop.ofOption_bind fun hour hourRead => ?_
        rw [Fixed.two_eq]
        refine Stop.ofOption_bind fun minute minuteRead => ?_
        split
        · rfl
        next time =>
          obtain ⟨low, high⟩ : 0 ≤ year ∧ year < 10 ^ 4 := digits_bounds yearRead
          have since := @sinceEpoch_bounds jiff ⟨year, month, day, hour, minute,
            min second 59⟩ low (Int.le_of_lt_add_one high) (by simpa using date)
              (by simpa using time)
          exact Fixed.instant_eq since (readOffset_bounds offsetRead)
            (readFraction_bounds fractionRead)
    · rfl
  next => simp only [Stop.ofOption]

/-- **A receipt date is an RFC 3339 date-time of the first ten thousand years.** `parseReceiptDate`
gives an instant for exactly the texts of a stamp that exists and lies in range, the stamp's instant
down to the millisecond; and no operation in its `i8`, `i16` and `i64` intermediates overflows. -/
theorem parseReceiptDate_exact (jiff : Jiff) (text : String) :
    (∀ instant, parseReceiptDate jiff text = some instant ↔
      ∃ stamp, Rfc3339.Spells text.toList stamp ∧ stamp.Exists ∧
        ⌊stamp.instant * 1000⌋ = instant ∧ firstMillis ≤ instant ∧ instant ≤ lastMillis) ∧
    Fixed.parseReceiptDate jiff text = Stop.ofOption (parseReceiptDate jiff text) :=
  ⟨fun _ => parseReceiptDate_iff jiff, Fixed.parseReceiptDate_eq jiff text⟩

/-- An offset carries a date over the end of a year, and a leap second keeps its fraction. -/
example : parseReceiptDate Jiff.gregorian "1998-12-31t23:59:60.98765-08:00" =
    some 915177599987 := by
  decide +kernel

end ReceiptVerifier
