import ReceiptVerifier.Lib.Gregorian
import Mathlib.Data.Rat.Floor

/-!
# RFC 3339 date-times

The texts of the `date-time` production (section 5.6) and what they say. A fraction has any number
of digits and is an exact rational here, so that rounding is the reader's.
-/

namespace Rfc3339

/-- `width` decimal digits that spell a number. -/
def SpellsNumber (width : Nat) (text : List Char) (value : Nat) : Prop :=
  text.length = width ∧ text.all Char.isDigit = true ∧ Nat.ofDigitChars 10 text 0 = value

/-- The value of the digits after a point. -/
def fractionValue (digits : List Char) : ℚ :=
  (Nat.ofDigitChars 10 digits 0 : ℚ) / (10 ^ digits.length : Nat)

/-- `time-secfrac`, which is optional. -/
inductive SpellsFraction : List Char → ℚ → Prop where
  | absent : SpellsFraction [] 0
  | digits {digits : List Char} (some : digits ≠ []) (all : digits.all Char.isDigit = true) :
    SpellsFraction ('.' :: digits) (fractionValue digits)

/-- `time-offset`, in minutes east of UTC. -/
inductive SpellsOffset : List Char → Int → Prop where
  | utc {z : Char} (letter : z = 'Z' ∨ z = 'z') : SpellsOffset [z] 0
  | numeric {sign : Char} {h m : List Char} {hours minutes : Nat} (isSign : sign = '+' ∨ sign = '-')
    (spellsHours : SpellsNumber 2 h hours) (spellsMinutes : SpellsNumber 2 m minutes)
    (hours_le : hours ≤ 23) (minutes_le : minutes ≤ 59) :
    SpellsOffset (sign :: (h ++ ':' :: m))
      (if sign = '-' then -(hours * 60 + minutes) else hours * 60 + minutes)

/-- What a `date-time` says. -/
structure Stamp where
  year : Nat
  month : Nat
  day : Nat
  hour : Nat
  minute : Nat
  second : Nat
  fraction : ℚ
  /-- Minutes east of UTC. -/
  offset : Int

/-- The day exists, and so does the time of day, which may be a leap second. -/
structure Stamp.Exists (stamp : Stamp) : Prop where
  date : Gregorian.isDate stamp.year stamp.month stamp.day = true
  hour_le : stamp.hour ≤ 23
  minute_le : stamp.minute ≤ 59
  second_le : stamp.second ≤ 60

/-- Seconds from 1970-01-01T00:00:00Z, a leap second counted as the one before it. -/
def Stamp.instant (stamp : Stamp) : ℚ :=
  (Gregorian.epochSecond stamp.year stamp.month stamp.day stamp.hour stamp.minute
    (min stamp.second 59 : Nat) - stamp.offset * 60 : Int) + stamp.fraction

/-- The texts that say a stamp. -/
inductive Spells : List Char → Stamp → Prop where
  | dateTime {y mo d h mi s frac off : List Char} {t : Char} {stamp : Stamp}
    (year : SpellsNumber 4 y stamp.year) (month : SpellsNumber 2 mo stamp.month)
    (day : SpellsNumber 2 d stamp.day) (letter : t = 'T' ∨ t = 't')
    (hour : SpellsNumber 2 h stamp.hour) (minute : SpellsNumber 2 mi stamp.minute)
    (second : SpellsNumber 2 s stamp.second) (fraction : SpellsFraction frac stamp.fraction)
    (offset : SpellsOffset off stamp.offset) :
    Spells (y ++ '-' :: (mo ++ '-' :: (d ++ t :: (h ++ ':' :: (mi ++ ':' :: (s ++
      (frac ++ off))))))) stamp

/-! ## Digits -/

theorem toNat_sub_le_of_isDigit {c : Char} (h : c.isDigit = true) : c.toNat - '0'.toNat ≤ 9 := by
  rw [Char.isDigit] at h
  simp only [ge_iff_le, UInt32.le_iff_toNat_le, Bool.and_eq_true, decide_eq_true_eq] at h
  change c.val.toNat - 48 ≤ 9
  exact Nat.sub_le_sub_right h.2 48

theorem ofDigitChars_lt {digits : List Char} (all : digits.all Char.isDigit = true) :
    Nat.ofDigitChars 10 digits 0 < 10 ^ digits.length := by
  induction digits with
  | nil => exact Nat.one_pos
  | cons c digits ih =>
    rw [List.all_cons, Bool.and_eq_true] at all
    have first := toNat_sub_le_of_isDigit all.1
    have rest := ih all.2
    rw [Nat.ofDigitChars_cons, Nat.ofDigitChars_eq_ofDigitChars_zero, List.length_cons,
      Nat.pow_succ,
      Nat.mul_zero, Nat.zero_add]
    have scaled := Nat.mul_le_mul_left (10 ^ digits.length) first
    omega

/-- Of a fraction in units of a power of ten, the first digits are the whole part. -/
theorem floor_fractionValue {kept dropped : List Char}
    (all : (kept ++ dropped).all Char.isDigit = true) :
    ⌊fractionValue (kept ++ dropped) * (10 ^ kept.length : Nat)⌋ =
      (Nat.ofDigitChars 10 kept 0 : Int) := by
  rw [List.all_append, Bool.and_eq_true] at all
  have small := ofDigitChars_lt all.2
  rw [fractionValue, Nat.ofDigitChars_append, Nat.ofDigitChars_eq_ofDigitChars_zero,
    List.length_append, Nat.pow_add]
  have positive : 0 < 10 ^ kept.length := Nat.pow_pos (by decide)
  have positive' : 0 < 10 ^ dropped.length := Nat.pow_pos (by decide)
  generalize 10 ^ kept.length = scale at positive ⊢
  generalize 10 ^ dropped.length = rest at small positive' ⊢
  generalize Nat.ofDigitChars 10 kept 0 = first
  generalize Nat.ofDigitChars 10 dropped 0 = left at small ⊢
  have same : ((rest * first + left : Nat) : ℚ) / (scale * rest : Nat) * (scale : Nat) =
      ((rest * first + left : Nat) : ℚ) / (rest : Nat) := by
    have : (scale : ℚ) ≠ 0 := by exact_mod_cast positive.ne'
    push_cast
    field_simp
  rw [same, Rat.floor_natCast_div_natCast]
  norm_cast
  rw [Nat.add_comm, Nat.add_mul_div_left _ _ positive', Nat.div_eq_of_lt small, Nat.zero_add]

/-- Zeros after the digits change nothing. -/
theorem fractionValue_append_zeros (digits : List Char) (count : Nat) :
    fractionValue (digits ++ List.replicate count '0') = fractionValue digits := by
  have positive : (10 : ℚ) ^ count ≠ 0 := by positivity
  rw [fractionValue, fractionValue, Nat.ofDigitChars_append, Nat.ofDigitChars_replicate_zero,
    List.length_append, List.length_replicate, Nat.pow_add]
  push_cast
  field_simp

/-- An instant down to the millisecond: whole seconds, and the fraction down to the millisecond. -/
theorem Stamp.floor_instant (stamp : Stamp) :
    ⌊stamp.instant * 1000⌋ = (Gregorian.epochSecond stamp.year stamp.month stamp.day stamp.hour
      stamp.minute (min stamp.second 59 : Nat) - stamp.offset * 60) * 1000 +
        ⌊stamp.fraction * 1000⌋ := by
  rw [Stamp.instant, add_mul]
  exact_mod_cast Int.floor_intCast_add _ (stamp.fraction * 1000)

end Rfc3339
