import ReceiptVerifier.Verify.DateLanguage
import ReceiptVerifier.Verify.Endpoint
import ReceiptVerifier.Verify.Renderings

/-!
# Rendered dates

A rendering shows the civil time of an instant's whole second, in GMT or at the offset of the zone,
from `jiff`'s first timestamp to the last receipt date; the 26 hours of that range after `jiff`'s
last timestamp are carried in the offset. The GMT rendering with the milliseconds put back is a
receipt date of the same instant.
-/

namespace ReceiptVerifier

open Openssl (OpenSsl)
open Rfc3339 (SpellsNumber)

/-! ## Padded numbers -/

/-- A number of at most `width` digits is padded to as many. -/
theorem spellsNumber_pad {width : Nat} {value : Int} (positive : 0 < width) (low : 0 ≤ value)
    (high : value < 10 ^ width) : SpellsNumber width (pad width value).toList value.toNat := by
  have sign : ¬ value < 0 := by omega
  have short : (Nat.toDigits 10 value.toNat).length ≤ width := by
    rw [Nat.length_toDigits_le_iff (by decide) positive]
    zify
    rwa [Int.toNat_of_nonneg low]
  have same : value.natAbs = value.toNat := by omega
  have text : (pad width value).toList =
      List.replicate (width - (Nat.toDigits 10 value.toNat).length) '0' ++
        Nat.toDigits 10 value.toNat := by
    simp [pad, sign, same, Nat.repr_eq_ofList_toDigits]
  rw [text]
  refine ⟨?_, ?_, ?_⟩
  · rw [List.length_append, List.length_replicate, Nat.sub_add_cancel short]
  · rw [List.all_append, Bool.and_eq_true]
    refine ⟨by simp, List.all_eq_true.mpr fun c mem => ?_⟩
    exact Nat.isDigit_of_mem_toDigits (by decide) (by decide) mem
  · rw [Nat.ofDigitChars_append, Nat.ofDigitChars_replicate_zero, Nat.mul_zero,
      Nat.ofDigitChars_ten_toDigits]

/-! ## Renderings, read back -/

/-- A GMT rendering as a receipt date: `T` for the space, the milliseconds as a fraction, `Z` for
the label. -/
def toReceiptDate (rendering : String) (millis : Int) : String :=
  String.ofList (rendering.toList.take 10 ++ 'T' :: ((rendering.toList.drop 11).take 8 ++
    '.' :: ((pad 3 (millis % 1000)).toList ++ ['Z'])))

/-- The stamp a civil time and milliseconds spell. -/
def stampOf (civil : Civil) (millis : Int) : Rfc3339.Stamp :=
  { year := civil.year.toNat, month := civil.month.toNat, day := civil.day.toNat
    hour := civil.hour.toNat, minute := civil.minute.toNat, second := civil.second.toNat
    fraction := Rfc3339.fractionValue (pad 3 (millis % 1000)).toList, offset := 0 }

section

variable {civil : Civil} {millis : Int}

theorem spells_toReceiptDate (isAt : civil.IsAt (millis / 1000)) (low : 0 ≤ civil.year)
    (high : civil.year ≤ 9999) (label : String) :
    Rfc3339.Spells (toReceiptDate (civil.shown label) millis).toList (stampOf civil millis) := by
  obtain ⟨date, time, -⟩ := isAt
  simp only [Gregorian.isDate, Gregorian.isTime, Bool.and_eq_true, decide_eq_true_eq] at date time
  have days := (Gregorian.daysInMonth_bounds civil.year civil.month).2
  have year : SpellsNumber 4 (pad 4 civil.year).toList civil.year.toNat :=
    spellsNumber_pad (by decide) low (by omega)
  have month : SpellsNumber 2 (pad 2 civil.month).toList civil.month.toNat :=
    spellsNumber_pad (by decide) (by omega) (by omega)
  have day : SpellsNumber 2 (pad 2 civil.day).toList civil.day.toNat :=
    spellsNumber_pad (by decide) (by omega) (by omega)
  have hour : SpellsNumber 2 (pad 2 civil.hour).toList civil.hour.toNat :=
    spellsNumber_pad (by decide) (by omega) (by omega)
  have minute : SpellsNumber 2 (pad 2 civil.minute).toList civil.minute.toNat :=
    spellsNumber_pad (by decide) (by omega) (by omega)
  have second : SpellsNumber 2 (pad 2 civil.second).toList civil.second.toNat :=
    spellsNumber_pad (by decide) (by omega) (by omega)
  have three : SpellsNumber 3 (pad 3 (millis % 1000)).toList (millis % 1000).toNat :=
    spellsNumber_pad (by decide) (by omega) (by omega)
  have fraction : Rfc3339.SpellsFraction ('.' :: (pad 3 (millis % 1000)).toList)
      (stampOf civil millis).fraction := by
    refine .digits (fun none => ?_) three.2.1
    have length := three.1
    rw [none] at length
    cases length
  have spells : Rfc3339.Spells _ (stampOf civil millis) := .dateTime year month day (.inl rfl)
    hour minute second fraction (.utc (.inl rfl))
  convert spells using 1
  rw [toReceiptDate, String.toList_ofList]
  simp only [Civil.shown, String.toList_append]
  obtain ⟨y1, y2, y3, y4, isYear, -⟩ := SpellsNumber.cases_four year
  obtain ⟨mo1, mo2, isMonth, -⟩ := SpellsNumber.cases_two month
  obtain ⟨d1, d2, isDay, -⟩ := SpellsNumber.cases_two day
  obtain ⟨h1, h2, isHour, -⟩ := SpellsNumber.cases_two hour
  obtain ⟨mi1, mi2, isMinute, -⟩ := SpellsNumber.cases_two minute
  obtain ⟨s1, s2, isSecond, -⟩ := SpellsNumber.cases_two second
  rw [isYear, isMonth, isDay, isHour, isMinute, isSecond]
  rfl

theorem floor_stampOf (isAt : civil.IsAt (millis / 1000)) (low : 0 ≤ civil.year) :
    ⌊(stampOf civil millis).instant * 1000⌋ = millis := by
  obtain ⟨date, time, second_eq⟩ := isAt
  simp only [Gregorian.isDate, Gregorian.isTime, Bool.and_eq_true, decide_eq_true_eq] at date time
  have three : SpellsNumber 3 (pad 3 (millis % 1000)).toList (millis % 1000).toNat :=
    spellsNumber_pad (by decide) (by omega) (by omega)
  have floor := @Rfc3339.floor_fractionValue (pad 3 (millis % 1000)).toList []
    (by rw [List.append_nil]; exact three.2.1)
  rw [List.append_nil, three.1, three.2.2, Int.toNat_of_nonneg (by omega)] at floor
  have fraction : ⌊(stampOf civil millis).fraction * 1000⌋ = millis % 1000 := by
    exact_mod_cast floor
  have cut : ((min civil.second.toNat 59 : Nat) : Int) = civil.second := by omega
  rw [Rfc3339.Stamp.floor_instant, fraction]
  simp only [stampOf, cut]
  rw [Int.toNat_of_nonneg low, Int.toNat_of_nonneg (by omega), Int.toNat_of_nonneg (by omega),
    Int.toNat_of_nonneg (by omega), Int.toNat_of_nonneg (by omega), second_eq]
  omega

theorem stampOf_exists (isAt : civil.IsAt (millis / 1000)) (low : 0 ≤ civil.year) :
    (stampOf civil millis).Exists := by
  obtain ⟨date, time, -⟩ := isAt
  have day := date
  simp only [Gregorian.isDate, Gregorian.isTime, Bool.and_eq_true, decide_eq_true_eq] at day time
  refine ⟨?_, ?_, ?_, ?_⟩
  · simp only [stampOf]
    rwa [Int.toNat_of_nonneg low, Int.toNat_of_nonneg (by omega), Int.toNat_of_nonneg (by omega)]
  all_goals
    simp only [stampOf]
    omega

end

variable {jiff : Jiff} {offset : Int → Int}

/-- A receipt date reads back from its GMT rendering and its milliseconds. -/
theorem parseReceiptDate_rendering (zone : PacificZone jiff offset) {text : String} {millis : Int}
    (h : parseReceiptDate jiff text = some millis) :
    ∃ rendering, formatEtcGmt jiff millis = some rendering ∧
      parseReceiptDate jiff (toReceiptDate rendering millis) = some millis := by
  obtain ⟨-, -, -, -, low, high⟩ := (parseReceiptDate_iff jiff).mp h
  refine ⟨_, formatEtcGmt_shown zone (renders_of_range low high), ?_⟩
  have isAt := civilOf_isAt (millis / 1000)
  have from0 : firstMillis / 1000 ≤ millis / 1000 := Int.ediv_le_ediv (by decide) low
  have to9999 : millis / 1000 < (Gregorian.daysBeforeYear (9999 + 1) - 719162) * 86400 :=
    Int.lt_of_le_of_lt (Int.ediv_le_ediv (by decide) high) (by decide)
  obtain ⟨firstYear, lastYear⟩ : 0 ≤ (civilOf (Gregorian.ofEpochSecond (millis / 1000))).year ∧
      (civilOf (Gregorian.ofEpochSecond (millis / 1000))).year ≤ 9999 :=
    Gregorian.year_ofEpochSecond (daysBeforeYear_zero ▸ from0) to9999
  exact (parseReceiptDate_iff jiff).mpr ⟨_, spells_toReceiptDate isAt firstYear lastYear "Etc/GMT",
    stampOf_exists isAt firstYear, floor_stampOf isAt firstYear, low, high⟩

/-- **Every decoded date renders, and rendering loses only the milliseconds.** The two renderings of
an instant that renders show the civil time of its whole second, in GMT and in Pacific time; a
receipt date renders, and reads back from the GMT rendering and its milliseconds; and the endpoint
renders every decoded payload at every request instant that renders. -/
theorem rendering_loses_millis {jiff : Jiff} {offset : Int → Int} (zone : PacificZone jiff offset) :
    (∀ millis, renders millis = true →
      (∃ civil : Civil, civil.IsAt (millis / 1000) ∧
        formatEtcGmt jiff millis = some (civil.shown "Etc/GMT")) ∧
      ∃ civil : Civil, civil.IsAt (millis / 1000 + offset (millis / 1000)) ∧
        formatPacific jiff millis = some (civil.shown "America/Los_Angeles")) ∧
    (∀ text millis, parseReceiptDate jiff text = some millis → renders millis = true ∧
      ∃ rendering, formatEtcGmt jiff millis = some rendering ∧
        parseReceiptDate jiff (toReceiptDate rendering millis) = some millis) ∧
    ∀ (ssl : OpenSsl) (attributes : List Attribute) (environment : Environment) (now : Int),
      renders now = true →
      (render jiff environment (parseReceiptPayload ssl jiff attributes) now).isSome = true := by
  refine ⟨fun millis covered => ⟨⟨_, civilOf_isAt _, formatEtcGmt_shown zone covered⟩,
    ⟨_, civilOf_isAt _, formatPacific_shown zone covered⟩⟩, fun text millis read =>
    ⟨renders_of_parseReceiptDate read, parseReceiptDate_rendering zone read⟩,
    fun ssl attributes environment now covered => ?_⟩
  obtain ⟨receipt, -, made, -⟩ := @receiptJson_some ssl jiff attributes now covered
  rw [render, made]
  rfl

/-- The last receipt date, in jiff's last 26 hours. -/
theorem rendering_loses_millis_last :
    PacificZone Sample.losAngeles Sample.pacificOffset ∧
      formatEtcGmt Sample.losAngeles 253402300799999 = some "9999-12-31 23:59:59 Etc/GMT" ∧
      ∃ rendering, formatEtcGmt Sample.losAngeles 253402300799999 = some rendering ∧
        parseReceiptDate Sample.losAngeles (toReceiptDate rendering 253402300799999) =
          some 253402300799999 :=
  have zone : PacificZone Sample.losAngeles Sample.pacificOffset := Sample.sameZone.zone
  ⟨zone, by decide +kernel, ((rendering_loses_millis zone).2.1
    "9999-12-31T23:59:59.999Z" 253402300799999 (by decide +kernel)).2⟩

end ReceiptVerifier
