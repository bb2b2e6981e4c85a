import ReceiptVerifier.Endpoint
import ReceiptVerifier.Java.EndpointResponse

/-!
# The two ports render dates alike

Both ports print the civil time of an instant in GMT and in US Pacific time. Rust carries the last
hours of the year 9999 in the offset and Java formats the instant itself, and the two come to the
same civil time. They part in one place, before 0000-01-01T07:52:58Z: there Pacific time is in the
year -1, which Rust pads to four characters with the sign and Java to four digits after it.
-/

namespace ReceiptVerifier

/-! ## Civil times -/

/-- The civil time is the proleptic Gregorian calendar's of a second. -/
structure Civil.IsAt (civil : Civil) (second : Int) : Prop where
  date : Gregorian.isDate civil.year civil.month civil.day = true
  time : Gregorian.isTime civil.hour civil.minute civil.second = true
  second_eq : Gregorian.epochSecond civil.year civil.month civil.day civil.hour civil.minute
    civil.second = second

/-- A civil time as Apple writes it. -/
def Civil.shown (civil : Civil) (label : String) : String :=
  pad 4 civil.year ++ "-" ++ pad 2 civil.month ++ "-" ++ pad 2 civil.day ++ " " ++
    pad 2 civil.hour ++ ":" ++ pad 2 civil.minute ++ ":" ++ pad 2 civil.second ++ " " ++ label

def civilOf (t : Gregorian.DateTime) : Civil := ⟨t.year, t.month, t.day, t.hour, t.minute, t.second⟩

/-- What is supposed of `jiff`'s calendar and zone: civil times are Gregorian, `offset` is the
zone's at every second, and it is PST from the last timestamp to the end of the year 9999. -/
structure PacificZone (jiff : Jiff) (offset : Int → Int) : Prop where
  civil : ∀ {offset second}, isOffset offset = true → isTimestamp second = true →
    jiff.civil offset second = civilOf (Gregorian.ofEpochSecond (second + offset))
  pacific : ∀ {second}, isTimestamp second = true → jiff.pacificOffset second = offset second
  lastDays : ∀ {second}, timestampMaxSecond ≤ second → second ≤ lastMillis / 1000 →
    offset second = -28800

theorem civilOf_isAt (second : Int) : (civilOf (Gregorian.ofEpochSecond second)).IsAt second :=
  have spec := Gregorian.ofEpochSecond_spec second
  ⟨spec.1, spec.2.1, spec.2.2⟩

variable {jiff : Jiff} {offset : Int → Int}

theorem formatCivil_shown (zone : PacificZone jiff offset) {millis shift : Int} {label : String}
    (isShift : isOffset (shift + (millis / 1000 - min (millis / 1000) timestampMaxSecond)) = true)
    (timestamp : isTimestamp (min (millis / 1000) timestampMaxSecond) = true) :
    formatCivil jiff millis shift label =
      some ((civilOf (Gregorian.ofEpochSecond (millis / 1000 + shift))).shown label) := by
  have instant : min (millis / 1000) timestampMaxSecond +
      (shift + (millis / 1000 - min (millis / 1000) timestampMaxSecond)) =
        millis / 1000 + shift := by omega
  have civil := zone.civil isShift timestamp
  rw [instant] at civil
  simp only [formatCivil, isShift, timestamp, Bool.and_self, if_true, civil, Civil.shown]

/-- The second of an instant that renders, cut to the timestamps. -/
theorem timestamp_of_renders {millis : Int} (h : renders millis = true) :
    isTimestamp (min (millis / 1000) timestampMaxSecond) = true ∧
      millis / 1000 ≤ lastMillis / 1000 := by
  simp only [renders, Bool.and_eq_true, decide_eq_true_eq] at h
  simp only [isTimestamp, Bool.and_eq_true, decide_eq_true_eq]
  simp only [timestampMinSecond, timestampMaxSecond, lastMillis] at *
  omega

theorem formatEtcGmt_shown (zone : PacificZone jiff offset) {millis : Int}
    (h : renders millis = true) :
    formatEtcGmt jiff millis =
      some ((civilOf (Gregorian.ofEpochSecond (millis / 1000))).shown "Etc/GMT") := by
  obtain ⟨timestamp, last⟩ := timestamp_of_renders h
  have shift : isOffset (0 + (millis / 1000 - min (millis / 1000) timestampMaxSecond)) = true := by
    simp only [isOffset, Bool.and_eq_true, decide_eq_true_eq]
    simp only [offsetMaxSeconds, timestampMaxSecond, lastMillis] at *
    omega
  rw [formatEtcGmt, h, Bool.not_true, if_neg Bool.false_ne_true,
    formatCivil_shown zone shift timestamp,
    Int.add_zero]

/-- The offset looked up is the zone's at the floored second, past the last timestamp, too. -/
theorem pacificOffsetSeconds_eq (zone : PacificZone jiff offset) {millis : Int}
    (h : renders millis = true) :
    pacificOffsetSeconds jiff millis = some (offset (millis / 1000)) := by
  obtain ⟨timestamp, last⟩ := timestamp_of_renders h
  have same : jiff.pacificOffset (min (millis / 1000) timestampMaxSecond) =
      offset (millis / 1000) := by
    rw [zone.pacific timestamp]
    rcases Int.le_total (millis / 1000) timestampMaxSecond with early | late
    · rw [Int.min_eq_left early]
    · rw [Int.min_eq_right late, zone.lastDays (Int.le_refl _) (by decide),
        zone.lastDays late last]
  rw [pacificOffsetSeconds, h, Bool.not_true, if_neg Bool.false_ne_true]
  dsimp only
  rw [timestamp, if_pos rfl, same]

theorem formatPacific_shown (zone : PacificZone jiff offset) {millis : Int}
    (h : renders millis = true) :
    formatPacific jiff millis =
      some ((civilOf (Gregorian.ofEpochSecond (millis / 1000 + offset (millis / 1000)))).shown
        "America/Los_Angeles") := by
  obtain ⟨timestamp, last⟩ := timestamp_of_renders h
  have shift : isOffset (offset (millis / 1000) +
      (millis / 1000 - min (millis / 1000) timestampMaxSecond)) = true := by
    simp only [isOffset, Bool.and_eq_true, decide_eq_true_eq]
    rcases Int.le_total (millis / 1000) timestampMaxSecond with early | late
    · rw [Int.min_eq_left early] at timestamp ⊢
      have bound := jiff.pacificOffset_bound (millis / 1000)
      rw [zone.pacific timestamp] at bound
      omega
    · rw [Int.min_eq_right late, zone.lastDays late last]
      simp only [offsetMaxSeconds, timestampMaxSecond, lastMillis] at *
      omega
  rw [formatPacific, pacificOffsetSeconds_eq zone h, Option.bind_some,
    formatCivil_shown zone shift timestamp]

/-! ## One calendar, one zone -/

open Java

/-- 1883-11-18T00:00:00Z, the day local mean time ended in Los Angeles. -/
def standardTimeSecond : Int := -2717712000

/-- What `jiff` and `java.time` share: the Gregorian calendar, and the IANA database's offsets of
`America/Los_Angeles`, of which the first and the last are given. -/
structure SameZone (jiff : Jiff) (time : JavaTime) : Prop where
  civil : ∀ {offset second}, isOffset offset = true → isTimestamp second = true →
    jiff.civil offset second = civilOf (Gregorian.ofEpochSecond (second + offset))
  pacific : ∀ {second}, isTimestamp second = true →
    jiff.pacificOffset second = time.pacificOffset second
  /-- Local mean time is -07:52:58. -/
  localMeanTime : ∀ {second}, second < standardTimeSecond → time.pacificOffset second = -28378
  /-- The last two days of the year 9999 are in PST. -/
  lastDays : ∀ {second}, timestampMaxSecond ≤ second → second ≤ lastMillis / 1000 →
    time.pacificOffset second = -28800

/-! ## Fields -/

/-- A number that is not negative is padded alike. -/
theorem pad_eq_padded (width : Nat) {value : Int} (h : 0 ≤ value) :
    pad width value = padded width value.natAbs := by
  have sign : ¬ value < 0 := by omega
  simp [pad, padded, sign]

/-- Everything `FORMAT` writes after the year. -/
def afterYear (t : Gregorian.DateTime) : String :=
  "-" ++ padded 2 t.month.natAbs ++ "-" ++ padded 2 t.day.natAbs ++ " " ++ padded 2 t.hour.natAbs ++
    ":" ++ padded 2 t.minute.natAbs ++ ":" ++ padded 2 t.second.natAbs

theorem format_eq (t : Gregorian.DateTime) : format t = formatYear t.year ++ afterYear t := by
  simp only [format, afterYear, String.append_assoc]

theorem formatYear_eq_pad {year : Int} (low : 0 ≤ year) (high : year ≤ 9999) :
    formatYear year = pad 4 year := by
  have sign : ¬ year < 0 := by omega
  have short : ¬ 9999 < year := by omega
  rw [pad_eq_padded 4 low]
  simp [formatYear, sign, short]

variable {time : JavaTime}

theorem SameZone.zone (same : SameZone jiff time) : PacificZone jiff time.pacificOffset :=
  ⟨same.civil, same.pacific, same.lastDays⟩

/-- Apple's rendering, with what Java writes after the year. -/
theorem shown_civilOf (second : Int) (label : String) :
    (civilOf (Gregorian.ofEpochSecond second)).shown label =
      pad 4 (Gregorian.ofEpochSecond second).year ++
        afterYear (Gregorian.ofEpochSecond second) ++ " " ++ label := by
  obtain ⟨date, timeOfDay, -⟩ := Gregorian.ofEpochSecond_spec second
  generalize Gregorian.ofEpochSecond second = t at date timeOfDay ⊢
  simp only [Gregorian.isDate, Gregorian.isTime, Bool.and_eq_true,
    decide_eq_true_eq] at date timeOfDay
  simp only [Civil.shown, civilOf, afterYear, String.append_assoc]
  rw [pad_eq_padded 2 (by omega), pad_eq_padded 2 (by omega), pad_eq_padded 2 (by omega),
    pad_eq_padded 2 (by omega), pad_eq_padded 2 (by omega)]

/-! ## Years -/

theorem daysBeforeYear_zero :
    (Gregorian.daysBeforeYear 0 - 719162) * 86400 = firstMillis / 1000 := by
  decide

/-- A second of the years 0000 to 9999 prints the same year in both ports. -/
theorem formatYear_ofEpochSecond {second : Int} (low : firstMillis / 1000 ≤ second)
    (high : second ≤ lastMillis / 1000) :
    formatYear (Gregorian.ofEpochSecond second).year =
      pad 4 (Gregorian.ofEpochSecond second).year := by
  have late : second < (Gregorian.daysBeforeYear (9999 + 1) - 719162) * 86400 :=
    Int.lt_of_le_of_lt high (by decide)
  obtain ⟨from0, to9999⟩ := Gregorian.year_ofEpochSecond (daysBeforeYear_zero ▸ low) late
  exact formatYear_eq_pad from0 to9999

/-- The hours before the year 0000 are in the year -1. -/
theorem year_before_first {second : Int} (low : firstMillis / 1000 - 28378 ≤ second)
    (high : second < firstMillis / 1000) : (Gregorian.ofEpochSecond second).year = -1 := by
  have early : (Gregorian.daysBeforeYear (-1) - 719162) * 86400 ≤ second :=
    Int.le_trans (by decide) low
  have late : second < (Gregorian.daysBeforeYear (-1 + 1) - 719162) * 86400 := by
    simpa only [Int.reduceNeg, Int.reduceAdd, daysBeforeYear_zero] using high
  obtain ⟨above, below⟩ := Gregorian.year_ofEpochSecond early late
  omega

/-! ## The renderings -/

theorem renders_of_range {millis : Int} (low : firstMillis ≤ millis) (high : millis ≤ lastMillis) :
    renders millis = true := by
  simp only [renders, Bool.and_eq_true, decide_eq_true_eq]
  simp only [firstMillis, timestampMinSecond, lastMillis] at *
  omega

theorem formatEtcGmt_eq_java (same : SameZone jiff time) {millis : Int} (low : firstMillis ≤ millis)
    (high : millis ≤ lastMillis) :
    formatEtcGmt jiff millis =
      some (format (Gregorian.ofEpochSecond (millis / 1000)) ++ " Etc/GMT") := by
  have year : formatYear (Gregorian.ofEpochSecond (millis / 1000)).year =
      pad 4 (Gregorian.ofEpochSecond (millis / 1000)).year := by
    apply formatYear_ofEpochSecond
    · exact Int.ediv_le_ediv (by decide) low
    · exact Int.ediv_le_ediv (by decide) high
  rw [formatEtcGmt_shown same.zone (renders_of_range low high), shown_civilOf, format_eq, year]
  simp [String.append_assoc]

/-- The Pacific rendering in Rust, with the year as it is padded there. -/
theorem formatPacific_eq (same : SameZone jiff time) {millis : Int} (low : firstMillis ≤ millis)
    (high : millis ≤ lastMillis) :
    let t := Gregorian.ofEpochSecond (millis / 1000 + time.pacificOffset (millis / 1000))
    formatPacific jiff millis = some (pad 4 t.year ++ afterYear t ++ " America/Los_Angeles") := by
  rw [formatPacific_shown same.zone (renders_of_range low high), shown_civilOf]
  simp [String.append_assoc]

/-- From 0000-01-01T07:52:58Z on, Pacific time is in the years 0000 to 9999. -/
theorem pacific_in_range (same : SameZone jiff time) {millis : Int}
    (low : firstMillis + 28378000 ≤ millis) (high : millis ≤ lastMillis) :
    firstMillis / 1000 ≤ millis / 1000 + time.pacificOffset (millis / 1000) ∧
      millis / 1000 + time.pacificOffset (millis / 1000) ≤ lastMillis / 1000 := by
  rcases Int.lt_or_le (millis / 1000) standardTimeSecond with early | standard
  · rw [same.localMeanTime early]
    simp only [firstMillis, lastMillis, standardTimeSecond] at *
    omega
  rcases Int.le_total timestampMaxSecond (millis / 1000) with late | before
  · have last : millis / 1000 ≤ lastMillis / 1000 := Int.ediv_le_ediv (by decide) high
    rw [same.lastDays late last]
    simp only [firstMillis, lastMillis, timestampMaxSecond] at *
    omega
  · have timestamp : isTimestamp (millis / 1000) = true := by
      simp only [isTimestamp, Bool.and_eq_true, decide_eq_true_eq]
      simp only [timestampMinSecond, standardTimeSecond] at *
      omega
    have bound := jiff.pacificOffset_bound (millis / 1000)
    rw [same.pacific timestamp] at bound
    simp only [firstMillis, lastMillis, standardTimeSecond, timestampMaxSecond,
      offsetMaxSeconds] at *
    omega

/-- **The two ports render receipt dates alike**: the GMT and the millisecond strings always, and
the Pacific string from 0000-01-01T07:52:58Z on. Before that the Pacific year is -1, and nothing
else of the two strings differs. -/
theorem appleDates_eq_java (same : SameZone jiff time) (json : JsonMap) (name : String)
    {millis : Int} (low : firstMillis ≤ millis) (high : millis ≤ lastMillis) :
    ∃ gmt ms pst pst',
      Java.appleDates time name (some millis) =
        [(name, gmt), (name ++ "_ms", ms), (name ++ "_pst", pst)] ∧
      appleDates jiff json name (some millis) =
        some (((json.insert name (.string gmt)).insert (name ++ "_ms") (.string ms)).insert
          (name ++ "_pst") (.string pst')) ∧
      (firstMillis + 28378000 ≤ millis → pst' = pst) ∧
      (millis < firstMillis + 28378000 →
        ∃ rest, pst = "-0001" ++ rest ∧ pst' = "-001" ++ rest) := by
  have gmt := formatEtcGmt_eq_java same low high
  have pacific := formatPacific_eq same low high
  refine ⟨_, _, _, _, rfl, by simp only [appleDates, gmt, pacific]; rfl, ?_, ?_⟩
  · intro late
    obtain ⟨above, below⟩ := pacific_in_range same late high
    rw [format_eq, formatYear_ofEpochSecond above below]
  · intro early
    have start : firstMillis / 1000 ≤ millis / 1000 := Int.ediv_le_ediv (by decide) low
    have offset : time.pacificOffset (millis / 1000) = -28378 := by
      apply same.localMeanTime
      simp only [firstMillis, standardTimeSecond] at *
      omega
    have year : (Gregorian.ofEpochSecond (millis / 1000 + -28378)).year = -1 := by
      apply year_before_first
      · omega
      · simp only [firstMillis] at *
        omega
    refine ⟨afterYear (Gregorian.ofEpochSecond (millis / 1000 + -28378)) ++
      " America/Los_Angeles", ?_, ?_⟩
    · rw [format_eq, offset, year, String.append_assoc]
      rfl
    · rw [offset, year, String.append_assoc]
      rfl

namespace Sample

/-- The zone's first and last offsets, with no summer between them. -/
def pacificOffset (second : Int) : Int := if second < -2717640000 then -28378 else -28800

def javaTime : JavaTime := ⟨pacificOffset⟩

def losAngeles : Jiff :=
  { Jiff.gregorian with
    pacificOffset := pacificOffset
    civil := fun offset second => civilOf (Gregorian.ofEpochSecond (second + offset))
    pacificOffset_bound := fun second => by
      simp only [pacificOffset, offsetMaxSeconds]
      split <;> omega
    pacificOffset_max := rfl }

theorem sameZone : SameZone losAngeles javaTime where
  civil _ _ := rfl
  pacific _ := rfl
  localMeanTime early := by
    simp only [standardTimeSecond] at early
    exact if_pos (by omega)
  lastDays late _ := by
    simp only [timestampMaxSecond] at late
    exact if_neg (by omega)

end Sample

/-- The last instant of the year 9999. -/
theorem appleDates_eq_java_last :
    formatPacific Sample.losAngeles lastMillis = some "9999-12-31 15:59:59 America/Los_Angeles" ∧
      ∃ gmt ms pst pst',
        Java.appleDates Sample.javaTime "d" (some lastMillis) =
          [("d", gmt), ("d" ++ "_ms", ms), ("d" ++ "_pst", pst)] ∧
        appleDates Sample.losAngeles [] "d" (some lastMillis) =
          some (((JsonMap.insert [] "d" (.string gmt)).insert ("d" ++ "_ms") (.string ms)).insert
            ("d" ++ "_pst") (.string pst')) ∧
        pst' = pst := by
  refine ⟨by decide +kernel, ?_⟩
  obtain ⟨gmt, ms, pst, pst', java, rust, alike, -⟩ :=
    appleDates_eq_java Sample.sameZone [] "d" (by decide : firstMillis ≤ lastMillis) (by decide)
  exact ⟨gmt, ms, pst, pst', java, rust, alike (by decide)⟩

/-- The first receipt date, in Pacific time, is written in two ways. -/
theorem appleDates_first_differ :
    SameZone Sample.losAngeles Sample.javaTime ∧
      formatPacific Sample.losAngeles firstMillis = some "-001-12-31 16:07:02 America/Los_Angeles" ∧
      (Java.appleDates Sample.javaTime "d" (some firstMillis))[2]? =
        some ("d_pst", "-0001-12-31 16:07:02 America/Los_Angeles") :=
  ⟨Sample.sameZone, by decide +kernel, by decide +kernel⟩

end ReceiptVerifier
