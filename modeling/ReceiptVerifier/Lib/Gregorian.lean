import Mathlib.Algebra.Ring.Int.Defs
import Mathlib.Algebra.Ring.Nat
import Mathlib.Data.List.Basic
import Mathlib.Tactic.Common

/-!
# The proleptic Gregorian calendar

Dates, times of day, and the seconds between a civil time and the civil epoch. `ofEpochSecond` goes
back from the seconds to the one date and time they stand for.
-/

namespace Gregorian

def isLeap (year : Int) : Bool := year % 4 == 0 && (year % 100 != 0 || year % 400 == 0)

def daysInMonth (year month : Int) : Int :=
  if month = 2 then if isLeap year then 29 else 28
  else if month = 4 ∨ month = 6 ∨ month = 9 ∨ month = 11 then 30
  else 31

/-- The day exists. -/
def isDate (year month day : Int) : Bool :=
  1 ≤ month && month ≤ 12 && 1 ≤ day && day ≤ daysInMonth year month

/-- The time of day exists; there are no leap seconds. -/
def isTime (hour minute second : Int) : Bool :=
  0 ≤ hour && hour ≤ 23 && 0 ≤ minute && minute ≤ 59 && 0 ≤ second && second ≤ 59

/-- Days from 0001-01-01 to the first day of the year. -/
def daysBeforeYear (year : Int) : Int :=
  365 * (year - 1) + (year - 1) / 4 - (year - 1) / 100 + (year - 1) / 400

/-- Days of the year before the first of the month. -/
def daysBeforeMonth (year month : Int) : Int :=
  ((List.range (month - 1).toNat).map fun m => daysInMonth year (m + 1)).sum

/-- Days from 1970-01-01. -/
def epochDay (year month day : Int) : Int :=
  daysBeforeYear year + daysBeforeMonth year month + (day - 1) - 719162

/-- Seconds from 1970-01-01T00:00:00. -/
def epochSecond (year month day hour minute second : Int) : Int :=
  epochDay year month day * 86400 + hour * 3600 + minute * 60 + second

/-! ## The years -/

theorem daysBeforeYear_mono {y y' : Int} (h : y ≤ y') : daysBeforeYear y ≤ daysBeforeYear y' := by
  unfold daysBeforeYear
  omega

/-- The days of a year. -/
def daysInYear (year : Int) : Int := if isLeap year then 366 else 365

theorem daysBeforeYear_succ (year : Int) :
    daysBeforeYear (year + 1) = daysBeforeYear year + daysInYear year := by
  unfold daysBeforeYear daysInYear isLeap
  split <;> simp_all <;> omega

/-- The days before a year, cycle by cycle: 400 years, then centuries, leap cycles and years. -/
theorem daysBeforeYear_cycles {q c f y : Int} (hc : 0 ≤ c ∧ c ≤ 3) (hf : 0 ≤ f ∧ f ≤ 24)
    (hy : 0 ≤ y ∧ y ≤ 3) :
    daysBeforeYear (q * 400 + c * 100 + f * 4 + y + 1) =
      q * 146097 + c * 36524 + f * 1461 + y * 365 := by
  unfold daysBeforeYear
  omega

/-- The year of a day counted from 0001-01-01. The last century of a cycle and the last year of a
leap cycle are a day longer. -/
def yearOfDay (day : Int) : Int :=
  let cycle := day % 146097
  let century := min (cycle / 36524) 3
  let inCentury := cycle - century * 36524
  let inLeap := inCentury % 1461
  day / 146097 * 400 + century * 100 + inCentury / 1461 * 4 + min (inLeap / 365) 3 + 1

theorem yearOfDay_spec (day : Int) :
    daysBeforeYear (yearOfDay day) ≤ day ∧ day < daysBeforeYear (yearOfDay day + 1) := by
  unfold yearOfDay
  simp only
  generalize hq : day / 146097 = q
  generalize hr : day % 146097 = r
  generalize hc : min (r / 36524) 3 = c
  generalize hf : (r - c * 36524) / 1461 = f
  generalize hs : (r - c * 36524) % 1461 = s
  generalize hy : min (s / 365) 3 = y
  have hc' : 0 ≤ c ∧ c ≤ 3 := by omega
  have hf' : 0 ≤ f ∧ f ≤ 24 := by omega
  have hy' : 0 ≤ y ∧ y ≤ 3 := by omega
  rw [daysBeforeYear_cycles hc' hf' hy']
  refine ⟨by omega, ?_⟩
  rw [daysBeforeYear_succ, daysBeforeYear_cycles hc' hf' hy']
  have leap : y = 3 → s = 1460 → isLeap (q * 400 + c * 100 + f * 4 + y + 1) = true := by
    intro last long
    unfold isLeap
    simp
    omega
  unfold daysInYear
  split
  · omega
  next short =>
    have : ¬ (y = 3 ∧ s = 1460) := fun both => short (leap both.1 both.2)
    omega


/-! ## The months of a year -/

theorem daysBeforeMonth_one (year : Int) : daysBeforeMonth year 1 = 0 := rfl

theorem daysBeforeMonth_succ (year : Int) {month : Int} (h : 1 ≤ month) :
    daysBeforeMonth year (month + 1) = daysBeforeMonth year month + daysInMonth year month := by
  obtain ⟨n, rfl⟩ : ∃ n : Nat, month = n + 1 := ⟨(month - 1).toNat, by omega⟩
  have next : ((n : Int) + 1 + 1 - 1).toNat = n + 1 := by omega
  have same : ((n : Int) + 1 - 1).toNat = n := by omega
  rw [daysBeforeMonth, daysBeforeMonth, next, same, List.range_succ]
  simp

theorem daysInMonth_bounds (year month : Int) :
    0 ≤ daysInMonth year month ∧ daysInMonth year month ≤ 31 := by
  unfold daysInMonth
  repeat' split
  all_goals decide

theorem daysBeforeMonth_bounds (year : Int) {month : Int} (h : 1 ≤ month) :
    0 ≤ daysBeforeMonth year month ∧ daysBeforeMonth year month ≤ 31 * (month - 1) := by
  obtain ⟨n, rfl⟩ : ∃ n : Nat, month = n + 1 := ⟨(month - 1).toNat, by omega⟩
  clear h
  induction n with
  | zero =>
    change 0 ≤ daysBeforeMonth year 1 ∧ daysBeforeMonth year 1 ≤ 31 * (1 - 1)
    rw [daysBeforeMonth_one]
    decide
  | succ n ih =>
    have next := @daysBeforeMonth_succ year (n + 1) (by omega)
    have days := daysInMonth_bounds year (n + 1)
    push_cast
    omega

/-- The months fill the year. -/
theorem daysBeforeMonth_twelve (year : Int) :
    daysBeforeMonth year 12 + daysInMonth year 12 = daysInYear year := by
  unfold daysInYear
  cases leap : isLeap year <;> simp [daysBeforeMonth, daysInMonth, leap] <;> decide

/-- The month and the day a day of the year is, counted from `month` on with `left` months after
it. -/
def monthDay (year : Int) : Nat → Int → Int → Int × Int
  | 0, month, day => (month, day + 1)
  | left + 1, month, day =>
    if day < daysInMonth year month then (month, day + 1)
    else monthDay year left (month + 1) (day - daysInMonth year month)

theorem monthDay_spec (year : Int) (left : Nat) (month day : Int) (hm : 1 ≤ month)
    (hl : month + left = 12) (hd : 0 ≤ day)
    (fits : daysBeforeMonth year month + day < daysInYear year) :
    isDate year (monthDay year left month day).1 (monthDay year left month day).2 = true ∧
      daysBeforeMonth year (monthDay year left month day).1 + (monthDay year left month day).2 =
        daysBeforeMonth year month + day + 1 := by
  induction left generalizing month day with
  | zero =>
    obtain rfl : month = 12 := by omega
    have last := daysBeforeMonth_twelve year
    rw [monthDay]
    refine ⟨?_, by dsimp only; omega⟩
    simp only [isDate, Bool.and_eq_true, decide_eq_true_eq]
    omega
  | succ left ih =>
    rw [monthDay]
    split
    next inside =>
      refine ⟨?_, by dsimp only; omega⟩
      simp only [isDate, Bool.and_eq_true, decide_eq_true_eq]
      omega
    next past =>
      have next := daysBeforeMonth_succ year hm
      obtain ⟨valid, total⟩ := ih (month + 1) (day - daysInMonth year month) (by omega) (by omega)
        (by omega) (by omega)
      exact ⟨valid, by omega⟩

/-- A bound on the seconds of the first ten thousand years. -/
theorem epochSecond_bounds {year month day hour minute second : Int} (low : 0 ≤ year)
    (high : year ≤ 9999) (date : isDate year month day = true)
    (time : isTime hour minute second = true) :
    -(10 ^ 12) ≤ epochSecond year month day hour minute second ∧
      epochSecond year month day hour minute second ≤ 10 ^ 12 := by
  simp only [isDate, isTime, Bool.and_eq_true, decide_eq_true_eq] at date time
  have before := daysBeforeMonth_bounds year date.1.1.1
  have length := daysInMonth_bounds year month
  unfold epochSecond epochDay daysBeforeYear
  omega

/-! ## From days to dates -/

/-- A date and a time of day. -/
structure DateTime where
  year : Int
  month : Int
  day : Int
  hour : Int
  minute : Int
  second : Int

/-- The date and time a number of seconds from 1970-01-01T00:00:00. -/
def ofEpochSecond (seconds : Int) : DateTime :=
  let day := seconds / 86400 + 719162
  let ofDay := seconds % 86400
  let year := yearOfDay day
  let date := monthDay year 11 1 (day - daysBeforeYear year)
  { year := year, month := date.1, day := date.2, hour := ofDay / 3600, minute := ofDay / 60 % 60,
    second := ofDay % 60 }

theorem ofEpochSecond_spec (seconds : Int) :
    let t := ofEpochSecond seconds
    isDate t.year t.month t.day = true ∧ isTime t.hour t.minute t.second = true ∧
      epochSecond t.year t.month t.day t.hour t.minute t.second = seconds := by
  simp only [ofEpochSecond]
  generalize hday : seconds / 86400 + 719162 = day
  obtain ⟨low, high⟩ := yearOfDay_spec day
  generalize hyear : yearOfDay day = year at low high ⊢
  have one := daysBeforeMonth_one year
  rw [daysBeforeYear_succ] at high
  obtain ⟨valid, total⟩ := monthDay_spec year 11 1 (day - daysBeforeYear year) (by omega) rfl
    (by omega) (by omega)
  refine ⟨valid, ?_, ?_⟩
  · simp only [isTime, Bool.and_eq_true, decide_eq_true_eq]
    omega
  · unfold epochSecond epochDay
    omega

/-- A second of the years from `first` to `last` has one of those years. -/
theorem year_ofEpochSecond {seconds first last : Int}
    (low : (daysBeforeYear first - 719162) * 86400 ≤ seconds)
    (high : seconds < (daysBeforeYear (last + 1) - 719162) * 86400) :
    first ≤ (ofEpochSecond seconds).year ∧ (ofEpochSecond seconds).year ≤ last := by
  obtain ⟨before, after⟩ := yearOfDay_spec (seconds / 86400 + 719162)
  change first ≤ yearOfDay (seconds / 86400 + 719162) ∧ yearOfDay (seconds / 86400 + 719162) ≤ last
  constructor
  · by_contra early
    have : yearOfDay (seconds / 86400 + 719162) + 1 ≤ first := by omega
    have := daysBeforeYear_mono this
    omega
  · by_contra late
    have : last + 1 ≤ yearOfDay (seconds / 86400 + 719162) := by omega
    have := daysBeforeYear_mono this
    omega

end Gregorian
