import ReceiptVerifier.Lib.Gregorian
import ReceiptVerifier.Basic

/-!
# Dates

`rust/src/datetime.rs`: the RFC 3339 form a receipt date takes, and the renderings of the endpoint.
The calendar and the time zone are `jiff`'s, a crate outside the repository, so they are a parameter
(`Jiff`) with what its documentation says.
-/

namespace ReceiptVerifier

/-! ## What comes from `jiff` -/

/-- The fields of a civil time. -/
structure Civil where
  year : Int
  month : Int
  day : Int
  hour : Int
  minute : Int
  second : Int
deriving DecidableEq, Repr

/-- `Timestamp::MIN` in seconds: -9999-01-02T01:59:59Z. -/
def timestampMinSecond : Int := -377705023201
/-- `Timestamp::MAX` in whole seconds: 9999-12-30T22:00:00Z. -/
def timestampMaxSecond : Int := 253402207200
/-- The largest `Offset`, either way: 25:59:59. -/
def offsetMaxSeconds : Int := 93599

/-- The calendar and the zone. -/
structure Jiff where
  /-- `Date::new` accepts. -/
  isDate : Int → Int → Int → Bool
  /-- `Time::new` accepts, with no nanoseconds. -/
  isTime : Int → Int → Int → Bool
  /-- `duration_since(EPOCH).as_secs()` of a civil time. -/
  sinceEpoch : Civil → Int
  /-- `PACIFIC.to_offset` at a timestamp's second. -/
  pacificOffset : Int → Int
  /-- `Offset::to_datetime` of an offset and a timestamp's second. -/
  civil : Int → Int → Civil
  /-- Dates are the proleptic Gregorian calendar's, from the year -9999 to 9999. -/
  isDate_eq : ∀ {y m d}, -9999 ≤ y → y ≤ 9999 → isDate y m d = Gregorian.isDate y m d
  isTime_eq : ∀ {h m s}, isTime h m s = Gregorian.isTime h m s
  sinceEpoch_eq : ∀ {c}, isDate c.year c.month c.day = true →
    isTime c.hour c.minute c.second = true →
    sinceEpoch c = Gregorian.epochSecond c.year c.month c.day c.hour c.minute c.second
  /-- An `Offset` is at most 25:59:59 either way. -/
  pacificOffset_bound :
    ∀ s, -offsetMaxSeconds ≤ pacificOffset s ∧ pacificOffset s ≤ offsetMaxSeconds
  /-- `America/Los_Angeles` is at PST at the last timestamp. -/
  pacificOffset_max : pacificOffset timestampMaxSecond = -28800

/-- The calendar itself, with Pacific standard time all year and no civil fields: what the laws ask
for can be had. -/
def Jiff.gregorian : Jiff where
  isDate := Gregorian.isDate
  isTime := Gregorian.isTime
  sinceEpoch c := Gregorian.epochSecond c.year c.month c.day c.hour c.minute c.second
  pacificOffset _ := -28800
  civil _ _ := ⟨1970, 1, 1, 0, 0, 0⟩
  isDate_eq _ _ := rfl
  isTime_eq := rfl
  sinceEpoch_eq _ _ := rfl
  pacificOffset_bound _ := by decide
  pacificOffset_max := rfl

/-- `Timestamp::from_second` accepts. -/
def isTimestamp (second : Int) : Bool :=
  timestampMinSecond ≤ second && second ≤ timestampMaxSecond

/-- `Offset::from_seconds` accepts. -/
def isOffset (seconds : Int) : Bool :=
  -offsetMaxSeconds ≤ seconds && seconds ≤ offsetMaxSeconds

/-! ## Renderings -/

/-- 0000-01-01T00:00:00Z, the first instant a receipt date can name. -/
def firstMillis : Int := -62167219200000
/-- 9999-12-31T23:59:59.999Z, the last instant a receipt date can name. -/
def lastMillis : Int := 253402300799999

/-- Whether the renderings cover an instant. -/
def renders (millis : Int) : Bool :=
  timestampMinSecond * 1000 ≤ millis && millis ≤ lastMillis

variable (jiff : Jiff)

/-- The UTC offset of `America/Los_Angeles`, in seconds, at an instant. -/
def pacificOffsetSeconds (millis : Int) : Option Int :=
  if !renders millis then none
  else
    let second := min (millis / 1000) timestampMaxSecond
    if isTimestamp second then some (jiff.pacificOffset second) else none

/-- `{value:0width$}`: a number zero-padded to `width` characters, the sign counted. -/
def pad (width : Nat) (value : Int) : String :=
  let digits := toString value.natAbs
  let sign := if value < 0 then "-" else ""
  sign ++ String.ofList (List.replicate (width - sign.length - digits.length) '0') ++ digits

/-- Apple's rendering with the civil time taken in `offsetSeconds`. -/
def formatCivil (millis offsetSeconds : Int) (label : String) : Option String :=
  let second := millis / 1000
  -- the seconds past the last timestamp are carried in the offset
  let timestamp := min second timestampMaxSecond
  let shift := offsetSeconds + (second - timestamp)
  if isOffset shift && isTimestamp timestamp then
    let civil := jiff.civil shift timestamp
    some (pad 4 civil.year ++ "-" ++ pad 2 civil.month ++ "-" ++ pad 2 civil.day ++ " " ++
      pad 2 civil.hour ++ ":" ++ pad 2 civil.minute ++ ":" ++ pad 2 civil.second ++ " " ++ label)
  else none

def formatEtcGmt (millis : Int) : Option String :=
  if !renders millis then none else formatCivil jiff millis 0 "Etc/GMT"

def formatPacific (millis : Int) : Option String :=
  (pacificOffsetSeconds jiff millis).bind fun offset =>
    formatCivil jiff millis offset "America/Los_Angeles"

/-! ## Receipt dates -/

/-- The UTF-8 bytes of a text. -/
def utf8 (text : String) : Bytes := text.toList.flatMap String.utf8EncodeChar

def isAsciiDigit (byte : UInt8) : Bool := 0x30 ≤ byte && byte ≤ 0x39

/-- The value of a digit. -/
def digit (byte : UInt8) : Int := (byte.toNat - 0x30 : Nat)

/-- The number some digits spell. -/
def digits (field : Bytes) : Option Int :=
  field.foldlM (fun (value : Int) byte =>
    if isAsciiDigit byte then some (value * 10 + digit byte) else none) 0

/-- The optional fraction at the start of what follows the seconds: its milliseconds, and what is
left. -/
def readFraction (rest : Bytes) : Option (Int × Bytes) :=
  match rest with
  | 0x2e :: fraction =>
    let taken := fraction.takeWhile isAsciiDigit
    if taken.isEmpty then none
    else
      some (((taken ++ [0x30, 0x30]).take 3).foldl (fun value byte => value * 10 + digit byte) 0,
        fraction.drop taken.length)
  | _ => some (0, rest)

/-- `Z`, or an offset in minutes. -/
def readOffset (rest : Bytes) : Option Int :=
  match rest with
  | [z] => if z == 0x5a || z == 0x7a then some 0 else none
  | [sign, h1, h2, colon, m1, m2] =>
    if (sign == 0x2b || sign == 0x2d) && colon == 0x3a then
      match digits [h1, h2], digits [m1, m2] with
      | some hours, some minutes =>
        if hours > 23 ∨ minutes > 59 then none
        else
          let minutes := hours * 60 + minutes
          some (if sign == 0x2d then -minutes else minutes)
      | _, _ => none
    else none
  | _ => none

/-- Parses a receipt date attribute to epoch milliseconds: an RFC 3339 `date-time`. -/
def parseReceiptDate (text : String) : Option Int :=
  match (utf8 text).take 19, (utf8 text).drop 19 with
  | [y1, y2, y3, y4, dash, mo1, mo2, dash', d1, d2, t, h1, h2, colon, mi1, mi2, colon', s1, s2],
      rest =>
    if dash == 0x2d && dash' == 0x2d && colon == 0x3a && colon' == 0x3a &&
        (t == 0x54 || t == 0x74) then do
      let (millis, rest) ← readFraction rest
      let offsetMinutes ← readOffset rest
      let second ← digits [s1, s2]
      if second > 60 then none
      else
        let year ← digits [y1, y2, y3, y4]
        let month ← digits [mo1, mo2]
        let day ← digits [d1, d2]
        if !jiff.isDate year month day then none
        else
          let hour ← digits [h1, h2]
          let minute ← digits [mi1, mi2]
          if !jiff.isTime hour minute (min second 59) then none
          else
            let civil : Civil := ⟨year, month, day, hour, minute, min second 59⟩
            let seconds := jiff.sinceEpoch civil - offsetMinutes * 60
            let instant := seconds * 1000 + millis
            if firstMillis ≤ instant ∧ instant ≤ lastMillis then some instant else none
    else none
  | _, _ => none

end ReceiptVerifier
