import Mathlib.Algebra.Ring.Int.Defs
import Mathlib.Data.List.Basic
import Rellm.Foundation.Gregorian

/-!
# Local time

An integer of the client goes to the server as the two halves of an integer of 64 bits. A quotient has
32 bits only, whatever is divided.

A time is a number of milliseconds, and a zone tells what the clock shows at a time. The other way
round, from what the clock shows to the time, goes over a text with a date and a time of day.
-/

/-! ## Numbers on the wire -/

namespace Rellm.Client.Conversions

/-- The quotient without its fraction, wrapped to 32 bits. -/
def quotient (a b : Int) : Int := (a.tdiv b).bmod 4294967296

/-- The integer with two halves, of which the lower counts without a sign. -/
def fromInts (high low : Int) : Int64 := Int64.ofInt (high * 4294967296 + low % 4294967296)

/-- The two halves of an integer, each of which has a sign. -/
def toInts (value : Int64) : Int × Int :=
  (value.toInt / 4294967296, value.toInt.bmod 4294967296)

structure Timestamp where
  seconds : Int64
  nanos : Int

def int64FromInt (value : Int) : Int64 :=
  let high := quotient value 4294967296
  let unsignedLow := value - high * 4294967296
  let low := if 2147483648 ≤ unsignedLow then unsignedLow - 4294967296 else unsignedLow
  fromInts high low

def int64ToInt (value : Int64) : Int :=
  let (high, low) := toInts value
  let unsignedLow := if low < 0 then low + 4294967296 else low
  high * 4294967296 + unsignedLow

/-- The time of a timestamp in milliseconds. -/
def timestampToPosix (timestamp : Timestamp) : Int :=
  int64ToInt timestamp.seconds * 1000 + quotient timestamp.nanos 1000000

/-- The timestamp of a time in milliseconds, whose seconds are the lower half. -/
def posixToTimestamp (posix : Int) : Timestamp where
  seconds := fromInts 0 (quotient posix 1000)
  nanos := 0

/-- A time goes over the wire to the second. -/
structure Survives (posix : Int) : Prop where
  seconds : (posixToTimestamp posix).seconds.toInt = posix / 1000
  returns : timestampToPosix (posixToTimestamp posix) = posix / 1000 * 1000

/-- The halves of an integer make up the integer. -/
theorem int64ToInt_eq (value : Int64) : int64ToInt value = value.toInt := by
  have hnonneg := Int.emod_nonneg value.toInt (by decide : (4294967296 : Int) ≠ 0)
  have hlt := Int.emod_lt_of_pos value.toInt (by decide : (0 : Int) < 4294967296)
  simp only [int64ToInt, toInts, Int.bmod_def]
  omega

/-- Halves within their ranges are those of the integer that they make up. -/
theorem toInt_fromInts {high low : Int} (h : -2147483648 ≤ high) (h' : high < 2147483648) :
    (fromInts high low).toInt = high * 4294967296 + low % 4294967296 := by
  have hnonneg := Int.emod_nonneg low (by decide : (4294967296 : Int) ≠ 0)
  have hlt := Int.emod_lt_of_pos low (by decide : (0 : Int) < 4294967296)
  apply Int64.toInt_ofInt_of_le <;> omega

/-- A quotient with 32 bits is not wrapped. -/
theorem quotient_eq {a b : Int} (h : -2147483648 ≤ a.tdiv b) (h' : a.tdiv b < 2147483648) :
    quotient a b = a.tdiv b := Int.bmod_eq_of_le h h'

theorem toInt_int64FromInt {value : Int} (h : 0 ≤ value) (h' : value < 2 ^ 53) :
    (int64FromInt value).toInt = value := by
  have hdiv : value.tdiv 4294967296 = value / 4294967296 := Int.tdiv_eq_ediv_of_nonneg h
  have hquotient : quotient value 4294967296 = value / 4294967296 := by
    rw [quotient_eq] <;> omega
  simp only [int64FromInt, hquotient]
  rw [toInt_fromInts (by omega) (by omega)]
  split <;> omega

/-- What is written as the lower half of a timestamp is never negative. -/
theorem toInt_seconds (posix : Int) :
    (posixToTimestamp posix).seconds.toInt = posix.tdiv 1000 % 4294967296 := by
  have hmod : quotient posix 1000 % 4294967296 = posix.tdiv 1000 % 4294967296 :=
    Int.bmod_emod
  rw [posixToTimestamp, toInt_fromInts (by decide) (by decide), hmod]
  omega

theorem timestampToPosix_posixToTimestamp (posix : Int) :
    timestampToPosix (posixToTimestamp posix) =
      (posixToTimestamp posix).seconds.toInt * 1000 := by
  have hnanos : quotient (posixToTimestamp posix).nanos 1000000 = 0 := rfl
  rw [timestampToPosix, int64ToInt_eq, hnanos, Int.add_zero]

/-- Numbers survive below `2 ^ 53`; a time survives exactly if it is not before 1970 and its seconds
have 32 bits without a sign. -/
theorem survives_iff (value : Int) (h : 0 ≤ value) (h' : value < 2 ^ 53) (posix : Int) :
    (int64ToInt (int64FromInt value) = value ∧ (int64FromInt value).toInt = value) ∧
      (Survives posix ↔ 0 ≤ posix ∧ posix < 4294967296000) := by
  have hvalue := toInt_int64FromInt h h'
  refine ⟨⟨(int64ToInt_eq _).trans hvalue, hvalue⟩, ?_⟩
  have hseconds : (posixToTimestamp posix).seconds.toInt = posix / 1000 ↔
      0 ≤ posix ∧ posix < 4294967296000 := by
    rw [toInt_seconds]
    by_cases hsign : 0 ≤ posix
    · rw [Int.tdiv_eq_ediv_of_nonneg hsign]
      omega
    · have hnonneg := Int.emod_nonneg (posix.tdiv 1000) (by decide : (4294967296 : Int) ≠ 0)
      omega
  rw [← hseconds]
  constructor
  · exact fun hsurvives => hsurvives.seconds
  · intro heq
    refine ⟨heq, ?_⟩
    rw [timestampToPosix_posixToTimestamp, heq]

/-- Five gigabytes, and the first second of the year 2100. -/
theorem gigabytes_survive :
    (int64ToInt (int64FromInt 5368709120) = 5368709120 ∧
      (int64FromInt 5368709120).toInt = 5368709120) ∧
    (Survives 4102444800000 ↔ 0 ≤ (4102444800000 : Int) ∧ (4102444800000 : Int) < 4294967296000) :=
  survives_iff 5368709120 (by decide) (by decide) 4102444800000

/-- The time of the first landing on the moon comes back as one after 2105. -/
theorem moonLanding_lost : ¬ ∀ value : Int, 0 ≤ value → value < 2 ^ 53 →
    ∀ posix : Int, -62135596800000 ≤ posix → posix < 253402300800000 →
      (int64ToInt (int64FromInt value) = value ∧ (int64FromInt value).toInt = value) ∧
        Survives posix := by
  intro h
  have hseconds := (h 0 (by decide) (by decide) (-14182940000) (by decide) (by decide)).2.seconds
  rw [toInt_seconds] at hseconds
  exact absurd hseconds (by decide)

end Rellm.Client.Conversions

/-! ## Times -/

namespace Rellm.Client.LocalTime

open Conversions Foundation

inductive Month where
  | jan | feb | mar | apr | may | jun | jul | aug | sep | oct | nov | dec
  deriving DecidableEq, Repr

/-- An offset that applies after a minute. -/
structure Era where
  start : Int
  offset : Int
  deriving DecidableEq, Repr

/-- The offsets of a zone in minutes, the latest first, and the one before all of them. -/
structure Zone where
  defaultOffset : Int
  eras : List Era
  deriving DecidableEq, Repr

def utc : Zone := ⟨0, []⟩

/-- The offset at a minute. -/
def Zone.offsetAt (zone : Zone) (minute : Int) : Int :=
  ((zone.eras.find? fun era => era.start < minute).map (·.offset)).getD zone.defaultOffset

/-- The date of a minute. -/
def toCivil (minutes : Int) : Date :=
  let rawDay := minutes / 1440 + 719468
  let era := quotient (if 0 ≤ rawDay then rawDay else rawDay - 146096) 146097
  let dayOfEra := rawDay - era * 146097
  let yearOfEra := quotient (dayOfEra - quotient dayOfEra 1460 + quotient dayOfEra 36524 -
    quotient dayOfEra 146096) 365
  let dayOfYear := dayOfEra - (365 * yearOfEra + quotient yearOfEra 4 - quotient yearOfEra 100)
  let monthFromMarch := quotient (5 * dayOfYear + 2) 153
  let month := monthFromMarch + if monthFromMarch < 10 then 3 else -9
  ⟨yearOfEra + era * 400 + (if month ≤ 2 then 1 else 0), month,
    dayOfYear - quotient (153 * monthFromMarch + 2) 5 + 1⟩

section

variable (zone : Zone) (posix : Int)

/-- The minutes on the clock of a zone. -/
def toAdjustedMinutes : Int := posix / 60000 + zone.offsetAt (posix / 60000)

def toYear : Int := (toCivil (toAdjustedMinutes zone posix)).year

def toMonth : Month :=
  match (toCivil (toAdjustedMinutes zone posix)).month with
  | 1 => .jan
  | 2 => .feb
  | 3 => .mar
  | 4 => .apr
  | 5 => .may
  | 6 => .jun
  | 7 => .jul
  | 8 => .aug
  | 9 => .sep
  | 10 => .oct
  | 11 => .nov
  | _ => .dec

def toDay : Int := (toCivil (toAdjustedMinutes zone posix)).day

def toHour : Int := toAdjustedMinutes zone posix / 60 % 24

def toMinute : Int := toAdjustedMinutes zone posix % 60

end

def monthToNumber : Month → Int
  | .jan => 1
  | .feb => 2
  | .mar => 3
  | .apr => 4
  | .may => 5
  | .jun => 6
  | .jul => 7
  | .aug => 8
  | .sep => 9
  | .oct => 10
  | .nov => 11
  | .dec => 12

/-- The days from the beginning of 1970 to a date. -/
def daysFromCivil (year month day : Int) : Int :=
  let y := if month ≤ 2 then year - 1 else year
  let era := quotient (if 0 ≤ y then y else y - 399) 400
  let yoe := y - era * 400
  let doy := quotient (153 * (if 2 < month then month - 3 else month + 9) + 2) 5 + day - 1
  let doe := yoe * 365 + quotient yoe 4 - quotient yoe 100 + doy
  era * 146097 + doe - 719468

/-- The decimal digits of a number, after a minus where it is negative. -/
def fromInt : Int → List Char
  | .ofNat n => Nat.toDigits 10 n
  | .negSucc n => '-' :: Nat.toDigits 10 (n + 1)

def fromDigits (digits : List Char) : Option Int :=
  if digits.isEmpty || !digits.all Char.isDigit then none
  else some (Nat.ofDigitChars 10 digits 0)

/-- The number with some decimal digits, which a sign may come before. -/
def toInt : List Char → Option Int
  | '-' :: digits => (fromDigits digits).map fun n => -n
  | '+' :: digits => fromDigits digits
  | digits => fromDigits digits

def pad (width : Nat) (n : Int) : List Char := List.leftpad width '0' (fromInt n)

def parseDateParts (datePart : List Char) : Option (Int × Int × Int) :=
  match (datePart.splitOn '-').map toInt with
  | [some y, some m, some d] => some (y, m, d)
  | _ => none

def parseTimeParts (timePart : List Char) : Option (Int × Int × Int) :=
  match (timePart.splitOn ':').map toInt with
  | [some h, some mi] => some (h, mi, 0)
  | [some h, some mi, some s] => some (h, mi, s)
  | _ => none

section

variable (zone : Zone)

def formatDate (time : Int) : List Char :=
  fromInt (toYear zone time) ++ '-' :: pad 2 (monthToNumber (toMonth zone time)) ++
    '-' :: pad 2 (toDay zone time)

def formatDateTimeLocalInput (time : Int) : List Char :=
  formatDate zone time ++ 'T' :: pad 2 (toHour zone time) ++ ':' :: pad 2 (toMinute zone time)

/-- What the clock shows at a time, as if it showed universal time. -/
def localAsUtcMillis (posix : Int) : Int :=
  (daysFromCivil (toYear zone posix) (monthToNumber (toMonth zone posix)) (toDay zone posix) *
    86400 + toHour zone posix * 3600 + toMinute zone posix * 60) * 1000

def offsetMinutesAt (posix : Int) : Int := quotient (localAsUtcMillis zone posix - posix) 60000

/-- The time at which the clock shows a date and a time of day. -/
def posixFromDateTimeLocalInput (raw : List Char) : Option Int :=
  match raw.splitOn 'T' with
  | [datePart, timePart] =>
    match parseDateParts datePart, parseTimeParts timePart with
    | some (year, month, day), some (hour, minute, _) =>
      let guessMillis := (daysFromCivil year month day * 86400 + hour * 3600 + minute * 60) * 1000
      let candidate1 := guessMillis - offsetMinutesAt zone guessMillis * 60000
      let candidate2 := guessMillis - offsetMinutesAt zone candidate1 * 60000
      some candidate2
    | _, _ => none
  | _ => none

end

inductive RecurrenceUnit where
  | daily
  | weekly
  | monthly
  | monthlyNthWeekday
  deriving DecidableEq, Repr

def isLeapYear (year : Int) : Bool :=
  (year % 4 = 0 && year % 100 ≠ 0) || year % 400 = 0

def daysInMonth (year month : Int) : Int :=
  match month with
  | 1 => 31
  | 2 => if isLeapYear year then 29 else 28
  | 3 => 31
  | 4 => 30
  | 5 => 31
  | 6 => 30
  | 7 => 31
  | 8 => 31
  | 9 => 30
  | 10 => 31
  | 11 => 30
  | _ => 31

/-- The day of the month on the weekday of a date, and as manyeth as the date is in its month. -/
def nthWeekdayDay (year month day newYear newMonth : Int) : Int :=
  let weekdayOf := fun days : Int => (days + 4) % 7
  let firstOfMonthWeekday := weekdayOf (daysFromCivil newYear newMonth 1)
  let sourceWeekday := weekdayOf (daysFromCivil year month day)
  let candidate := 1 + (sourceWeekday - firstOfMonthWeekday) % 7 + quotient (day - 1) 7 * 7
  if daysInMonth newYear newMonth < candidate then candidate - 7 else candidate

section

variable (zone : Zone)

/-- What the clock shows after some days, weeks or months, as if it showed universal time. -/
def newNaiveMillis (unit : RecurrenceUnit) (n posix : Int) : Int :=
  let year := toYear zone posix
  let month := monthToNumber (toMonth zone posix)
  let day := toDay zone posix
  let hour := toHour zone posix
  let minute := toMinute zone posix
  let naiveMillisAt := fun y m d : Int =>
    (daysFromCivil y m d * 86400 + hour * 3600 + minute * 60) * 1000
  let totalMonths := year * 12 + (month - 1) + n
  let newYear := quotient totalMonths 12
  let newMonth := totalMonths % 12 + 1
  match unit with
  | .daily => naiveMillisAt year month day + n * 86400000
  | .weekly => naiveMillisAt year month day + n * 7 * 86400000
  | .monthly => naiveMillisAt newYear newMonth (min day (daysInMonth newYear newMonth))
  | .monthlyNthWeekday =>
    naiveMillisAt newYear newMonth (nthWeekdayDay year month day newYear newMonth)

/-- The same time of day after some days, weeks or months. -/
def addRecurrence (unit : RecurrenceUnit) (n posix : Int) : Int :=
  let naiveUtc := newNaiveMillis zone unit n posix
  let raw := pad 4 (toYear utc naiveUtc) ++ '-' :: pad 2 (monthToNumber (toMonth utc naiveUtc)) ++
    '-' :: pad 2 (toDay utc naiveUtc) ++ 'T' :: pad 2 (toHour utc naiveUtc) ++
    ':' :: pad 2 (toMinute utc naiveUtc)
  (posixFromDateTimeLocalInput zone raw).getD posix

end

end Rellm.Client.LocalTime
