import Rellm.Client.LocalTime
import Rellm.Foundation.Gregorian

/-!
# Recurring occasions

An occasion recurs at the same time of day in its zone, whatever the offset is by then. The time is
found for every reading of the clock that exists, as long as the offset changes rarely.
-/

namespace Rellm.Client.LocalTime

open Conversions Foundation

theorem quotient_of_nonneg {a b : Int} (h : 0 ≤ a) (hb : 0 < b) (hlt : a < 2147483648) :
    quotient a b = a / b := by
  have hdiv : a.tdiv b = a / b := Int.tdiv_eq_ediv_of_nonneg h
  have hnonneg := Int.ediv_nonneg h hb.le
  have hle := Int.ediv_le_self b h
  rw [quotient_eq (by omega) (by omega), hdiv]

/-- A dividend that is moved down before a division that rounds to zero is divided rounding down. -/
theorem quotient_floor {a b c : Int} (hc : 0 ≤ c) (hb : b = c + 1) (h : -2147483648 ≤ a / b)
    (h' : a / b < 2147483648) : quotient (if 0 ≤ a then a else a - c) b = a / b := by
  have hdiv : (if 0 ≤ a then a else a - c).tdiv b = a / b := by
    split
    · exact Int.tdiv_eq_ediv_of_nonneg ‹_›
    · have hneg : a - c = -(c - a) := by omega
      have hdecompose := Int.mul_ediv_add_emod a b
      have hnonneg := Int.emod_nonneg a (show b ≠ 0 by omega)
      have hlt := Int.emod_lt_of_pos a (show 0 < b by omega)
      have hrest : c - a = (c - a % b) + b * -(a / b) := by
        rw [Int.mul_neg]
        omega
      rw [hneg, Int.neg_tdiv, Int.tdiv_eq_ediv_of_nonneg (by omega), hrest,
        Int.add_mul_ediv_left _ _ (by omega), Int.ediv_eq_zero_of_lt (by omega) (by omega)]
      omega
  rw [quotient_eq (by omega) (by omega), hdiv]

/-- The minutes of the years that are looked at. -/
def Civil (minutes : Int) : Prop := -1000000 ≤ minutes / 1440 ∧ minutes / 1440 ≤ 3000000

theorem toCivil_eq {minutes : Int} (h : Civil minutes) :
    toCivil minutes = ofDayNumber (minutes / 1440) := by
  obtain ⟨hnonneg, hle⟩ := h
  unfold toCivil ofDayNumber
  dsimp only
  generalize hraw : minutes / 1440 + 719468 = rawDay at *
  have hera : quotient (if 0 ≤ rawDay then rawDay else rawDay - 146096) 146097 =
      rawDay / 146097 := quotient_floor (by decide) rfl (by omega) (by omega)
  rw [hera]
  generalize hday : rawDay - rawDay / 146097 * 146097 = dayOfEra
  have hdayOfEra : 0 ≤ dayOfEra ∧ dayOfEra < 146097 := by omega
  obtain ⟨hyear, hyear', hstart, hend⟩ := yearStart_of_commonDays hdayOfEra.1 hdayOfEra.2
  have hcommon : quotient (dayOfEra - quotient dayOfEra 1460 + quotient dayOfEra 36524 -
      quotient dayOfEra 146096) 365 = commonDays dayOfEra / 365 := by
    rw [commonDays] at *
    simp (disch := omega) only [quotient_of_nonneg]
  rw [hcommon]
  generalize commonDays dayOfEra / 365 = yearOfEra at *
  have hyearStart : yearStart yearOfEra =
      365 * yearOfEra + quotient yearOfEra 4 - quotient yearOfEra 100 := by
    simp (disch := omega) only [quotient_of_nonneg]
    unfold yearStart
    omega
  rw [← hyearStart]
  have hlow : 0 ≤ yearStart yearOfEra := by
    unfold yearStart
    omega
  generalize hdoy : dayOfEra - yearStart yearOfEra = dayOfYear
  have hmonth : quotient (5 * dayOfYear + 2) 153 = (5 * dayOfYear + 2) / 153 :=
    quotient_of_nonneg (by omega) (by decide) (by omega)
  rw [hmonth]
  have hday' : quotient (153 * ((5 * dayOfYear + 2) / 153) + 2) 5 =
      monthStart ((5 * dayOfYear + 2) / 153) :=
    quotient_of_nonneg (by omega) (by decide) (by omega)
  rw [hday']

theorem daysFromCivil_eq {date : Date} (h : date.Valid) (hyear : -40000 ≤ date.year)
    (hyear' : date.year ≤ 40000) :
    daysFromCivil date.year date.month date.day = dayNumber date := by
  obtain ⟨hpos, hle, _, _⟩ := h
  have hmarch : (if date.month ≤ 2 then date.year - 1 else date.year) = date.marchYear := rfl
  have hmonth : (if 2 < date.month then date.month - 3 else date.month + 9) = date.marchMonth := rfl
  have hbounds : -40001 ≤ date.marchYear ∧ date.marchYear ≤ 40000 := by
    unfold Date.marchYear
    split <;> omega
  have hbounds' : 0 ≤ date.marchMonth ∧ date.marchMonth ≤ 11 := by
    unfold Date.marchMonth
    split <;> omega
  unfold daysFromCivil dayNumber
  dsimp only
  rw [hmarch, hmonth]
  generalize date.marchYear = year at *
  generalize date.marchMonth = month at *
  have hera : quotient (if 0 ≤ year then year else year - 399) 400 = year / 400 :=
    quotient_floor (by decide) rfl (by omega) (by omega)
  rw [hera]
  simp (disch := omega) only [quotient_of_nonneg]
  unfold yearStart monthStart
  omega

theorem daysFromCivil_ofMonth {index day : Int} (h : (Date.ofMonth index day).Valid)
    (hyear : 0 ≤ index / 12) (hyear' : index / 12 ≤ 9999) :
    daysFromCivil (index / 12) (index % 12 + 1) day = dayNumber (.ofMonth index day) := by
  have hyears : -40000 ≤ (Date.ofMonth index day).year ∧
      (Date.ofMonth index day).year ≤ 40000 := by
    unfold Date.ofMonth
    dsimp only
    omega
  have heq := daysFromCivil_eq h hyears.1 hyears.2
  exact heq

theorem month_cases {month : Int} (hpos : 1 ≤ month) (hle : month ≤ 12) :
    month = 1 ∨ month = 2 ∨ month = 3 ∨ month = 4 ∨ month = 5 ∨ month = 6 ∨ month = 7 ∨ month = 8 ∨
      month = 9 ∨ month = 10 ∨ month = 11 ∨ month = 12 := by
  omega

theorem monthToNumber_toMonth {zone : Zone} {posix : Int}
    (hpos : 1 ≤ (toCivil (toAdjustedMinutes zone posix)).month)
    (hle : (toCivil (toAdjustedMinutes zone posix)).month ≤ 12) :
    monthToNumber (toMonth zone posix) = (toCivil (toAdjustedMinutes zone posix)).month := by
  unfold toMonth
  generalize (toCivil (toAdjustedMinutes zone posix)).month = month at *
  rcases month_cases hpos hle with
    rfl | rfl | rfl | rfl | rfl | rfl | rfl | rfl | rfl | rfl | rfl | rfl
  all_goals rfl

theorem daysInMonth_eq {month : Int} (hpos : 1 ≤ month) (hle : month ≤ 12) (year : Int) :
    daysInMonth year month = Foundation.daysInMonth year month := by
  have hleap : isLeapYear year = Foundation.isLeapYear year := by
    simp [isLeapYear, Foundation.isLeapYear]
  unfold daysInMonth Foundation.daysInMonth
  rw [hleap]
  rcases month_cases hpos hle with
    rfl | rfl | rfl | rfl | rfl | rfl | rfl | rfl | rfl | rfl | rfl | rfl
  all_goals rfl

/-- The date that the clock of a zone shows. -/
def localDate (zone : Zone) (posix : Int) : Date :=
  ofDayNumber (toAdjustedMinutes zone posix / 1440)

/-- The minutes of the day that the clock of a zone shows. -/
def timeOfDay (zone : Zone) (posix : Int) : Int := toAdjustedMinutes zone posix % 1440

section

variable {zone : Zone} {posix : Int}

theorem localDate_spec (zone : Zone) (posix : Int) : (localDate zone posix).Valid ∧
    dayNumber (localDate zone posix) = toAdjustedMinutes zone posix / 1440 :=
  ofDayNumber_spec _

/-- What is read off a clock is a date. -/
theorem toCivil_localDate (h : Civil (toAdjustedMinutes zone posix)) :
    toYear zone posix = (localDate zone posix).year ∧
      monthToNumber (toMonth zone posix) = (localDate zone posix).month ∧
      toDay zone posix = (localDate zone posix).day := by
  have hvalid := (localDate_spec zone posix).1
  have hcivil := toCivil_eq h
  refine ⟨?_, ?_, ?_⟩
  · rw [toYear, hcivil, localDate]
  · rw [localDate, ← hcivil] at hvalid
    rw [monthToNumber_toMonth hvalid.month_pos hvalid.month_le, hcivil, localDate]
  · rw [toDay, hcivil, localDate]

theorem dayNumber_bounds {date : Date} (h : date.Valid) (hyear : 1 ≤ date.year)
    (hyear' : date.year ≤ 9999) : -720000 ≤ dayNumber date ∧ dayNumber date ≤ 2940000 := by
  have hbounds := dayOfYear_bounds h
  have hleap := leapDays_le date.marchYear
  have hmarch : date.year - 1 ≤ date.marchYear ∧ date.marchYear ≤ date.year := by
    unfold Date.marchYear
    split <;> omega
  rw [dayNumber_eq]
  unfold yearStart
  omega

theorem year_bounds {date : Date} (h : date.Valid) (hnumber : -1000000 ≤ dayNumber date)
    (hnumber' : dayNumber date ≤ 3000000) : -40000 ≤ date.year ∧ date.year ≤ 40000 := by
  have hbounds := dayOfYear_bounds h
  have hleap := leapDays_le date.marchYear
  have hmarch : date.year - 1 ≤ date.marchYear ∧ date.marchYear ≤ date.year := by
    unfold Date.marchYear
    split <;> omega
  rw [dayNumber_eq] at hnumber hnumber'
  unfold yearStart at hnumber hnumber'
  omega

/-- What the clock shows counts the minutes on it. -/
theorem localAsUtcMillis_eq (h : Civil (toAdjustedMinutes zone posix)) :
    localAsUtcMillis zone posix = toAdjustedMinutes zone posix * 60000 := by
  obtain ⟨hyear, hmonth, hday⟩ := toCivil_localDate h
  obtain ⟨hvalid, hnumber⟩ := localDate_spec zone posix
  rw [Civil, ← hnumber] at h
  have hyears := year_bounds hvalid h.1 h.2
  rw [localAsUtcMillis, hyear, hmonth, hday, daysFromCivil_eq hvalid hyears.1 hyears.2, hnumber]
  unfold toHour toMinute
  omega

/-- The offset at a full minute. -/
theorem offsetMinutesAt_eq {minute : Int} (h : Civil (minute + zone.offsetAt minute))
    (hlow : -840 ≤ zone.offsetAt minute) (hhigh : zone.offsetAt minute ≤ 840) :
    offsetMinutesAt zone (minute * 60000) = zone.offsetAt minute := by
  have hminutes : toAdjustedMinutes zone (minute * 60000) = minute + zone.offsetAt minute := by
    rw [toAdjustedMinutes, Int.mul_ediv_cancel _ (by decide)]
  have hoffset : (minute + zone.offsetAt minute) * 60000 - minute * 60000 =
      zone.offsetAt minute * 60000 := by
    omega
  have hdiv : (zone.offsetAt minute * 60000).tdiv 60000 = zone.offsetAt minute :=
    Int.mul_tdiv_cancel _ (by decide)
  rw [offsetMinutesAt, localAsUtcMillis_eq (by rwa [hminutes]), hminutes, hoffset,
    quotient_eq (by omega) (by omega), hdiv]

theorem toInt_of_isDigit {digits : List Char} (hne : digits ≠ [])
    (hdigits : ∀ c ∈ digits, c.isDigit = true) :
    toInt digits = some (Nat.ofDigitChars 10 digits 0 : Int) := by
  have hfrom : fromDigits digits = some (Nat.ofDigitChars 10 digits 0 : Int) := by
    have hall : digits.all Char.isDigit = true := List.all_eq_true.mpr hdigits
    have hempty : digits.isEmpty = false := List.isEmpty_eq_false_iff.mpr hne
    simp [fromDigits, hall, hempty]
  unfold toInt
  split
  · exact absurd (hdigits '-' List.mem_cons_self) (by decide)
  · exact absurd (hdigits '+' List.mem_cons_self) (by decide)
  · exact hfrom

theorem isDigit_of_mem_pad {width : Nat} {n : Int} (h : 0 ≤ n) {c : Char} (hc : c ∈ pad width n) :
    c.isDigit = true := by
  obtain ⟨n, rfl⟩ := Int.eq_ofNat_of_zero_le h
  rw [pad, List.leftpad, List.mem_append] at hc
  rcases hc with hc | hc
  · rw [List.eq_of_mem_replicate hc]
    decide
  · exact Nat.isDigit_of_mem_toDigits (by decide) (by decide) hc

/-- A number is read as it was written. -/
theorem toInt_pad (width : Nat) {n : Int} (h : 0 ≤ n) : toInt (pad width n) = some n := by
  have hne : pad width n ≠ [] := by
    obtain ⟨n, rfl⟩ := Int.eq_ofNat_of_zero_le h
    simp [pad, List.leftpad, fromInt, Nat.toDigits_ne_nil]
  rw [toInt_of_isDigit hne fun c hc => isDigit_of_mem_pad h hc]
  obtain ⟨n, rfl⟩ := Int.eq_ofNat_of_zero_le h
  rw [pad, List.leftpad, Nat.ofDigitChars_append, Nat.ofDigitChars_replicate_zero, Nat.mul_zero]
  exact congrArg (fun n : Nat => some (n : Int)) Nat.ofDigitChars_ten_toDigits

theorem notMem_pad {width : Nat} {n : Int} (h : 0 ≤ n) {c : Char} (hc : c.isDigit = false) :
    c ∉ pad width n := by
  intro hmem
  rw [isDigit_of_mem_pad h hmem] at hc
  cases hc

/-- A date and a time of day as they are entered. -/
def stamp (width : Nat) (date : Date) (minutes : Int) : List Char :=
  pad width date.year ++ '-' :: pad 2 date.month ++ '-' :: pad 2 date.day ++
    'T' :: pad 2 (minutes / 60) ++ ':' :: pad 2 (minutes % 60)

theorem parseDateParts_pad (width : Nat) {year month day : Int} (hyear : 0 ≤ year)
    (hmonth : 0 ≤ month) (hday : 0 ≤ day) :
    parseDateParts (pad width year ++ '-' :: (pad 2 month ++ '-' :: pad 2 day)) =
      some (year, month, day) := by
  have hdash : ('-').isDigit = false := by decide
  rw [parseDateParts, List.splitOn_append_cons_self_of_not_mem (notMem_pad hyear hdash),
    List.splitOn_append_cons_self_of_not_mem (notMem_pad hmonth hdash),
    List.splitOn_eq_singleton (notMem_pad hday hdash)]
  simp only [List.map_cons, List.map_nil, toInt_pad _ hyear, toInt_pad _ hmonth, toInt_pad _ hday]

theorem parseTimeParts_pad {hour minute : Int} (hhour : 0 ≤ hour) (hminute : 0 ≤ minute) :
    parseTimeParts (pad 2 hour ++ ':' :: pad 2 minute) = some (hour, minute, 0) := by
  have hcolon : (':').isDigit = false := by decide
  rw [parseTimeParts, List.splitOn_append_cons_self_of_not_mem (notMem_pad hhour hcolon),
    List.splitOn_eq_singleton (notMem_pad hminute hcolon)]
  simp only [List.map_cons, List.map_nil, toInt_pad _ hhour, toInt_pad _ hminute]

/-- Offsets of at most fourteen hours, which change at most once in four days. -/
def Zone.Regular (zone : Zone) : Prop := RarelyChanging zone.offsetAt 840 5760

/-- What is entered is corrected by the offset twice. -/
theorem posixFromDateTimeLocalInput_stamp (hzone : zone.Regular) (width : Nat) {date : Date}
    {minutes : Int} (h : date.Valid) (hyear : 1 ≤ date.year) (hyear' : date.year ≤ 9999)
    (hnonneg : 0 ≤ minutes) (hlt : minutes < 1440) :
    posixFromDateTimeLocalInput zone (stamp width date minutes) =
      some (corrected zone.offsetAt (dayNumber date * 1440 + minutes) * 60000) := by
  have hnumber := dayNumber_bounds h hyear hyear'
  have hguess : (daysFromCivil date.year date.month date.day * 86400 + minutes / 60 * 3600 +
      minutes % 60 * 60) * 1000 = (dayNumber date * 1440 + minutes) * 60000 := by
    rw [daysFromCivil_eq h (by omega) (by omega)]
    omega
  have hoffset : ∀ minute, dayNumber date * 1440 - 2000 ≤ minute →
      minute ≤ dayNumber date * 1440 + 4000 →
      offsetMinutesAt zone (minute * 60000) = zone.offsetAt minute := by
    intro minute hlow hhigh
    have hlower := hzone.lower minute
    have hupper := hzone.upper minute
    refine offsetMinutesAt_eq ?_ hlower hupper
    unfold Civil
    omega
  have hlower := hzone.lower (dayNumber date * 1440 + minutes)
  have hupper := hzone.upper (dayNumber date * 1440 + minutes)
  obtain ⟨hmonth, _, hday, _⟩ := h
  have hdate := parseDateParts_pad width (show 0 ≤ date.year by omega)
    (show 0 ≤ date.month by omega) (show 0 ≤ date.day by omega)
  have htime := parseTimeParts_pad (show 0 ≤ minutes / 60 by omega)
    (show 0 ≤ minutes % 60 by omega)
  have hsplit : (stamp width date minutes).splitOn 'T' =
      [pad width date.year ++ '-' :: (pad 2 date.month ++ '-' :: pad 2 date.day),
        pad 2 (minutes / 60) ++ ':' :: pad 2 (minutes % 60)] := by
    have hT : ∀ {width : Nat} {n : Int}, 0 ≤ n → 'T' ∉ pad width n :=
      fun h => notMem_pad h (by decide)
    have hstamp : stamp width date minutes =
        (pad width date.year ++ '-' :: (pad 2 date.month ++ '-' :: pad 2 date.day)) ++
          'T' :: (pad 2 (minutes / 60) ++ ':' :: pad 2 (minutes % 60)) := by
      simp [stamp]
    rw [hstamp, List.splitOn_append_cons_self_of_not_mem, List.splitOn_eq_singleton]
    · simp [hT (show 0 ≤ minutes / 60 by omega), hT (show 0 ≤ minutes % 60 by omega)]
    · simp [hT (show 0 ≤ date.year by omega), hT (show 0 ≤ date.month by omega),
        hT (show 0 ≤ date.day by omega)]
  rw [posixFromDateTimeLocalInput, hsplit]
  dsimp only
  rw [hdate, htime]
  dsimp only
  rw [hguess, hoffset _ (by omega) (by omega), ← Int.sub_mul, ← Int.sub_mul,
    hoffset _ (by omega) (by omega), corrected]

/-- What is written is what the clock shows. -/
theorem stamp_localDate (width : Nat) (h : Civil (toAdjustedMinutes zone posix)) :
    pad width (toYear zone posix) ++ '-' :: pad 2 (monthToNumber (toMonth zone posix)) ++
      '-' :: pad 2 (toDay zone posix) ++ 'T' :: pad 2 (toHour zone posix) ++
      ':' :: pad 2 (toMinute zone posix) =
      stamp width (localDate zone posix) (timeOfDay zone posix) := by
  obtain ⟨hyear, hmonth, hday⟩ := toCivil_localDate h
  have hhour : toHour zone posix = timeOfDay zone posix / 60 := by
    unfold toHour timeOfDay
    omega
  have hminute : toMinute zone posix = timeOfDay zone posix % 60 := by
    unfold toMinute timeOfDay
    omega
  rw [hyear, hmonth, hday, hhour, hminute, stamp]

theorem formatDateTimeLocalInput_eq (h : Civil (toAdjustedMinutes zone posix)) :
    formatDateTimeLocalInput zone posix =
      stamp 0 (localDate zone posix) (timeOfDay zone posix) := by
  rw [← stamp_localDate 0 h, formatDateTimeLocalInput, formatDate]
  simp [pad, List.leftpad]

theorem civil_of_year (hyear : 1 ≤ (localDate zone posix).year)
    (hyear' : (localDate zone posix).year ≤ 9999) : Civil (toAdjustedMinutes zone posix) := by
  obtain ⟨hvalid, hnumber⟩ := localDate_spec zone posix
  have hbounds := dayNumber_bounds hvalid hyear hyear'
  rw [hnumber] at hbounds
  unfold Civil
  omega

/-- A minute is shown on the clock by a date and a time of day. -/
theorem toAdjustedMinutes_eq (zone : Zone) (posix : Int) :
    toAdjustedMinutes zone posix =
      dayNumber (localDate zone posix) * 1440 + timeOfDay zone posix := by
  rw [(localDate_spec zone posix).2]
  unfold timeOfDay
  omega

theorem localDate_of_minutes {date : Date} {minutes : Int} (h : date.Valid) (hnonneg : 0 ≤ minutes)
    (hlt : minutes < 1440)
    (heq : toAdjustedMinutes zone posix = dayNumber date * 1440 + minutes) :
    localDate zone posix = date ∧ timeOfDay zone posix = minutes := by
  have hday : toAdjustedMinutes zone posix / 1440 = dayNumber date := by omega
  refine ⟨?_, ?_⟩
  · rw [localDate, hday, ofDayNumber_dayNumber h]
  · unfold timeOfDay
    omega

/-- As manyeth on its day of the week as a date, or the last one where the month has fewer. -/
structure NthWeekday (date : Date) (n : Nat) (wanted : Date) : Prop where
  valid : wanted.Valid
  month : wanted.monthIndex = date.monthIndex + n
  weekday : wanted.weekday = date.weekday
  ordinal : wanted.ordinal = date.ordinal ∨ ∀ other : Date, other.Valid →
    other.monthIndex = wanted.monthIndex → other.weekday = date.weekday →
      other.ordinal ≠ date.ordinal ∧ other.day ≤ wanted.day

/-- The date on which an occasion recurs. -/
def RecurrenceUnit.Wanted (unit : RecurrenceUnit) (n : Nat) (date wanted : Date) : Prop :=
  match unit with
  | .daily => wanted = Date.next^[n] date
  | .weekly => wanted = Date.next^[7 * n] date
  | .monthly => wanted = date.addMonths n
  | .monthlyNthWeekday => NthWeekday date n wanted

theorem NthWeekday.unique {date wanted wanted' : Date} {n : Nat} (h : NthWeekday date n wanted)
    (h' : NthWeekday date n wanted') : wanted = wanted' := by
  have hmonth : wanted.monthIndex = wanted'.monthIndex := h.month.trans h'.month.symm
  have hordinal := ordinal_eq h.valid
  have hordinal' := ordinal_eq h'.valid
  have hweekday := h.weekday.trans h'.weekday.symm
  refine date_eq_of_day h.valid h'.valid hmonth ?_
  rw [weekday_eq h.valid, weekday_eq h'.valid, hmonth] at hweekday
  rcases h.ordinal with hsame | hlast
  · rcases h'.ordinal with hsame' | hlast'
    · omega
    · exact absurd hsame (hlast' wanted h.valid hmonth h.weekday).1
  · rcases h'.ordinal with hsame' | hlast'
    · exact absurd hsame' (hlast wanted' h'.valid hmonth.symm h'.weekday).1
    · exact le_antisymm (hlast' wanted h.valid hmonth h.weekday).2
        (hlast wanted' h'.valid hmonth.symm h'.weekday).2

/-- What the day of the month is computed from: the count of the first of the month, the length of
the month, and the count and the week of the source. -/
theorem nthWeekdayDay_arithmetic {first length source week day : Int} (hlength : 28 ≤ length)
    (hweek : 0 ≤ week) (hweek' : week ≤ 4)
    (h : (if length < 1 + ((source + 4) % 7 - (first + 4) % 7) % 7 + week * 7 then
        1 + ((source + 4) % 7 - (first + 4) % 7) % 7 + week * 7 - 7
      else 1 + ((source + 4) % 7 - (first + 4) % 7) % 7 + week * 7) = day) :
    1 ≤ day ∧ day ≤ length ∧ (first + (day - 1) + 4) % 7 = (source + 4) % 7 ∧
      ((day - 1) / 7 = week ∨ length < day + 7 ∧ (day - 1) / 7 = week - 1) := by
  generalize hshift : ((source + 4) % 7 - (first + 4) % 7) % 7 = shift at h
  have hbounds : 0 ≤ shift ∧ shift < 7 := by omega
  split at h
  · refine ⟨by omega, by omega, by omega, .inr (by omega)⟩
  · refine ⟨by omega, by omega, by omega, .inl (by omega)⟩

theorem nthWeekday_of_day {date : Date} (h : date.Valid) {n : Nat} {day : Int} (hlow : 1 ≤ day)
    (hhigh : day ≤ monthLength (date.monthIndex + n))
    (hweekday : (dayNumber (.ofMonth (date.monthIndex + n) 1) + (day - 1) + 4) % 7 =
      (dayNumber date + 4) % 7)
    (hweek : (day - 1) / 7 = (date.day - 1) / 7 ∨
      monthLength (date.monthIndex + n) < day + 7 ∧ (day - 1) / 7 = (date.day - 1) / 7 - 1) :
    NthWeekday date n (.ofMonth (date.monthIndex + n) day) := by
  have hvalid : (Date.ofMonth (date.monthIndex + n) day).Valid := ofMonth_valid hlow hhigh
  have hordinal := ordinal_eq h
  have hordinal' := ordinal_eq hvalid
  rw [day_ofMonth] at hordinal'
  constructor
  case valid => exact hvalid
  case month => rw [monthIndex_ofMonth]
  case weekday => rw [weekday_ofMonth, hweekday, Date.weekday]
  case ordinal =>
    rcases hweek with hsame | ⟨hlast, hbefore⟩
    · left
      omega
    · right
      intro other hother hmonth hsame
      rw [monthIndex_ofMonth] at hmonth
      have hother' := ordinal_eq hother
      have hle' := day_le_monthLength hother
      rw [weekday_eq hother, hmonth, Date.weekday, ← hweekday] at hsame
      rw [hmonth] at hle'
      rw [day_ofMonth]
      constructor <;> omega

theorem week_bounds {date : Date} (h : date.Valid) :
    0 ≤ (date.day - 1) / 7 ∧ (date.day - 1) / 7 ≤ 4 := by
  have hpos := h.day_pos
  have hle := h.day_le
  have hthirtyone := daysInMonth_le date.year date.month
  omega

/-- The computed day of the month is on the same day of the week, and as manyeth or the last. -/
theorem nthWeekday_nthWeekdayDay {date : Date} (h : date.Valid) (hyear : 1 ≤ date.year)
    (hyear' : date.year ≤ 9999) {n : Nat} (hindex : 0 ≤ date.monthIndex + n)
    (hnew : (date.monthIndex + n) / 12 ≤ 9999) :
    NthWeekday date n (.ofMonth (date.monthIndex + n) (nthWeekdayDay date.year date.month date.day
      ((date.monthIndex + n) / 12) ((date.monthIndex + n) % 12 + 1))) := by
  have hlength := monthLength_ge (date.monthIndex + n)
  have hfirstValid : (Date.ofMonth (date.monthIndex + n) 1).Valid :=
    ofMonth_valid (by decide) (by omega)
  have hfirst := daysFromCivil_ofMonth hfirstValid (by omega) hnew
  have hsource : daysFromCivil date.year date.month date.day = dayNumber date :=
    daysFromCivil_eq h (by omega) (by omega)
  obtain ⟨hweek, hweek'⟩ := week_bounds h
  have hquotient : quotient (date.day - 1) 7 = (date.day - 1) / 7 :=
    quotient_of_nonneg (by omega) (by decide) (by omega)
  have hdays : daysInMonth ((date.monthIndex + n) / 12) ((date.monthIndex + n) % 12 + 1) =
      monthLength (date.monthIndex + n) := daysInMonth_eq (by omega) (by omega) _
  rw [nthWeekdayDay]
  dsimp only
  rw [hfirst, hsource, hquotient, hdays]
  obtain ⟨hlow, hhigh, hweekday, hweeks⟩ := nthWeekdayDay_arithmetic hlength hweek hweek' rfl
  exact nthWeekday_of_day h hlow hhigh hweekday hweeks

theorem RecurrenceUnit.exists_wanted (unit : RecurrenceUnit) (n : Nat) {date : Date}
    (h : date.Valid) : ∃ wanted, unit.Wanted n date wanted := by
  cases unit with
  | daily => exact ⟨_, rfl⟩
  | weekly => exact ⟨_, rfl⟩
  | monthly => exact ⟨_, rfl⟩
  | monthlyNthWeekday =>
    obtain ⟨hweek, hweek'⟩ := week_bounds h
    obtain ⟨hlow, hhigh, hweekday, hweeks⟩ :=
      @nthWeekdayDay_arithmetic (dayNumber (.ofMonth (date.monthIndex + n) 1)) _ (dayNumber date)
        _ _ (monthLength_ge (date.monthIndex + n)) hweek hweek' rfl
    exact ⟨_, nthWeekday_of_day h hlow hhigh hweekday hweeks⟩

theorem year_le_iterate_next (n : Nat) (date : Date) : date.year ≤ (Date.next^[n] date).year := by
  induction n with
  | zero => rfl
  | succ n ih =>
    rw [Function.iterate_succ_apply']
    refine ih.trans ?_
    unfold Date.next
    split_ifs
    all_goals
      dsimp only
      omega

theorem year_le_of_monthIndex {date date' : Date} (h : date.Valid) (h' : date'.Valid) {n : Nat}
    (hmonth : date'.monthIndex = date.monthIndex + n) : date.year ≤ date'.year := by
  obtain ⟨hpos, hle, _, _⟩ := h
  obtain ⟨hpos', hle', _, _⟩ := h'
  unfold Date.monthIndex at hmonth
  omega

/-- An occasion does not recur in an earlier year. -/
theorem RecurrenceUnit.Wanted.year_le {unit : RecurrenceUnit} {n : Nat} {date wanted : Date}
    (h : unit.Wanted n date wanted) (hvalid : date.Valid) : date.year ≤ wanted.year := by
  cases unit with
  | daily =>
    obtain rfl := h
    exact year_le_iterate_next n date
  | weekly =>
    obtain rfl := h
    exact year_le_iterate_next _ date
  | monthly =>
    obtain rfl := h
    exact year_le_of_monthIndex hvalid (addMonths_valid hvalid n) (monthIndex_addMonths _)
  | monthlyNthWeekday => exact year_le_of_monthIndex hvalid h.valid h.month

/-- A date on which an occasion recurs, and what the clock would show there. -/
theorem newNaiveMillis_eq (unit : RecurrenceUnit) {n : Nat} {wanted : Date}
    (hyear : 1 ≤ (localDate zone posix).year) (hyear' : (localDate zone posix).year ≤ 9999)
    (h : unit.Wanted n (localDate zone posix) wanted) (hwanted : wanted.year ≤ 9999) :
    wanted.Valid ∧ newNaiveMillis zone unit n posix =
      (dayNumber wanted * 1440 + timeOfDay zone posix) * 60000 := by
  obtain ⟨hyearEq, hmonthEq, hdayEq⟩ := toCivil_localDate (civil_of_year hyear hyear')
  have hvalid := (localDate_spec zone posix).1
  have hclock : toHour zone posix * 3600 + toMinute zone posix * 60 =
      timeOfDay zone posix * 60 := by
    unfold toHour toMinute timeOfDay
    omega
  unfold newNaiveMillis
  dsimp only
  rw [hyearEq, hmonthEq, hdayEq]
  have hsource := daysFromCivil_eq hvalid (show -40000 ≤ (localDate zone posix).year by omega)
    (show (localDate zone posix).year ≤ 40000 by omega)
  generalize localDate zone posix = date at *
  have htotal : date.year * 12 + (date.month - 1) + n = date.monthIndex + n := rfl
  rw [htotal]
  have hindex : 12 ≤ date.monthIndex + n := by
    have hpos := hvalid.month_pos
    unfold Date.monthIndex
    omega
  cases unit with
  | daily =>
    obtain rfl := h
    obtain ⟨hnext, hnumber⟩ := dayNumber_iterate_next hvalid n
    refine ⟨hnext, ?_⟩
    dsimp only
    rw [hsource, hnumber]
    omega
  | weekly =>
    obtain rfl := h
    obtain ⟨hnext, hnumber⟩ := dayNumber_iterate_next hvalid (7 * n)
    refine ⟨hnext, ?_⟩
    dsimp only
    rw [hsource, hnumber]
    push_cast
    omega
  | monthly =>
    obtain rfl := h
    have hnew : (date.monthIndex + n) / 12 ≤ 9999 := hwanted
    have hadded := addMonths_valid hvalid n
    have hnumber := daysFromCivil_ofMonth hadded (by omega) hnew
    have hdays := daysInMonth_eq (show 1 ≤ (date.monthIndex + n) % 12 + 1 by omega)
      (by omega) ((date.monthIndex + n) / 12)
    refine ⟨hadded, ?_⟩
    dsimp only
    rw [quotient_of_nonneg (by omega) (by decide) (by omega), hdays, ← monthLength, hnumber,
      ← Date.addMonths]
    omega
  | monthlyNthWeekday =>
    have hyears : wanted.year = (date.monthIndex + n) / 12 := by
      have hmonth := h.month
      have hpos := h.valid.month_pos
      have hle := h.valid.month_le
      unfold Date.monthIndex at hmonth ⊢
      omega
    rw [hyears] at hwanted
    have hcomputed := nthWeekday_nthWeekdayDay hvalid hyear hyear' (by omega) hwanted
    obtain rfl := NthWeekday.unique h hcomputed
    have hnumber := daysFromCivil_ofMonth hcomputed.valid (by omega) hwanted
    refine ⟨hcomputed.valid, ?_⟩
    dsimp only
    rw [quotient_of_nonneg (by omega) (by decide) (by omega), hnumber]
    omega

/-- An occasion recurs at the minute that its date and time of day are corrected to. -/
theorem addRecurrence_eq (hzone : zone.Regular) (unit : RecurrenceUnit) {n : Nat} {wanted : Date}
    (hyear : 1 ≤ (localDate zone posix).year) (hyear' : (localDate zone posix).year ≤ 9999)
    (h : unit.Wanted n (localDate zone posix) wanted) (hwanted : wanted.year ≤ 9999) :
    wanted.Valid ∧ addRecurrence zone unit n posix =
      corrected zone.offsetAt (dayNumber wanted * 1440 + timeOfDay zone posix) * 60000 := by
  obtain ⟨hvalid, hnaive⟩ := newNaiveMillis_eq unit hyear hyear' h hwanted
  have hpos := hyear.trans (h.year_le (localDate_spec zone posix).1)
  have hbounds := dayNumber_bounds hvalid hpos hwanted
  have htime : 0 ≤ timeOfDay zone posix ∧ timeOfDay zone posix < 1440 := by
    unfold timeOfDay
    omega
  have hutc : toAdjustedMinutes utc ((dayNumber wanted * 1440 + timeOfDay zone posix) * 60000) =
      dayNumber wanted * 1440 + timeOfDay zone posix := by
    rw [toAdjustedMinutes, Int.mul_ediv_cancel _ (by decide)]
    exact Int.add_zero _
  have hcivil : Civil (toAdjustedMinutes utc
      ((dayNumber wanted * 1440 + timeOfDay zone posix) * 60000)) := by
    rw [hutc]
    unfold Civil
    omega
  obtain ⟨hdate, hminutes⟩ := localDate_of_minutes hvalid htime.1 htime.2 hutc
  refine ⟨hvalid, ?_⟩
  rw [addRecurrence, hnaive, stamp_localDate 4 hcivil, hdate, hminutes,
    posixFromDateTimeLocalInput_stamp hzone 4 hvalid hpos hwanted htime.1 htime.2]
  rfl

end

/-- In every zone whose offset changes rarely, an occasion recurs on the wanted date at the same
time of day if the clock shows them at all; and a time that is written is read back, to the minute,
if the clock shows that minute only once. -/
theorem recurs_at_local_time (zone : Zone) (hzone : zone.Regular) :
    (∀ (unit : RecurrenceUnit) (n : Nat) (posix : Int), 1 ≤ (localDate zone posix).year →
      (localDate zone posix).year ≤ 9999 →
        (∃ wanted, unit.Wanted n (localDate zone posix) wanted) ∧
        ∀ wanted, unit.Wanted n (localDate zone posix) wanted → wanted.year ≤ 9999 →
          (∃ minute, minute + zone.offsetAt minute =
            dayNumber wanted * 1440 + timeOfDay zone posix) →
          localDate zone (addRecurrence zone unit n posix) = wanted ∧
            timeOfDay zone (addRecurrence zone unit n posix) = timeOfDay zone posix) ∧
      ∀ time : Int, 1 ≤ (localDate zone time).year → (localDate zone time).year ≤ 9999 →
        (∀ minute, minute + zone.offsetAt minute = toAdjustedMinutes zone time →
          minute = time / 60000) →
        posixFromDateTimeLocalInput zone (formatDateTimeLocalInput zone time) =
          some (time / 60000 * 60000) := by
  have htime : ∀ posix, 0 ≤ timeOfDay zone posix ∧ timeOfDay zone posix < 1440 := by
    intro posix
    unfold timeOfDay
    omega
  refine ⟨fun unit n posix hyear hyear' => ?_, fun time hyear hyear' honce => ?_⟩
  · refine ⟨unit.exists_wanted n (localDate_spec zone posix).1, ?_⟩
    rintro wanted h hwanted ⟨minute, hminute⟩
    obtain ⟨hvalid, hresult⟩ := addRecurrence_eq hzone unit hyear hyear' h hwanted
    refine localDate_of_minutes hvalid (htime posix).1 (htime posix).2 ?_
    rw [hresult, toAdjustedMinutes, Int.mul_ediv_cancel _ (by decide)]
    exact hzone.corrected_add (by decide) hminute
  · have hvalid := (localDate_spec zone time).1
    rw [formatDateTimeLocalInput_eq (civil_of_year hyear hyear'),
      posixFromDateTimeLocalInput_stamp hzone 0 hvalid hyear hyear' (htime time).1 (htime time).2,
      ← toAdjustedMinutes_eq]
    rw [toAdjustedMinutes] at honce ⊢
    rw [hzone.corrected_eq (by decide) honce]

/-- New York, with the changes of 2026. -/
def newYork : Zone := ⟨-300, [⟨29891879, -300⟩, ⟨29549219, -240⟩]⟩

theorem newYork_offsetAt (minute : Int) : newYork.offsetAt minute =
    if 29549219 < minute ∧ minute ≤ 29891879 then -240 else -300 := by
  unfold Zone.offsetAt newYork
  by_cases hlast : (29891879 : Int) < minute
  · rw [List.find?_cons_of_pos (by simpa using hlast), if_neg (by omega)]
    rfl
  · rw [List.find?_cons_of_neg (by simpa using hlast)]
    by_cases hfirst : (29549219 : Int) < minute
    · rw [List.find?_cons_of_pos (by simpa using hfirst), if_pos (by omega)]
      rfl
    · rw [List.find?_cons_of_neg (by simpa using hfirst), List.find?_nil, if_neg (by omega)]
      rfl

theorem newYork_regular : newYork.Regular where
  lower minute := by
    rw [newYork_offsetAt]
    split <;> decide
  upper minute := by
    rw [newYork_offsetAt]
    split <;> decide
  apart minute later h h' hlt := by
    unfold ChangesAt at h h'
    simp only [newYork_offsetAt] at h h'
    split_ifs at h h' <;> omega

/-- Six o'clock on a Thursday evening in New York recurs at six o'clock a week later, although the
clock has been put forward. -/
theorem recurs_in_newYork :
    localDate newYork (addRecurrence newYork .weekly 1 1772751600000) = ⟨2026, 3, 12⟩ ∧
      timeOfDay newYork (addRecurrence newYork .weekly 1 1772751600000) =
        timeOfDay newYork 1772751600000 :=
  (((recurs_at_local_time newYork newYork_regular).1 .weekly 1 1772751600000 (by decide +kernel)
    (by decide +kernel)).2 ⟨2026, 3, 12⟩ (by unfold RecurrenceUnit.Wanted; decide +kernel)
    (by decide) ⟨29555880, by decide +kernel⟩)

end Rellm.Client.LocalTime
