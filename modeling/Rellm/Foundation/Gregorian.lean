import Mathlib.Algebra.Order.Ring.Int
import Mathlib.Algebra.Ring.Int.Defs
import Mathlib.Data.Int.Order.Basic
import Mathlib.Logic.Function.Iterate
import Mathlib.Order.Monotone.Basic

/-!
# The Gregorian calendar

Days are counted from the beginning of 1970. The count of a date is computed as if years began in
March, so that a leap day is the last of its year; each day counts one more than the day before.

The clock of a zone is ahead of universal time by an offset that changes rarely. Which minute a
reading of the clock belongs to is found by guessing its offset from the reading itself, and then
once more from what the first guess led to.
-/

namespace Rellm.Foundation

/-! ## Dates -/

def isLeapYear (year : Int) : Bool :=
  (year % 4 = 0 && !decide (year % 100 = 0)) || year % 400 = 0

def daysInMonth (year month : Int) : Int :=
  if month = 2 then if isLeapYear year then 29 else 28
  else if month = 4 ∨ month = 6 ∨ month = 9 ∨ month = 11 then 30
  else 31

structure Date where
  year : Int
  month : Int
  day : Int
  deriving DecidableEq, Repr

namespace Date

/-- A date of the calendar. -/
structure Valid (date : Date) : Prop where
  month_pos : 1 ≤ date.month
  month_le : date.month ≤ 12
  day_pos : 1 ≤ date.day
  day_le : date.day ≤ daysInMonth date.year date.month

instance (date : Date) : Decidable date.Valid :=
  decidable_of_iff (1 ≤ date.month ∧ date.month ≤ 12 ∧ 1 ≤ date.day ∧
    date.day ≤ daysInMonth date.year date.month)
    ⟨fun h => ⟨h.1, h.2.1, h.2.2.1, h.2.2.2⟩, fun h => ⟨h.1, h.2, h.3, h.4⟩⟩

/-- The day after a date. -/
def next (date : Date) : Date :=
  if date.day < daysInMonth date.year date.month then { date with day := date.day + 1 }
  else if date.month < 12 then ⟨date.year, date.month + 1, 1⟩
  else ⟨date.year + 1, 1, 1⟩

/-- The year that begins in March. -/
def marchYear (date : Date) : Int := if date.month ≤ 2 then date.year - 1 else date.year

/-- The months since March. -/
def marchMonth (date : Date) : Int := if 2 < date.month then date.month - 3 else date.month + 9

end Date

/-- The days of the years before one that begins in March. -/
def yearStart (year : Int) : Int := 365 * year + year / 4 - year / 100 + year / 400

/-- The days of the months before one, counted from March. -/
def monthStart (month : Int) : Int := (153 * month + 2) / 5

/-- The days from the beginning of 1970 to a date. -/
def dayNumber (date : Date) : Int :=
  yearStart date.marchYear + monthStart date.marchMonth + date.day - 1 - 719468

/-- The leap day at the end of a year that begins in March, or none. -/
def leapDays (year : Int) : Int := if isLeapYear (year + 1) then 1 else 0

theorem isLeapYear_iff (year : Int) :
    isLeapYear year = true ↔ (year % 4 = 0 ∧ year % 100 ≠ 0) ∨ year % 400 = 0 := by
  simp [isLeapYear]

theorem yearStart_succ (year : Int) :
    yearStart (year + 1) = yearStart year + 365 + leapDays year := by
  unfold yearStart leapDays
  by_cases h : isLeapYear (year + 1) = true
  · rw [if_pos h]
    rw [isLeapYear_iff] at h
    omega
  · rw [if_neg h]
    rw [isLeapYear_iff] at h
    omega

/-- The length of a month is the distance to the next one, or to the end of the year. -/
theorem daysInMonth_eq {date : Date} (hpos : 1 ≤ date.month) (hle : date.month ≤ 12) :
    monthStart date.marchMonth + daysInMonth date.year date.month =
      if date.month = 2 then 365 + leapDays date.marchYear
      else monthStart (date.marchMonth + 1) := by
  obtain ⟨year, month, day⟩ := date
  simp only [Date.marchMonth, Date.marchYear, daysInMonth, leapDays, monthStart] at *
  have hmonth : month = 1 ∨ month = 2 ∨ month = 3 ∨ month = 4 ∨ month = 5 ∨ month = 6 ∨
      month = 7 ∨ month = 8 ∨ month = 9 ∨ month = 10 ∨ month = 11 ∨ month = 12 := by omega
  rcases hmonth with rfl | rfl | rfl | rfl | rfl | rfl | rfl | rfl | rfl | rfl | rfl | rfl
  case inr.inl =>
    have hyear : year - 1 + 1 = year := by omega
    simp only [if_pos, Int.reduceLE, Int.reduceLT, if_false, hyear]
    split <;> omega
  all_goals simp

theorem leapDays_nonneg (year : Int) : 0 ≤ leapDays year := by
  unfold leapDays
  split <;> omega

theorem leapDays_le (year : Int) : leapDays year ≤ 1 := by
  unfold leapDays
  split <;> omega

theorem daysInMonth_ge (year month : Int) : 28 ≤ daysInMonth year month := by
  unfold daysInMonth
  split_ifs <;> omega

theorem daysInMonth_le (year month : Int) : daysInMonth year month ≤ 31 := by
  unfold daysInMonth
  split_ifs <;> omega

/-- The place of a date in the year that begins in March. -/
def dayOfYear (date : Date) : Int := monthStart date.marchMonth + date.day - 1

theorem dayNumber_eq (date : Date) :
    dayNumber date = yearStart date.marchYear + dayOfYear date - 719468 := by
  unfold dayNumber dayOfYear
  omega

theorem marchMonth_bounds {date : Date} (h : date.Valid) :
    0 ≤ date.marchMonth ∧ date.marchMonth ≤ 11 ∧ (date.marchMonth = 11 ↔ date.month = 2) := by
  obtain ⟨hpos, hle, _, _⟩ := h
  unfold Date.marchMonth
  split <;> omega

theorem dayOfYear_bounds {date : Date} (h : date.Valid) :
    0 ≤ dayOfYear date ∧ dayOfYear date < 365 + leapDays date.marchYear := by
  have hlength := daysInMonth_eq h.month_pos h.month_le
  have hleap := leapDays_nonneg date.marchYear
  obtain ⟨hnonneg, hle, helast⟩ := marchMonth_bounds h
  obtain ⟨_, _, hday, hday'⟩ := h
  unfold dayOfYear
  split at hlength
  · unfold monthStart at *
    omega
  · have hne : date.marchMonth ≤ 10 := by omega
    unfold monthStart at *
    omega

/-- Each day counts one more than the day before. -/
theorem dayNumber_next {date : Date} (h : date.Valid) :
    date.next.Valid ∧ dayNumber date.next = dayNumber date + 1 := by
  have hlength := daysInMonth_eq h.month_pos h.month_le
  obtain ⟨year, month, day⟩ := date
  obtain ⟨hpos, hle, hday, hday'⟩ := h
  unfold Date.next
  dsimp only at *
  split
  · rename_i hlt
    refine ⟨⟨hpos, hle, by dsimp only; omega, by dsimp only; omega⟩, ?_⟩
    unfold dayNumber Date.marchYear Date.marchMonth
    dsimp only
    omega
  · split
    · rename_i hlast hmonth
      have hge := daysInMonth_ge year (month + 1)
      refine ⟨⟨by dsimp only; omega, by dsimp only; omega, by dsimp only; omega,
        by dsimp only; omega⟩, ?_⟩
      by_cases hfeb : month = 2
      · subst hfeb
        have hyear := yearStart_succ (year - 1)
        rw [Int.sub_add_cancel] at hyear
        have hstart : monthStart 0 = 0 := by decide
        simp [dayNumber, Date.marchYear, Date.marchMonth] at *
        omega
      · rw [if_neg hfeb] at hlength
        have hyear : (⟨year, month + 1, 1⟩ : Date).marchYear =
            (⟨year, month, day⟩ : Date).marchYear := by
          unfold Date.marchYear
          dsimp only
          split_ifs <;> omega
        have hstart : monthStart (⟨year, month + 1, 1⟩ : Date).marchMonth =
            monthStart ((⟨year, month, day⟩ : Date).marchMonth + 1) := by
          congr 1
          unfold Date.marchMonth
          dsimp only
          split_ifs <;> omega
        simp only [dayNumber, hyear, hstart]
        omega
    · rename_i hlast hmonth
      obtain rfl : month = 12 := by omega
      have hge := daysInMonth_ge (year + 1) 1
      refine ⟨⟨by simp, by simp, by simp, by dsimp only; omega⟩, ?_⟩
      have hyear : (⟨year + 1, 1, 1⟩ : Date).marchYear = (⟨year, 12, day⟩ : Date).marchYear := by
        simp [Date.marchYear]
      have hstart : monthStart (⟨year + 1, 1, 1⟩ : Date).marchMonth =
          monthStart ((⟨year, 12, day⟩ : Date).marchMonth + 1) := by
        simp [Date.marchMonth]
      rw [if_neg (by decide)] at hlength
      simp only [dayNumber, hyear, hstart]
      omega

example : dayNumber ⟨1970, 1, 1⟩ = 0 := by decide

theorem yearStart_mono {year year' : Int} (hle : year ≤ year') : yearStart year ≤ yearStart year' := by
  refine (strictMono_int_of_lt_succ fun year => ?_).monotone hle
  have hnext := yearStart_succ year
  have hleap := leapDays_nonneg year
  omega

theorem marchYear_eq_of_bounds {year year' day day' : Int}
    (heq : yearStart year + day = yearStart year' + day')
    (hday : 0 ≤ day) (hlt : day < 365 + leapDays year)
    (hday' : 0 ≤ day') (hlt' : day' < 365 + leapDays year') : year = year' := by
  have hnext := yearStart_succ year
  have hnext' := yearStart_succ year'
  rcases lt_trichotomy year year' with hlt'' | rfl | hlt''
  · have hmono := yearStart_mono (show year + 1 ≤ year' by omega)
    omega
  · rfl
  · have hmono := yearStart_mono (show year' + 1 ≤ year by omega)
    omega

/-- No two dates of the calendar have the same count. -/
theorem dayNumber_injective {date date' : Date} (h : date.Valid) (h' : date'.Valid)
    (heq : dayNumber date = dayNumber date') : date = date' := by
  have hbounds := dayOfYear_bounds h
  have hbounds' := dayOfYear_bounds h'
  rw [dayNumber_eq, dayNumber_eq] at heq
  have hyear : date.marchYear = date'.marchYear :=
    marchYear_eq_of_bounds (by omega) hbounds.1 hbounds.2 hbounds'.1 hbounds'.2
  have hday : dayOfYear date = dayOfYear date' := by
    rw [hyear] at heq
    omega
  have hlength := daysInMonth_eq h.month_pos h.month_le
  have hlength' := daysInMonth_eq h'.month_pos h'.month_le
  have hmarch := marchMonth_bounds h
  have hmarch' := marchMonth_bounds h'
  have hmonth : date.marchMonth = date'.marchMonth := by
    obtain ⟨_, _, hpos, hle⟩ := h
    obtain ⟨_, _, hpos', hle'⟩ := h'
    unfold dayOfYear at hday
    unfold monthStart at *
    split at hlength <;> split at hlength' <;> omega
  obtain ⟨year, month, day⟩ := date
  obtain ⟨year', month', day'⟩ := date'
  obtain ⟨hpos, hle, _, _⟩ := h
  obtain ⟨hpos', hle', _, _⟩ := h'
  obtain rfl : month = month' := by
    unfold Date.marchMonth at hmonth
    dsimp only at *
    split_ifs at hmonth <;> omega
  obtain rfl : year = year' := by
    unfold Date.marchYear at hyear
    dsimp only at *
    split_ifs at hyear <;> omega
  have hsame : day = day' := by
    unfold dayOfYear at hday
    rw [hmonth] at hday
    dsimp only at hday
    omega
  rw [hsame]

/-- The days of a cycle of four hundred years less its leap days. -/
def commonDays (day : Int) : Int := day - day / 1460 + day / 36524 - day / 146096

theorem commonDays_mono {day day' : Int} (h : day ≤ day') : commonDays day ≤ commonDays day' := by
  have hstep : ∀ k : Nat, commonDays day ≤ commonDays (day + k) := by
    intro k
    induction k with
    | zero => simp
    | succ k ih =>
      refine ih.trans ?_
      push_cast
      unfold commonDays
      omega
  obtain ⟨k, rfl⟩ := Int.le.dest h
  exact hstep k

theorem commonDays_yearStart (year : Fin 400) :
    365 * (year : Int) ≤ commonDays (yearStart year) ∧
      commonDays (yearStart (year + 1) - 1) < 365 * ((year : Int) + 1) := by
  revert year
  decide +kernel

/-- The year of a cycle that a day falls in. -/
theorem yearStart_of_commonDays {day : Int} (hnonneg : 0 ≤ day) (hlt : day < 146097) :
    0 ≤ commonDays day / 365 ∧ commonDays day / 365 < 400 ∧
      yearStart (commonDays day / 365) ≤ day ∧ day < yearStart (commonDays day / 365 + 1) := by
  have hlow : commonDays 0 ≤ commonDays day := commonDays_mono hnonneg
  have hhigh : commonDays day ≤ commonDays 146096 := commonDays_mono (by omega)
  have hzero : commonDays 0 = 0 := by decide
  have hlast : commonDays 146096 = 145999 := by decide
  have hyear : 0 ≤ commonDays day / 365 ∧ commonDays day / 365 < 400 := by omega
  obtain ⟨year, heq⟩ := Int.eq_ofNat_of_zero_le hyear.1
  refine ⟨hyear.1, hyear.2, ?_, ?_⟩
  · by_contra hbefore
    have hpos : year ≠ 0 := by
      rintro rfl
      rw [heq] at hbefore
      exact hbefore (by simpa [yearStart] using hnonneg)
    have hprev := (commonDays_yearStart ⟨year - 1, by omega⟩).2
    have hcast : ((year - 1 : Nat) : Int) + 1 = year := by omega
    have hmono : commonDays day ≤ commonDays (yearStart year - 1) :=
      commonDays_mono (by rw [heq] at hbefore; omega)
    dsimp only at hprev
    rw [hcast] at hprev
    omega
  · by_contra hafter
    rw [heq] at hafter
    by_cases hend : year = 399
    · have hstart : yearStart (((399 : Nat) : Int) + 1) = 146097 := by decide
      rw [hend, hstart] at hafter
      omega
    · have hnext := (commonDays_yearStart ⟨year + 1, by omega⟩).1
      have hmono : commonDays (yearStart (year + 1)) ≤ commonDays day := commonDays_mono (by omega)
      push_cast at hnext
      omega

/-- The date with a count. -/
def ofDayNumber (number : Int) : Date :=
  let rawDay := number + 719468
  let era := rawDay / 146097
  let dayOfEra := rawDay - era * 146097
  let yearOfEra := commonDays dayOfEra / 365
  let day := dayOfEra - yearStart yearOfEra
  let monthFromMarch := (5 * day + 2) / 153
  let month := monthFromMarch + if monthFromMarch < 10 then 3 else -9
  ⟨yearOfEra + era * 400 + (if month ≤ 2 then 1 else 0), month,
    day - monthStart monthFromMarch + 1⟩

theorem yearStart_cycle (year era : Int) :
    yearStart (year + era * 400) = yearStart year + era * 146097 := by
  unfold yearStart
  omega

theorem ofDayNumber_spec (number : Int) :
    (ofDayNumber number).Valid ∧ dayNumber (ofDayNumber number) = number := by
  unfold ofDayNumber
  extract_lets rawDay era dayOfEra yearOfEra day monthFromMarch month
  obtain ⟨hyear, hyear', hstart, hend⟩ :=
    yearStart_of_commonDays (show 0 ≤ dayOfEra by omega) (show dayOfEra < 146097 by omega)
  change yearStart yearOfEra ≤ dayOfEra at hstart
  change dayOfEra < yearStart (yearOfEra + 1) at hend
  have hnext := yearStart_succ (yearOfEra + era * 400)
  have hcycle := yearStart_cycle yearOfEra era
  have hcycle' : yearStart (yearOfEra + era * 400 + 1) =
      yearStart (yearOfEra + 1) + era * 146097 := by
    rw [← yearStart_cycle, Int.add_right_comm]
  have hleap := leapDays_le (yearOfEra + era * 400)
  have hmonth : 0 ≤ monthFromMarch ∧ monthFromMarch ≤ 11 := by omega
  set date : Date :=
    ⟨yearOfEra + era * 400 + (if month ≤ 2 then 1 else 0), month,
      day - monthStart monthFromMarch + 1⟩
    with hdate
  have hmarch : date.marchYear = yearOfEra + era * 400 ∧ date.marchMonth = monthFromMarch := by
    simp only [hdate, Date.marchYear, Date.marchMonth, month]
    split_ifs <;> omega
  have hpos : 1 ≤ date.month := by
    simp only [hdate, month]
    split <;> omega
  have hle : date.month ≤ 12 := by
    simp only [hdate, month]
    split <;> omega
  have hlength := daysInMonth_eq hpos hle
  rw [hmarch.1, hmarch.2] at hlength
  have hday : date.day = day - monthStart monthFromMarch + 1 := rfl
  refine ⟨⟨hpos, hle, ?_, ?_⟩, ?_⟩
  · unfold monthStart at hday
    omega
  · unfold monthStart at hday hlength
    split at hlength <;> omega
  · rw [dayNumber, hmarch.1, hmarch.2, hday, hcycle]
    omega

theorem ofDayNumber_dayNumber {date : Date} (h : date.Valid) :
    ofDayNumber (dayNumber date) = date :=
  dayNumber_injective (ofDayNumber_spec _).1 h (ofDayNumber_spec _).2

theorem ofDayNumber_succ (number : Int) : ofDayNumber (number + 1) = (ofDayNumber number).next := by
  have hspec := ofDayNumber_spec number
  have hnext := dayNumber_next hspec.1
  rw [← hspec.2, ← hnext.2, ofDayNumber_dayNumber hnext.1, hspec.2]

/-- Going forward one day at a time is adding to the count. -/
theorem ofDayNumber_add (number : Int) (n : Nat) :
    ofDayNumber (number + n) = Date.next^[n] (ofDayNumber number) := by
  induction n with
  | zero => simp
  | succ n ih =>
    rw [Function.iterate_succ_apply', ← ih, ← ofDayNumber_succ]
    congr 1
    push_cast
    omega

theorem dayNumber_iterate_next {date : Date} (h : date.Valid) (n : Nat) :
    (Date.next^[n] date).Valid ∧ dayNumber (Date.next^[n] date) = dayNumber date + n := by
  have hdate := ofDayNumber_dayNumber h
  have hspec := ofDayNumber_spec (dayNumber date + n)
  rwa [ofDayNumber_add, hdate] at hspec

/-- The day of the week, counted from Sunday. -/
def Date.weekday (date : Date) : Int := (dayNumber date + 4) % 7

/-- The months from the beginning of year 0 to that of a date. -/
def Date.monthIndex (date : Date) : Int := date.year * 12 + (date.month - 1)

/-- A day of a month. -/
def Date.ofMonth (index day : Int) : Date := ⟨index / 12, index % 12 + 1, day⟩

def monthLength (index : Int) : Int := daysInMonth (index / 12) (index % 12 + 1)

/-- The date some months later, on the last day of the month when that month is too short. -/
def Date.addMonths (date : Date) (n : Int) : Date :=
  .ofMonth (date.monthIndex + n) (min date.day (monthLength (date.monthIndex + n)))

section

variable {index day : Int} {date : Date}

@[simp]
theorem monthIndex_ofMonth : (Date.ofMonth index day).monthIndex = index := by
  unfold Date.monthIndex Date.ofMonth
  dsimp only
  omega

@[simp]
theorem day_ofMonth : (Date.ofMonth index day).day = day := rfl

theorem ofMonth_monthIndex (h : date.Valid) : Date.ofMonth date.monthIndex date.day = date := by
  obtain ⟨year, month, day⟩ := date
  obtain ⟨hpos, hle, _, _⟩ := h
  unfold Date.ofMonth Date.monthIndex
  dsimp only at *
  congr 1 <;> omega

theorem day_le_monthLength (h : date.Valid) : date.day ≤ monthLength date.monthIndex := by
  have hmonth := h.day_le
  rwa [← ofMonth_monthIndex h] at hmonth

theorem ofMonth_valid (hpos : 1 ≤ day) (hle : day ≤ monthLength index) :
    (Date.ofMonth index day).Valid := by
  refine ⟨?_, ?_, hpos, hle⟩
  all_goals
    unfold Date.ofMonth
    dsimp only
    omega

theorem monthLength_ge (index : Int) : 28 ≤ monthLength index := daysInMonth_ge _ _

theorem addMonths_valid (h : date.Valid) (n : Int) : (date.addMonths n).Valid := by
  have hge := monthLength_ge (date.monthIndex + n)
  have hpos := h.day_pos
  exact ofMonth_valid (by omega) (by omega)

@[simp]
theorem monthIndex_addMonths (n : Int) : (date.addMonths n).monthIndex = date.monthIndex + n :=
  monthIndex_ofMonth

@[simp]
theorem day_addMonths (n : Int) :
    (date.addMonths n).day = min date.day (monthLength (date.monthIndex + n)) := rfl

/-- Months added one after the other may end up earlier in the month. -/
theorem addMonths_addMonths (m n : Int) :
    (date.addMonths m).addMonths n = .ofMonth (date.monthIndex + (m + n))
      (min (min date.day (monthLength (date.monthIndex + m)))
        (monthLength (date.monthIndex + (m + n)))) := by
  rw [Date.addMonths, monthIndex_addMonths, day_addMonths, Int.add_assoc]

/-- A month ends where the next one begins. -/
theorem dayNumber_ofMonth_succ (index : Int) :
    dayNumber (.ofMonth (index + 1) 1) = dayNumber (.ofMonth index 1) + monthLength index := by
  have hge := monthLength_ge index
  have hvalid : (Date.ofMonth index (monthLength index)).Valid :=
    ofMonth_valid (by omega) (Int.le_refl _)
  have hnext := (dayNumber_next hvalid).2
  have hlast : (Date.ofMonth index (monthLength index)).next = .ofMonth (index + 1) 1 := by
    unfold Date.next Date.ofMonth monthLength
    rw [if_neg (by dsimp only; omega)]
    dsimp only
    split
    · congr 1 <;> omega
    · congr 1 <;> omega
  have hday : dayNumber (.ofMonth index (monthLength index)) =
      dayNumber (.ofMonth index 1) + (monthLength index - 1) := by
    unfold dayNumber
    dsimp only [Date.ofMonth, Date.marchYear, Date.marchMonth]
    omega
  rw [hlast, hday] at hnext
  omega

theorem dayNumber_ofMonth (index day : Int) :
    dayNumber (.ofMonth index day) = dayNumber (.ofMonth index 1) + (day - 1) := by
  unfold dayNumber
  dsimp only [Date.ofMonth, Date.marchYear, Date.marchMonth]
  omega

theorem dayNumber_ofMonth_mono {index index' : Int} (hle : index ≤ index') :
    dayNumber (.ofMonth index 1) ≤ dayNumber (.ofMonth index' 1) := by
  refine (strictMono_int_of_lt_succ (f := fun index => dayNumber (.ofMonth index 1))
    fun index => ?_).monotone hle
  have hsucc := dayNumber_ofMonth_succ index
  have hge := monthLength_ge index
  omega

theorem date_eq_of_day {date date' : Date} (h : date.Valid) (h' : date'.Valid)
    (hmonth : date.monthIndex = date'.monthIndex) (hday : date.day = date'.day) : date = date' := by
  rw [← ofMonth_monthIndex h, ← ofMonth_monthIndex h', hmonth, hday]

theorem weekday_ofMonth (index day : Int) : (Date.ofMonth index day).weekday =
    (dayNumber (.ofMonth index 1) + (day - 1) + 4) % 7 := by
  rw [Date.weekday, dayNumber_ofMonth]

theorem weekday_eq (h : date.Valid) : date.weekday =
    (dayNumber (.ofMonth date.monthIndex 1) + (date.day - 1) + 4) % 7 := by
  rw [← weekday_ofMonth, ofMonth_monthIndex h]

/-- The days of a month up to a date that are on the same day of the week. -/
def Date.ordinal (date : Date) : Nat :=
  (List.range date.day.toNat).countP fun i : Nat =>
    decide ((Date.ofMonth date.monthIndex (i + 1)).weekday = date.weekday)

theorem countP_range_mod {r : Nat} (hr : r < 7) (n : Nat) :
    ((List.range n).countP fun i => decide (i % 7 = r)) = (n + 6 - r) / 7 := by
  induction n with
  | zero =>
    simp
    omega
  | succ n ih =>
    rw [List.range_succ, List.countP_append, ih, List.countP_singleton]
    split <;> simp_all <;> omega

theorem ordinal_eq (h : date.Valid) : (date.ordinal : Int) = (date.day - 1) / 7 + 1 := by
  have hpos := h.day_pos
  have hcount : date.ordinal =
      (List.range date.day.toNat).countP fun i => decide (i % 7 = (date.day.toNat - 1) % 7) := by
    rw [Date.ordinal]
    refine List.countP_congr fun i _ => ?_
    rw [decide_eq_true_iff, decide_eq_true_iff, weekday_ofMonth, weekday_eq h]
    omega
  rw [hcount, countP_range_mod (Nat.mod_lt _ (by decide))]
  omega

/-- Dates in an earlier month come earlier. -/
theorem dayNumber_lt_of_monthIndex {date date' : Date} (h : date.Valid) (h' : date'.Valid)
    (hlt : date.monthIndex < date'.monthIndex) : dayNumber date < dayNumber date' := by
  have hmono := dayNumber_ofMonth_mono
    (show date.monthIndex + 1 ≤ date'.monthIndex by omega)
  have hsucc := dayNumber_ofMonth_succ date.monthIndex
  have hle := day_le_monthLength h
  have hpos := h'.day_pos
  rw [← ofMonth_monthIndex h, ← ofMonth_monthIndex h', dayNumber_ofMonth,
    dayNumber_ofMonth date'.monthIndex]
  omega

theorem dayNumber_lt_addMonths (h : date.Valid) {n : Int} (hpos : 0 < n) :
    dayNumber date < dayNumber (date.addMonths n) :=
  dayNumber_lt_of_monthIndex h (addMonths_valid h n) (by rw [monthIndex_addMonths]; omega)

end

/-! ## Offsets from universal time -/

/-- The offset changes after a minute. -/
def ChangesAt (offset : Int → Int) (minute : Int) : Prop := offset (minute + 1) ≠ offset minute

/-- An offset is bounded, and some time passes between its changes. -/
structure RarelyChanging (offset : Int → Int) (bound between : Int) : Prop where
  lower : ∀ minute, -bound ≤ offset minute
  upper : ∀ minute, offset minute ≤ bound
  apart : ∀ minute later, ChangesAt offset minute → ChangesAt offset later → minute < later →
    between ≤ later - minute

/-- The minute that a reading of the clock belongs to, by two guesses. -/
def corrected (offset : Int → Int) (reading : Int) : Int :=
  reading - offset (reading - offset reading)

section

variable {offset : Int → Int} {bound between first last minute reading : Int}

theorem offset_eq_of_unchanged (h : ∀ m, first ≤ m → m < last → ¬ ChangesAt offset m)
    (hfirst : first ≤ minute) (hlast : minute ≤ last) : offset minute = offset first := by
  induction minute, hfirst using Int.leInduction with
  | base => rfl
  | succ m hm ih =>
    have hsame := not_not.mp (h m hm (by omega))
    rw [hsame, ih (by omega)]

/-- Within a time that is short enough there is at most one change. -/
theorem RarelyChanging.exists_change (h : RarelyChanging offset bound between)
    (hshort : last - first ≤ between) : ∃ change before after, ∀ m, first ≤ m → m ≤ last →
      offset m = if m < change then before else after := by
  by_cases hchange : ∃ c, first ≤ c ∧ c < last ∧ ChangesAt offset c
  · obtain ⟨c, hfirst, hlast, hc⟩ := hchange
    refine ⟨c + 1, offset first, offset (c + 1), fun m hm hm' => ?_⟩
    split
    · refine offset_eq_of_unchanged (fun other hother hlt hchanges => ?_) hm
        (Int.lt_add_one_iff.mp ‹_›)
      have hapart := h.apart other c hchanges hc hlt
      omega
    · refine offset_eq_of_unchanged (fun other hother hlt hchanges => ?_) (not_lt.mp ‹_›) hm'
      have hapart := h.apart c other hc hchanges (by omega)
      omega
  · refine ⟨last + 1, offset first, 0, fun m hm hm' => ?_⟩
    rw [if_pos (by omega)]
    exact offset_eq_of_unchanged (fun c hc hc' hchanges => hchange ⟨c, hc, hc', hchanges⟩) hm hm'

/-- Two guesses are enough for a reading that the clock shows at all. -/
theorem RarelyChanging.corrected_add (h : RarelyChanging offset bound between)
    (hbetween : 2 * bound ≤ between) (hreading : minute + offset minute = reading) :
    corrected offset reading + offset (corrected offset reading) = reading := by
  obtain ⟨change, before, after, hchange⟩ := @RarelyChanging.exists_change _ _ _
    (reading - bound) (reading + bound) h (by omega)
  have hwithin : ∀ m, reading - bound ≤ m ∧ m ≤ reading + bound → offset m = before ∧ m < change ∨
      offset m = after ∧ change ≤ m := by
    intro m hm
    have heq := hchange m hm.1 hm.2
    split at heq
    · exact .inl ⟨heq, ‹_›⟩
    · exact .inr ⟨heq, not_lt.mp ‹_›⟩
  have hbounds := fun m => And.intro (h.lower m) (h.upper m)
  have hguess := hbounds reading
  have hguess' := hbounds (reading - offset reading)
  have hminute := hbounds minute
  unfold corrected
  -- the reading, the first guess, the result and the minute itself are before or after the change
  rcases hwithin reading (by omega) with h₁ | h₁ <;>
  rcases hwithin (reading - offset reading) (by omega) with h₂ | h₂ <;>
  rcases hwithin (reading - offset (reading - offset reading)) (by omega) with h₃ | h₃ <;>
  rcases hwithin minute (by omega) with h₄ | h₄ <;>
  omega

/-- A reading that the clock shows only once belongs to that minute. -/
theorem RarelyChanging.corrected_eq (h : RarelyChanging offset bound between)
    (hbetween : 2 * bound ≤ between)
    (honce : ∀ other, other + offset other = minute + offset minute → other = minute) :
    corrected offset (minute + offset minute) = minute :=
  honce _ (h.corrected_add hbetween rfl)

end

end Rellm.Foundation
