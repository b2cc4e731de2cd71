import Mathlib.Tactic.Common
import Mathlib.Tactic.IntervalCases
import Pkix.Lib.Numerals

/-! The proleptic Gregorian calendar: its dates one day after the other from 1970-01-01 on, the
number of a date in that order, the date of a number, and the times of their days. -/

namespace Pkix.Calendar

open Numerals

structure Date where
  year : Int
  month : Nat
  day : Nat
  deriving DecidableEq, Repr

def IsLeap (year : Int) : Prop := year % 4 = 0 ∧ (year % 100 ≠ 0 ∨ year % 400 = 0)

instance (year : Int) : Decidable (IsLeap year) := inferInstanceAs (Decidable (_ ∧ _))

def monthLength (year : Int) (month : Nat) : Nat :=
  if month = 2 then if IsLeap year then 29 else 28
  else if month = 4 ∨ month = 6 ∨ month = 9 ∨ month = 11 then 30
  else 31

def epoch : Date := ⟨1970, 1, 1⟩

namespace Date

def Exists (date : Date) : Prop :=
  (1 ≤ date.month ∧ date.month ≤ 12) ∧ 1 ≤ date.day ∧ date.day ≤ monthLength date.year date.month

instance (date : Date) : Decidable date.Exists := inferInstanceAs (Decidable (_ ∧ _))

def next (date : Date) : Date :=
  if date.day < monthLength date.year date.month then ⟨date.year, date.month, date.day + 1⟩
  else if date.month < 12 then ⟨date.year, date.month + 1, 1⟩
  else ⟨date.year + 1, 1, 1⟩

/-- The year counted from March on, so that a leap day is its last. -/
def marchYear (date : Date) : Int := if date.month ≤ 2 then date.year - 1 else date.year

def marchMonth (date : Date) : Int := if date.month ≤ 2 then date.month + 9 else date.month - 3

def marchDay (date : Date) : Int := (153 * date.marchMonth + 2) / 5 + date.day - 1

end Date

/-- The days of the years that start in March, before the one given. -/
def daysBefore (year : Int) : Int := 365 * year + year / 4 - year / 100 + year / 400

/-- Counted from the epoch; a day past the end of its month counts on into the next one. -/
def dayNumber (date : Date) : Int := daysBefore date.marchYear + date.marchDay - 719468

def dateAfter : (days : Nat) → Date
  | 0 => epoch
  | days + 1 => (dateAfter days).next

section Order

variable {date : Date}

theorem monthLength_bounds (year : Int) (month : Nat) :
    28 ≤ monthLength year month ∧ monthLength year month ≤ 31 := by
  unfold monthLength
  repeat' split
  all_goals omega

theorem daysBefore_next (year : Int) :
    daysBefore year = daysBefore (year - 1) + if IsLeap year then 366 else 365 := by
  by_cases leap : IsLeap year
  · rw [if_pos leap]
    unfold IsLeap at leap
    unfold daysBefore
    omega
  · rw [if_neg leap]
    unfold IsLeap at leap
    unfold daysBefore
    omega

theorem Date.Exists.next (present : date.Exists) : date.next.Exists := by
  rcases present with ⟨⟨low, high⟩, first, last⟩
  unfold Date.next
  split
  · rename_i within
    exact ⟨⟨low, high⟩, Nat.succ_pos date.day, within⟩
  · split
    · rename_i more
      have long := (monthLength_bounds date.year (date.month + 1)).1
      exact ⟨⟨Nat.succ_pos date.month, more⟩, Nat.le_refl 1, by dsimp only; omega⟩
    · have long := (monthLength_bounds (date.year + 1) 1).1
      exact ⟨⟨Nat.le_refl 1, by dsimp only; omega⟩, Nat.le_refl 1, by dsimp only; omega⟩

/-- Where a month ends, the next one starts. -/
theorem marchDay_monthLength (year : Int) {month : Nat} (low : 1 ≤ month) (high : month < 12)
    (plain : month ≠ 2) :
    (Date.mk year (month + 1) 1).marchDay =
      (Date.mk year month (monthLength year month)).marchDay + 1 := by
  unfold monthLength Date.marchDay Date.marchMonth
  interval_cases month
  all_goals simp_all

theorem dayNumber_nextDay (year : Int) (month day : Nat) :
    dayNumber ⟨year, month, day + 1⟩ = dayNumber ⟨year, month, day⟩ + 1 := by
  simp only [dayNumber, Date.marchDay, Date.marchMonth, Date.marchYear]
  omega

/-- The turn of February is the turn of the years that start in March. -/
theorem dayNumber_march (year : Int) :
    dayNumber ⟨year, 3, 1⟩ = dayNumber ⟨year, 2, monthLength year 2⟩ + 1 := by
  have days := daysBefore_next year
  have length : monthLength year 2 = if IsLeap year then 29 else 28 := rfl
  rw [length]
  by_cases leap : IsLeap year
  · rw [if_pos leap] at days ⊢
    simp [dayNumber, Date.marchDay, Date.marchMonth, Date.marchYear]
    omega
  · rw [if_neg leap] at days ⊢
    simp [dayNumber, Date.marchDay, Date.marchMonth, Date.marchYear]
    omega

theorem dayNumber_nextMonth (year : Int) {month : Nat} (low : 1 ≤ month) (high : month < 12)
    (plain : month ≠ 2) :
    dayNumber ⟨year, month + 1, 1⟩ = dayNumber ⟨year, month, monthLength year month⟩ + 1 := by
  have turn := marchDay_monthLength year low high plain
  have sameYear : (Date.mk year (month + 1) 1).marchYear =
      (Date.mk year month (monthLength year month)).marchYear := by
    simp only [Date.marchYear]
    split <;> split <;> omega
  rw [dayNumber, dayNumber, turn, sameYear]
  omega

theorem dayNumber_newYear (year : Int) :
    dayNumber ⟨year + 1, 1, 1⟩ = dayNumber ⟨year, 12, monthLength year 12⟩ + 1 := by
  have length : monthLength year 12 = 31 := rfl
  rw [length]
  simp [dayNumber, Date.marchDay, Date.marchMonth, Date.marchYear]
  omega

theorem dayNumber_next (present : date.Exists) : dayNumber date.next = dayNumber date + 1 := by
  rcases present with ⟨⟨low, high⟩, first, last⟩
  obtain ⟨year, month, day⟩ := date
  dsimp only at low high first last
  unfold Date.next
  dsimp only
  split
  · exact dayNumber_nextDay year month day
  · have whole : day = monthLength year month := by omega
    subst whole
    split
    · rename_i more
      by_cases february : month = 2
      · subst february
        exact dayNumber_march year
      · exact dayNumber_nextMonth year low more february
    · have december : month = 12 := by omega
      subst december
      exact dayNumber_newYear year

/-- Also for a day past the end of its month. -/
theorem dayNumber_bounds (year : 0 ≤ date.year) (month : date.month ≤ 12) (day : date.day ≤ 31) :
    -720000 ≤ dayNumber date ∧ dayNumber date ≤ 366 * date.year := by
  unfold dayNumber daysBefore Date.marchDay Date.marchMonth Date.marchYear
  split <;> omega

theorem exists_dateAfter (days : Nat) : (dateAfter days).Exists := by
  induction days with
  | zero => decide
  | succ days ih => exact ih.next

theorem dayNumber_dateAfter (days : Nat) : dayNumber (dateAfter days) = days := by
  induction days with
  | zero => decide
  | succ days ih =>
      rw [dateAfter, dayNumber_next (exists_dateAfter days), ih]
      rfl

end Order

section Inverse

/-- The year within its 400 years, of a day counted from their start. -/
def yearOfEra (day : Int) : Int := (day - day / 1460 + day / 36524 - day / 146096) / 365

def monthOfDay (day : Int) : Int := (5 * day + 2) / 153

def dateOf (days : Int) : Date :=
  let era := (days + 719468) / 146097
  let dayOfEra := days + 719468 - era * 146097
  let year := yearOfEra dayOfEra
  let day := dayOfEra - (365 * year + year / 4 - year / 100)
  let month := monthOfDay day
  { year := if month < 10 then year + era * 400 else year + era * 400 + 1
    month := (if month < 10 then month + 3 else month - 9).toNat
    day := (day - (153 * month + 2) / 5 + 1).toNat }

/-- On a day given by its century, its four years, the year of these and the day of that year. -/
theorem yearOfEra_parts {century cycle year day : Int} (centuries : 0 ≤ century ∧ century ≤ 3)
    (cycles : 0 ≤ cycle ∧ cycle ≤ 24) (years : 0 ≤ year ∧ year ≤ 3) (days : 0 ≤ day ∧ day ≤ 365)
    (leap : day = 365 → year = 3 ∧ (cycle = 24 → century = 3)) :
    yearOfEra (36524 * century + 1461 * cycle + 365 * year + day) =
      100 * century + 4 * cycle + year := by
  have fours : (36524 * century + 1461 * cycle + 365 * year + day) / 1460 =
      25 * century + cycle + (24 * century + cycle + 365 * year + day) / 1460 := by omega
  have hundreds : (36524 * century + 1461 * cycle + 365 * year + day) / 36524 -
      (36524 * century + 1461 * cycle + 365 * year + day) / 146096 = century := by
    by_cases final : day = 365 ∧ cycle = 24
    · obtain ⟨lastDay, lastCycle⟩ := final
      obtain ⟨lastYear, lastCentury⟩ := leap lastDay
      rw [lastDay, lastCycle, lastYear, lastCentury lastCycle]
      decide
    · have before : 1461 * cycle + 365 * year + day < 36524 := by omega
      have within : ∀ rest, 0 ≤ rest → rest < 36524 →
          (36524 * century + rest) / 36524 - (36524 * century + rest) / 146096 = century := by
        intro rest start stop
        omega
      have apart := within _ (by omega) before
      rw [← Int.add_assoc, ← Int.add_assoc] at apart
      exact apart
  unfold yearOfEra
  omega

theorem yearOfEra_eq {year day : Int} (low : 0 ≤ year) (high : year < 400) (first : 0 ≤ day)
    (last : day ≤ 365) (leap : day = 365 → IsLeap (year + 1)) :
    yearOfEra (365 * year + year / 4 - year / 100 + day) = year := by
  unfold IsLeap at leap
  have century : 0 ≤ year / 100 ∧ year / 100 ≤ 3 := by omega
  have cycle : 0 ≤ year % 100 / 4 ∧ year % 100 / 4 ≤ 24 := by omega
  have place : 0 ≤ year % 4 ∧ year % 4 ≤ 3 := by omega
  have parts := yearOfEra_parts century cycle place ⟨first, last⟩ (by omega)
  have whole : 100 * (year / 100) + 4 * (year % 100 / 4) + year % 4 = year := by omega
  have day : 36524 * (year / 100) + 1461 * (year % 100 / 4) + 365 * (year % 4) + day =
      365 * year + year / 4 - year / 100 + day := by omega
  rw [whole, day] at parts
  exact parts

theorem daysBefore_era (year : Int) : daysBefore year =
    146097 * (year / 400) + (365 * (year % 400) + year % 400 / 4 - year % 400 / 100) := by
  unfold daysBefore
  omega

theorem isLeap_era (year : Int) : IsLeap (year % 400 + 1) ↔ IsLeap (year + 1) := by
  unfold IsLeap
  omega

variable {date : Date}

theorem marchDay_bounds (present : date.Exists) : 0 ≤ date.marchDay ∧ date.marchDay ≤ 365 ∧
    (date.marchDay = 365 → IsLeap (date.marchYear + 1)) := by
  rcases present with ⟨⟨low, high⟩, first, last⟩
  obtain ⟨year, month, day⟩ := date
  dsimp only at low high first last
  unfold monthLength at last
  unfold Date.marchDay Date.marchMonth Date.marchYear
  by_cases leap : IsLeap year
  · rw [if_pos leap] at last
    interval_cases month <;> simp_all <;> omega
  · rw [if_neg leap] at last
    interval_cases month <;> simp_all <;> omega

theorem monthOfDay_marchDay (present : date.Exists) :
    monthOfDay date.marchDay = date.marchMonth := by
  have bounds := monthLength_bounds date.year date.month
  rcases present with ⟨⟨low, high⟩, first, last⟩
  obtain ⟨year, month, day⟩ := date
  dsimp only at low high first last bounds
  unfold monthLength at last
  unfold monthOfDay Date.marchDay Date.marchMonth
  split at last
  · split at last
    all_goals interval_cases month
    all_goals simp_all
    all_goals omega
  · interval_cases month
    all_goals simp_all
    all_goals omega

/-- The number of a date in its 400 years, taken apart into its year and its day. -/
theorem dayNumber_parts (present : date.Exists) :
    (dayNumber date + 719468) / 146097 = date.marchYear / 400 ∧
      yearOfEra (dayNumber date + 719468 - date.marchYear / 400 * 146097) = date.marchYear % 400 ∧
      dayNumber date + 719468 - date.marchYear / 400 * 146097 -
        (365 * (date.marchYear % 400) + date.marchYear % 400 / 4 - date.marchYear % 400 / 100) =
          date.marchDay := by
  rcases marchDay_bounds present with ⟨first, last, leap⟩
  have place : 0 ≤ date.marchYear % 400 ∧ date.marchYear % 400 < 400 := by omega
  have year := yearOfEra_eq place.1 place.2 first last (fun full => (isLeap_era _).mpr (leap full))
  have shifted : dayNumber date + 719468 = 146097 * (date.marchYear / 400) +
      (365 * (date.marchYear % 400) + date.marchYear % 400 / 4 - date.marchYear % 400 / 100 +
        date.marchDay) := by
    unfold dayNumber
    rw [daysBefore_era]
    omega
  generalize inEra : 365 * (date.marchYear % 400) + date.marchYear % 400 / 4 -
    date.marchYear % 400 / 100 + date.marchDay = day at year shifted
  have range : 0 ≤ day ∧ day < 146097 := by
    unfold IsLeap at leap
    omega
  have dayOfEra : dayNumber date + 719468 - date.marchYear / 400 * 146097 = day := by omega
  rw [dayOfEra]
  exact ⟨by omega, year, by omega⟩

theorem dateOf_dayNumber (present : date.Exists) : dateOf (dayNumber date) = date := by
  obtain ⟨era, year, marchDay⟩ := dayNumber_parts present
  have month := monthOfDay_marchDay present
  rw [dateOf, era, year, marchDay, month]
  rcases present with ⟨⟨low, high⟩, firstDay, _⟩
  have wholeYear : date.marchYear % 400 + date.marchYear / 400 * 400 = date.marchYear := by omega
  rw [wholeYear]
  obtain ⟨year, month, day⟩ := date
  dsimp only at low high firstDay
  unfold Date.marchDay Date.marchMonth Date.marchYear
  dsimp only
  rw [Date.mk.injEq]
  split
  · exact ⟨by omega, by omega, by omega⟩
  · exact ⟨by omega, by omega, by omega⟩

theorem dayNumber_inj {other : Date} (here : date.Exists) (there : other.Exists)
    (same : dayNumber date = dayNumber other) : date = other := by
  rw [← dateOf_dayNumber here, same, dateOf_dayNumber there]

/-- The dates of the calendar from the epoch on, with their numbers. -/
theorem dateAfter_eq_iff {days : Nat} :
    dateAfter days = date ↔ date.Exists ∧ dayNumber date = days := by
  constructor
  · intro reached
    rw [← reached]
    exact ⟨exists_dateAfter days, dayNumber_dateAfter days⟩
  · intro numbered
    apply dayNumber_inj (exists_dateAfter days) numbered.1
    rw [dayNumber_dateAfter, numbered.2]

end Inverse

section Times

structure CivilTime where
  date : Date
  hour : Nat
  minute : Nat
  second : Nat
  deriving DecidableEq, Repr

/-- The time so many seconds after the start of the epoch. -/
def timeAfter (seconds : Nat) : CivilTime where
  date := dateAfter (seconds / 86400)
  hour := seconds % 86400 / 3600
  minute := seconds % 3600 / 60
  second := seconds % 60

namespace CivilTime

def Exists (time : CivilTime) : Prop :=
  time.date.Exists ∧ time.hour < 24 ∧ time.minute < 60 ∧ time.second < 60

instance (time : CivilTime) : Decidable time.Exists := inferInstanceAs (Decidable (_ ∧ _))

def secondNumber (time : CivilTime) : Int :=
  dayNumber time.date * 86400 + time.hour * 3600 + time.minute * 60 + time.second

/-- Date and time of RFC 3339, up to the whole seconds. -/
def text (time : CivilTime) : List Char :=
  zeroPadded 4 time.date.year.toNat ++ ('-' :: (zeroPadded 2 time.date.month ++
    ('-' :: (zeroPadded 2 time.date.day ++ ('T' :: (zeroPadded 2 time.hour ++
      (':' :: (zeroPadded 2 time.minute ++ (':' :: zeroPadded 2 time.second)))))))))

end CivilTime

variable {time : CivilTime} {seconds : Nat}

theorem exists_timeAfter (seconds : Nat) : (timeAfter seconds).Exists := by
  refine ⟨exists_dateAfter _, ?_, ?_, ?_⟩
  · change seconds % 86400 / 3600 < 24
    omega
  · change seconds % 3600 / 60 < 60
    omega
  · exact Nat.mod_lt seconds (by decide)

theorem secondNumber_timeAfter (seconds : Nat) : (timeAfter seconds).secondNumber = seconds := by
  unfold CivilTime.secondNumber timeAfter
  dsimp only
  rw [dayNumber_dateAfter]
  omega

theorem timeAfter_eq_iff : timeAfter seconds = time ↔ time.Exists ∧ time.secondNumber = seconds := by
  constructor
  · intro reached
    rw [← reached]
    exact ⟨exists_timeAfter seconds, secondNumber_timeAfter seconds⟩
  · intro numbered
    rcases numbered with ⟨⟨present, hour, minute, second⟩, number⟩
    unfold CivilTime.secondNumber at number
    have day : dayNumber time.date = (seconds / 86400 : Nat) := by omega
    have date := dateAfter_eq_iff.mpr ⟨present, day⟩
    obtain ⟨date', hour', minute', second'⟩ := time
    dsimp only at date hour minute second number
    rw [timeAfter, date, CivilTime.mk.injEq]
    exact ⟨rfl, by omega, by omega, by omega⟩

theorem year_dateAfter (days : Nat) : 1970 ≤ (dateAfter days).year := by
  induction days with
  | zero => decide
  | succ days ih =>
      rw [dateAfter, Date.next]
      split
      · exact ih
      · split
        · exact ih
        · exact Int.le_trans ih (Int.le_add_one (Int.le_refl _))

theorem zeroPadded_two {value : Nat} (small : value < 100) :
    zeroPadded 2 value = [(value / 10).digitChar, (value % 10).digitChar] := by
  rw [zeroPadded_succ (by decide), zeroPadded_one (by omega)]
  rfl

/-- Two digits for each part behind the year. -/
theorem text_digits (present : time.Exists) : time.text = zeroPadded 4 time.date.year.toNat ++
    ['-', (time.date.month / 10).digitChar, (time.date.month % 10).digitChar,
      '-', (time.date.day / 10).digitChar, (time.date.day % 10).digitChar,
      'T', (time.hour / 10).digitChar, (time.hour % 10).digitChar,
      ':', (time.minute / 10).digitChar, (time.minute % 10).digitChar,
      ':', (time.second / 10).digitChar, (time.second % 10).digitChar] := by
  rcases present with ⟨⟨⟨_, month⟩, _, day⟩, hour, minute, second⟩
  have long := (monthLength_bounds time.date.year time.date.month).2
  rw [CivilTime.text, zeroPadded_two (by omega), zeroPadded_two (by omega),
    zeroPadded_two (by omega), zeroPadded_two (by omega), zeroPadded_two (by omega)]
  rfl

theorem two_digits_inj {value value' : Nat} (small : value < 100) (small' : value' < 100)
    (tens : (value / 10).digitChar = (value' / 10).digitChar)
    (ones : (value % 10).digitChar = (value' % 10).digitChar) : value = value' := by
  apply @zeroPadded_inj 2
  rw [zeroPadded_two small, zeroPadded_two small', tens, ones]

theorem text_inj {other : CivilTime} (here : time.Exists) (there : other.Exists)
    (year : 0 ≤ time.date.year) (year' : 0 ≤ other.date.year) (same : time.text = other.text) :
    time = other := by
  rw [text_digits here, text_digits there] at same
  rcases List.append_inj' same rfl with ⟨years, parts⟩
  simp only [List.cons.injEq, and_true, true_and] at parts
  rcases parts with ⟨m1, m2, d1, d2, h1, h2, n1, n2, s1, s2⟩
  have sameYear := zeroPadded_inj years
  have long := (monthLength_bounds time.date.year time.date.month).2
  have long' := (monthLength_bounds other.date.year other.date.month).2
  rcases here with ⟨⟨⟨_, month⟩, _, day⟩, hour, minute, second⟩
  rcases there with ⟨⟨⟨_, month'⟩, _, day'⟩, hour', minute', second'⟩
  have months := two_digits_inj (by omega) (by omega) m1 m2
  have days := two_digits_inj (by omega) (by omega) d1 d2
  have hours := two_digits_inj (by omega) (by omega) h1 h2
  have minutes := two_digits_inj (by omega) (by omega) n1 n2
  have seconds := two_digits_inj (by omega) (by omega) s1 s2
  obtain ⟨⟨year₁, month₁, day₁⟩, hour₁, minute₁, second₁⟩ := time
  obtain ⟨⟨year₂, month₂, day₂⟩, hour₂, minute₂, second₂⟩ := other
  dsimp only at *
  rw [CivilTime.mk.injEq, Date.mk.injEq]
  exact ⟨⟨by omega, months, days⟩, hours, minutes, seconds⟩

/-- Different times from the epoch on have different texts. -/
theorem text_timeAfter_inj {other : Nat} (same : (timeAfter seconds).text = (timeAfter other).text) :
    seconds = other := by
  have year := year_dateAfter (seconds / 86400)
  have year' := year_dateAfter (other / 86400)
  have times := text_inj (exists_timeAfter seconds) (exists_timeAfter other)
    (Int.le_trans (by decide) year) (Int.le_trans (by decide) year') same
  have numbers := secondNumber_timeAfter seconds
  rw [times, secondNumber_timeAfter] at numbers
  exact (Int.ofNat.inj numbers).symm

end Times

end Pkix.Calendar
