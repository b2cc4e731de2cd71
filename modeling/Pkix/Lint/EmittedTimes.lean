import Pkix.Ct.LogTimestamps

/-! The emitter's timestamps, and their reading as the timestamps of a log list. -/

namespace Pkix.Lint

open Pkix.Path Calendar
open Ct (Text)

section Emitter

/-- The result of a 64-bit step, none where it overflows. -/
def i64 (value : Int) : Option Int :=
  if -2 ^ 63 ≤ value ∧ value < 2 ^ 63 then some value else none

/-- The year within its era, of a day of it. -/
def yearOfEraDay (doe : Int) : Option Int := do
  let withoutLeaps ← i64 (doe - doe.tdiv 1460)
  let withCenturies ← i64 (withoutLeaps + doe.tdiv 36524)
  let yearDays ← i64 (withCenturies - doe.tdiv 146096)
  some (yearDays.tdiv 365)

def dayOfYear (doe yoe : Int) : Option Int := do
  let plainDays ← i64 (365 * yoe)
  let leapDays ← i64 (plainDays + yoe.tdiv 4)
  let daysBefore ← i64 (leapDays - yoe.tdiv 100)
  i64 (doe - daysBefore)

/-- Month and day of the month, of a day of a year that starts in March. -/
def monthAndDay (doy : Int) : Option (Int × Int) := do
  let fiveDays ← i64 (5 * doy)
  let fiveDaysOn ← i64 (fiveDays + 2)
  let mp := fiveDaysOn.tdiv 153
  let monthDays ← i64 (153 * mp)
  let monthDaysOn ← i64 (monthDays + 2)
  let dayBefore ← i64 (doy - monthDaysOn.tdiv 5)
  let d ← i64 (dayBefore + 1)
  let m ← i64 (if mp < 10 then mp + 3 else mp - 9)
  some (m, d)

/-- From the days since the epoch to year, month and day. -/
def civilFromDays (daysSinceEpoch : Int) : Option (Int × Int × Int) := do
  let z ← i64 (daysSinceEpoch + 719468)
  let shifted ← i64 (if 0 ≤ z then z else z - 146096)
  let era := shifted.tdiv 146097
  let eraDays ← i64 (era * 146097)
  let doe ← i64 (z - eraDays)
  let yoe ← yearOfEraDay doe
  let eraYears ← i64 (era * 400)
  let y ← i64 (yoe + eraYears)
  let doy ← dayOfYear doe yoe
  let (m, d) ← monthAndDay doy
  let year ← i64 (if m ≤ 2 then y + 1 else y)
  some (year, m, d)

/-- Zeros in front up to the width; a sign counts for it. -/
def zeroPaddedI64 (width : Nat) (value : Int) : Text :=
  if 0 ≤ value then Numerals.zeroPadded width value.toNat
  else '-' :: Numerals.zeroPadded (width - 1) value.natAbs

def unixToRfc3339 (unix : UInt64) : Option Text := do
  let unixI64 : Int := if unix.toNat < 2 ^ 63 then unix.toNat else 2 ^ 63 - 1
  let daysSinceEpoch := unixI64 / 86400
  let secsOfDay := unixI64 % 86400
  let hour := secsOfDay.tdiv 3600
  let minute := (secsOfDay.tmod 3600).tdiv 60
  let second := secsOfDay.tmod 60
  let (year, m, d) ← civilFromDays daysSinceEpoch
  some (zeroPaddedI64 4 year ++ ('-' :: (zeroPaddedI64 2 m ++ ('-' :: (zeroPaddedI64 2 d ++
    ('T' :: (zeroPaddedI64 2 hour ++ (':' :: (zeroPaddedI64 2 minute ++
      (':' :: (zeroPaddedI64 2 second ++ ['Z'])))))))))))

end Emitter

section Exactness

theorem i64_eq {value : Int} (low : -2 ^ 63 ≤ value) (high : value < 2 ^ 63) :
    i64 value = some value :=
  if_pos ⟨low, high⟩

theorem bind_known {α β : Type} {first : Option α} {value : α} {next : α → Option β}
    (known : first = some value) : (first >>= next) = next value := by
  rw [known]
  rfl

theorem bind_i64 {α : Type} {value : Int} {next : Int → Option α} (low : -2 ^ 63 ≤ value)
    (high : value < 2 ^ 63) : (i64 value >>= next) = next value :=
  bind_known (i64_eq low high)

theorem yearOfEraDay_eq {doe : Int} (low : 0 ≤ doe) (high : doe ≤ 146096) :
    yearOfEraDay doe = some (yearOfEra doe) := by
  unfold yearOfEraDay
  rw [Int.tdiv_eq_ediv_of_nonneg low, Int.tdiv_eq_ediv_of_nonneg low,
    Int.tdiv_eq_ediv_of_nonneg low, bind_i64, bind_i64, bind_i64, Int.tdiv_eq_ediv_of_nonneg]
  · rfl
  all_goals omega

theorem dayOfYear_eq {doe yoe : Int} (low : 0 ≤ doe) (high : doe ≤ 146096) (first : 0 ≤ yoe)
    (last : yoe < 400) : dayOfYear doe yoe = some (doe - (365 * yoe + yoe / 4 - yoe / 100)) := by
  unfold dayOfYear
  rw [Int.tdiv_eq_ediv_of_nonneg first, Int.tdiv_eq_ediv_of_nonneg first, bind_i64, bind_i64,
    bind_i64, i64_eq]
  all_goals omega

theorem monthAndDay_eq {doy : Int} (low : 0 ≤ doy) (high : doy ≤ 365) :
    monthAndDay doy = some (if monthOfDay doy < 10 then monthOfDay doy + 3 else monthOfDay doy - 9,
      doy - (153 * monthOfDay doy + 2) / 5 + 1) := by
  have month : (5 * doy + 2).tdiv 153 = monthOfDay doy :=
    Int.tdiv_eq_ediv_of_nonneg (by omega)
  have bounds : 0 ≤ monthOfDay doy ∧ monthOfDay doy ≤ 11 := by
    unfold monthOfDay
    omega
  have days : (153 * monthOfDay doy + 2).tdiv 5 = (153 * monthOfDay doy + 2) / 5 :=
    Int.tdiv_eq_ediv_of_nonneg (by omega)
  have range : 1 ≤ (if monthOfDay doy < 10 then monthOfDay doy + 3 else monthOfDay doy - 9) ∧
      (if monthOfDay doy < 10 then monthOfDay doy + 3 else monthOfDay doy - 9) ≤ 12 := by
    split <;> omega
  unfold monthAndDay
  rw [bind_i64, bind_i64, month, bind_i64, bind_i64, days, bind_i64, bind_i64, bind_i64]
  all_goals omega

theorem marchYear_dateAfter (days : Nat) : 0 ≤ (dateAfter days).marchYear ∧
    (dateAfter days).marchYear ≤ days + 1970 := by
  have start := year_dateAfter days
  have number := dayNumber_dateAfter days
  have bounds := marchDay_bounds (exists_dateAfter days)
  have first : 0 ≤ (dateAfter days).marchYear := by
    unfold Date.marchYear
    split <;> omega
  refine ⟨first, ?_⟩
  unfold dayNumber Calendar.daysBefore at number
  omega

/-- No step overflows, and the result is the date that the calendar has after so many days. -/
theorem civilFromDays_eq {days : Nat} (within : days ≤ 2 ^ 60) :
    civilFromDays days = some ((dateAfter days).year, ((dateAfter days).month : Int),
      ((dateAfter days).day : Int)) := by
  have present := exists_dateAfter days
  obtain ⟨era, year, marchDay⟩ := dayNumber_parts present
  have month := monthOfDay_marchDay present
  obtain ⟨first, last, _⟩ := marchDay_bounds present
  obtain ⟨yearFirst, yearLast⟩ := marchYear_dateAfter days
  rw [dayNumber_dateAfter] at era year marchDay
  have start : (0 : Int) ≤ days + 719468 := by omega
  have eraOf : ((days : Int) + 719468).tdiv 146097 = (dateAfter days).marchYear / 400 := by
    rw [Int.tdiv_eq_ediv_of_nonneg start, era]
  have dayRange : 0 ≤ (days : Int) + 719468 - (dateAfter days).marchYear / 400 * 146097 ∧
      (days : Int) + 719468 - (dateAfter days).marchYear / 400 * 146097 ≤ 146096 := by omega
  have day := dayOfYear_eq dayRange.1 dayRange.2
    (Int.emod_nonneg _ (by decide)) (Int.emod_lt_of_pos (dateAfter days).marchYear (by decide))
  rw [marchDay] at day
  have parts := monthAndDay_eq first last
  rw [month] at parts
  have monthField : (if (dateAfter days).marchMonth < 10 then (dateAfter days).marchMonth + 3
      else (dateAfter days).marchMonth - 9) = (dateAfter days).month := by
    have low := present.1.1
    have high := present.1.2
    unfold Date.marchMonth
    split <;> split <;> omega
  have dayField : (dateAfter days).marchDay - (153 * (dateAfter days).marchMonth + 2) / 5 + 1 =
      (dateAfter days).day := by
    unfold Date.marchDay
    omega
  have yearField : (if ((dateAfter days).month : Int) ≤ 2 then (dateAfter days).marchYear + 1
      else (dateAfter days).marchYear) = (dateAfter days).year := by
    unfold Date.marchYear
    split <;> split <;> omega
  have whole : (dateAfter days).marchYear % 400 + (dateAfter days).marchYear / 400 * 400 =
      (dateAfter days).marchYear := by omega
  rw [monthField, dayField] at parts
  have yearRange : 0 ≤ (dateAfter days).year ∧ (dateAfter days).year ≤ days + 1971 := by
    rw [← yearField]
    split <;> omega
  unfold civilFromDays
  rw [bind_i64, if_pos start, bind_i64, eraOf, bind_i64, bind_i64,
    bind_known (yearOfEraDay_eq dayRange.1 dayRange.2), year, bind_i64, bind_i64, whole,
    bind_known day, bind_known parts]
  change i64 (if ((dateAfter days).month : Int) ≤ 2 then _ else _) >>= _ = _
  rw [yearField, bind_i64]
  all_goals omega

theorem zeroPaddedI64_natCast (width value : Nat) :
    zeroPaddedI64 width value = Numerals.zeroPadded width value :=
  if_pos (Int.natCast_nonneg value)

theorem unixToRfc3339_eq (unix : UInt64) : unixToRfc3339 unix =
    some ((timeAfter (min unix.toNat (2 ^ 63 - 1))).text ++ ['Z']) := by
  generalize clamped : min unix.toNat (2 ^ 63 - 1) = seconds
  have unixI64 : (if unix.toNat < 2 ^ 63 then (unix.toNat : Int) else 2 ^ 63 - 1) = seconds := by
    split <;> omega
  have hour : ((seconds : Int) % 86400).tdiv 3600 = ((seconds % 86400 / 3600 : Nat) : Int) := by
    rw [Int.tdiv_eq_ediv_of_nonneg (by omega)]
    rfl
  have minute : (((seconds : Int) % 86400).tmod 3600).tdiv 60 =
      ((seconds % 3600 / 60 : Nat) : Int) := by
    rw [Int.tmod_eq_emod_of_nonneg (by omega), Int.tdiv_eq_ediv_of_nonneg (by omega)]
    omega
  have second : ((seconds : Int) % 86400).tmod 60 = ((seconds % 60 : Nat) : Int) := by
    rw [Int.tmod_eq_emod_of_nonneg (by omega)]
    omega
  have year : (dateAfter (seconds / 86400)).year = ((dateAfter (seconds / 86400)).year.toNat : Int) := by
    have start := year_dateAfter (seconds / 86400)
    omega
  have date := @civilFromDays_eq (seconds / 86400) (by omega)
  rw [year] at date
  unfold unixToRfc3339
  rw [unixI64]
  dsimp only
  rw [hour, minute, second]
  refine (bind_known date).trans ?_
  simp only [zeroPaddedI64_natCast]
  rw [CivilTime.text, timeAfter]
  simp only [List.append_assoc, List.cons_append]

theorem lt_of_year {seconds : Nat} (year : (timeAfter seconds).date.year ≤ 9999) :
    seconds < 10 ^ 12 := by
  have start : 1970 ≤ (timeAfter seconds).date.year := year_dateAfter (seconds / 86400)
  have present := exists_timeAfter seconds
  have fits := Ct.fits_of_exists present ⟨by omega, year⟩
  have long := (monthLength_bounds (timeAfter seconds).date.year (timeAfter seconds).date.month).2
  have bounds := Ct.secondNumber_bounds fits.year present.1.1.2
    (Nat.le_trans present.1.2.2 long) fits.hour fits.minute fits.second
  rw [secondNumber_timeAfter] at bounds
  omega

theorem dayNumber_nonneg {date : Date} (present : date.Exists) (year : 1970 ≤ date.year) :
    0 ≤ dayNumber date := by
  rcases present with ⟨⟨low, high⟩, first, _⟩
  unfold dayNumber Calendar.daysBefore Date.marchDay Date.marchMonth Date.marchYear
  split <;> omega

/-- On the years of four digits the parser reads the emitted time back. -/
theorem parse_emitted {seconds : Nat} (year : (timeAfter seconds).date.year ≤ 9999) :
    ∃ ms : UInt64, Ct.parseRfc3339ToUnixMs ((timeAfter seconds).text ++ ['Z']) = .ok ms ∧
      ms.toNat = seconds * 1000 := by
  have denotes : Ct.Denotes ((timeAfter seconds).text ++ ['Z']) (seconds * 1000 : Nat) := by
    refine Ct.denotes_natCast_iff.mpr ⟨seconds, [], year, .inl rfl, ?_, (Nat.add_zero _).symm⟩
    rw [List.append_nil]
  obtain ⟨shaped, _, count⟩ := Ct.denotes_iff.mp denotes
  have same := Ct.stampMs_fits shaped
  rw [← count] at same
  exact ⟨_, Ct.parse_ok_iff.mpr ⟨shaped, Ct.stampMs_fits shaped⟩, same⟩

/-- Up to the greatest 64-bit second the emitter prints the time that the calendar has then, and
with a year of four digits its text and its seconds are each other's reading. -/
theorem emittedTimes_exact :
    (∀ unix : UInt64, (timeAfter (min unix.toNat (2 ^ 63 - 1))).Exists ∧
      unixToRfc3339 unix = some ((timeAfter (min unix.toNat (2 ^ 63 - 1))).text ++ ['Z'])) ∧
    (∀ unix other : UInt64, unix.toNat ≤ 2 ^ 63 - 1 → other.toNat ≤ 2 ^ 63 - 1 →
      unixToRfc3339 unix = unixToRfc3339 other → unix = other) ∧
    (∀ unix : UInt64, (timeAfter unix.toNat).date.year ≤ 9999 → ∃ text ms,
      unixToRfc3339 unix = some text ∧ Ct.parseRfc3339ToUnixMs text = .ok ms ∧
        ms.toNat = unix.toNat * 1000) ∧
    (∀ time : CivilTime, time.Exists → 1970 ≤ time.date.year → time.date.year ≤ 9999 →
      ∃ unix ms : UInt64, unixToRfc3339 unix = some (time.text ++ ['Z']) ∧
        Ct.parseRfc3339ToUnixMs (time.text ++ ['Z']) = .ok ms ∧ ms.toNat = unix.toNat * 1000) := by
  refine ⟨?_, ?_, ?_, ?_⟩
  · intro unix
    exact ⟨exists_timeAfter _, unixToRfc3339_eq unix⟩
  · intro unix other small small' same
    rw [unixToRfc3339_eq, unixToRfc3339_eq, Nat.min_eq_left small, Nat.min_eq_left small',
      Option.some.injEq] at same
    exact UInt64.toNat_inj.mp (text_timeAfter_inj (List.append_cancel_right same))
  · intro unix year
    obtain ⟨ms, read, count⟩ := parse_emitted year
    have small := lt_of_year year
    have printed := unixToRfc3339_eq unix
    rw [Nat.min_eq_left (by omega)] at printed
    exact ⟨_, ms, printed, read, count⟩
  · intro time present first last
    have start : 0 ≤ time.secondNumber := by
      have days := dayNumber_nonneg present.1 first
      unfold CivilTime.secondNumber
      omega
    have reached := timeAfter_eq_iff.mpr ⟨present, (Int.toNat_of_nonneg start).symm⟩
    rw [← reached] at last
    have small := lt_of_year last
    obtain ⟨ms, read, count⟩ := parse_emitted last
    have seconds : (UInt64.ofNat time.secondNumber.toNat).toNat = time.secondNumber.toNat :=
      UInt64.toNat_ofNat_of_lt' (Nat.lt_trans small (by decide))
    have printed := unixToRfc3339_eq (UInt64.ofNat time.secondNumber.toNat)
    rw [seconds, Nat.min_eq_left (by omega), reached] at printed
    rw [reached] at read
    rw [← seconds] at count
    exact ⟨_, ms, printed, read, count⟩

end Exactness

end Pkix.Lint
