import Pkix.Ct.MerkleInclusion
import Pkix.Lib.Calendar

/-! The timestamps of a log list, read from their fixed places. -/

namespace Pkix.Ct

open Pkix.Path Calendar Walk
open StdText (utf8)

abbrev Text := List Char

section Parser

def isDigit (octet : UInt8) : Bool := decide (48 ≤ octet.toNat) && decide (octet.toNat ≤ 57)

def parseDigitsFrom : (out : Nat) → Bytes → Result Nat
  | out, [] => .ok out
  | out, octet :: rest =>
      if isDigit octet then
        if out * 10 + (octet.toNat - 48) < 2 ^ 32 then
          parseDigitsFrom (out * 10 + (octet.toNat - 48)) rest
        else .error .parseError
      else .error .parseError

def parseDigits (bytes : Bytes) : Result Nat := parseDigitsFrom 0 bytes

/-- The octets from one place up to another. -/
def slice (bytes : Bytes) (start stop : Nat) : Bytes := (bytes.take stop).drop start

def capitalT : UInt8 := 84
def capitalZ : UInt8 := 90
def fullStop : UInt8 := 46
def hyphen : UInt8 := 45
def colon : UInt8 := 58

/-- The optional fraction at place 19: of its digits the first three are read. -/
def parseFraction (bytes : Bytes) : Result Nat :=
  if bytes[19]? = some fullStop then
    let fraction := slice bytes 20 (bytes.length - 1)
    if fraction.isEmpty ∨ 6 < fraction.length then .error .parseError
    else parseDigits (fraction.take 3 ++ List.replicate (3 - fraction.length) 48)
  else if bytes[19]? ≠ some capitalZ then .error .parseError
  else .ok 0

/-- A 64-bit sum, wrapped. -/
def wrapI64 (value : Int) : Int := value.bmod (2 ^ 64)

/-- With four digits of year, the 32-bit steps stay in range. -/
def daysFromCivil (year : Int) (month day : Nat) : Result Int :=
  if ¬ (1 ≤ month ∧ month ≤ 12) ∨ ¬ (1 ≤ day ∧ day ≤ 31) then .error .parseError
  else
    let y := if month ≤ 2 then year - 1 else year
    let era := (if 0 ≤ y then y else y - 399).tdiv 400
    let yoe := y - era * 400
    let doy := (153 * (if 2 < month then (month : Int) - 3 else month + 9) + 2) / 5 + day - 1
    let doe := yoe * 365 + yoe / 4 - yoe / 100 + doy
    .ok (wrapI64 (era * 146097 + doe - 719468))

/-- Every error is the same one. -/
def parseRfc3339ToUnixMs (text : Text) : Result UInt64 :=
  let bytes := utf8 text
  if bytes.length < 20 ∨ bytes[10]? ≠ some capitalT ∨ bytes.getLast? ≠ some capitalZ then
    .error .parseError
  else do
    let year ← parseDigits (slice bytes 0 4)
    let month ← parseDigits (slice bytes 5 7)
    let day ← parseDigits (slice bytes 8 10)
    let hour ← parseDigits (slice bytes 11 13)
    let minute ← parseDigits (slice bytes 14 16)
    let second ← parseDigits (slice bytes 17 19)
    let fracMs ← parseFraction bytes
    let days ← daysFromCivil year month day
    let secs := wrapI64 (days * 86400 + hour * 3600 + minute * 60 + second)
    if secs < 0 then .error .parseError
    else .ok (UInt64.ofNat secs.toNat * 1000 + UInt64.ofNat fracMs)

end Parser

section Specification

def IsFraction (fraction : Text) : Prop :=
  fraction = [] ∨ ∃ digits : Text, fraction = '.' :: digits ∧ 1 ≤ digits.length ∧
    digits.length ≤ 6 ∧ ∀ char ∈ digits, char.isDigit = true

/-- The whole milliseconds of a fraction. -/
def fractionMs (fraction : Text) : Nat :=
  Nat.ofDigitChars 10 fraction.tail 0 * 1000 / 10 ^ fraction.tail.length

/-- The text is that of a time in UTC that exists, and the number counts the milliseconds from the
epoch to it: a time before the epoch has a negative one. -/
def Denotes (text : Text) (ms : Int) : Prop :=
  ∃ (time : CivilTime) (fraction : Text), time.Exists ∧ 0 ≤ time.date.year ∧
    time.date.year ≤ 9999 ∧ IsFraction fraction ∧ text = time.text ++ fraction ++ ['Z'] ∧
    ms = time.secondNumber * 1000 + fractionMs fraction

/-- The number that digits stand for. -/
def digitsValue (bytes : Bytes) : Nat :=
  bytes.foldl (fun value octet => value * 10 + (octet.toNat - 48)) 0

def stampDate (bytes : Bytes) : Date where
  year := digitsValue (slice bytes 0 4)
  month := digitsValue (slice bytes 5 7)
  day := digitsValue (slice bytes 8 10)

def stampTime (bytes : Bytes) : CivilTime where
  date := stampDate bytes
  hour := digitsValue (slice bytes 11 13)
  minute := digitsValue (slice bytes 14 16)
  second := digitsValue (slice bytes 17 19)

def stampFraction (bytes : Bytes) : Bytes := slice bytes 20 (bytes.length - 1)

/-- What the parser looks at. -/
structure Shaped (bytes : Bytes) : Prop where
  long : 20 ≤ bytes.length
  mark : bytes[10]? = some capitalT
  last : bytes.getLast? = some capitalZ
  digits : ∀ octet ∈ slice bytes 0 4 ++ slice bytes 5 7 ++ slice bytes 8 10 ++ slice bytes 11 13 ++
    slice bytes 14 16 ++ slice bytes 17 19, isDigit octet = true
  tail : bytes[19]? = some capitalZ ∨ (bytes[19]? = some fullStop ∧
    1 ≤ (stampFraction bytes).length ∧ (stampFraction bytes).length ≤ 6 ∧
    ∀ octet ∈ (stampFraction bytes).take 3, isDigit octet = true)
  month : 1 ≤ (stampDate bytes).month ∧ (stampDate bytes).month ≤ 12
  day : 1 ≤ (stampDate bytes).day ∧ (stampDate bytes).day ≤ 31
  afterEpoch : 0 ≤ (stampTime bytes).secondNumber

/-- What it leaves unread. -/
structure Sound (bytes : Bytes) : Prop where
  hyphens : bytes[4]? = some hyphen ∧ bytes[7]? = some hyphen
  colons : bytes[13]? = some colon ∧ bytes[16]? = some colon
  time : (stampTime bytes).Exists
  nothingAfter : bytes[19]? = some capitalZ → bytes.length = 20
  fraction : bytes[19]? = some fullStop → ∀ octet ∈ stampFraction bytes, isDigit octet = true

/-- The milliseconds that the parser makes of the octets. -/
def stampFractionMs (bytes : Bytes) : Nat :=
  if bytes[19]? = some fullStop then
    digitsValue ((stampFraction bytes).take 3 ++ List.replicate (3 - (stampFraction bytes).length) 48)
  else 0

def stampMs (bytes : Bytes) : Nat :=
  (stampTime bytes).secondNumber.toNat * 1000 + stampFractionMs bytes

end Specification

section Digits

variable {octet : UInt8} {bytes : Bytes} {value : Nat}

theorem isDigit_iff : isDigit octet = true ↔ 48 ≤ octet.toNat ∧ octet.toNat ≤ 57 := by
  rw [isDigit, Bool.and_eq_true, decide_eq_true_eq, decide_eq_true_eq]

theorem foldl_digits_lt {out : Nat} (digits : ∀ octet ∈ bytes, isDigit octet = true) :
    bytes.foldl (fun value octet => value * 10 + (octet.toNat - 48)) out <
      (out + 1) * 10 ^ bytes.length := by
  induction bytes generalizing out with
  | nil => simp
  | cons octet rest ih =>
      rw [List.forall_mem_cons] at digits
      have digit := isDigit_iff.mp digits.1
      have later := @ih (out * 10 + (octet.toNat - 48)) digits.2
      rw [List.foldl_cons, List.length_cons, pow_succ']
      calc rest.foldl (fun value octet => value * 10 + (octet.toNat - 48))
            (out * 10 + (octet.toNat - 48))
          < (out * 10 + (octet.toNat - 48) + 1) * 10 ^ rest.length := later
        _ ≤ ((out + 1) * 10) * 10 ^ rest.length := Nat.mul_le_mul_right _ (by omega)
        _ = (out + 1) * (10 * 10 ^ rest.length) := Nat.mul_assoc ..

theorem digitsValue_lt (digits : ∀ octet ∈ bytes, isDigit octet = true) :
    digitsValue bytes < 10 ^ bytes.length := by
  have bound := @foldl_digits_lt bytes 0 digits
  rw [Nat.zero_add, Nat.one_mul] at bound
  exact bound

/-- Nine digits never overflow the 32-bit number. -/
theorem parseDigitsFrom_ok_iff {out : Nat} (small : (out + 1) * 10 ^ bytes.length ≤ 2 ^ 32) :
    parseDigitsFrom out bytes = .ok value ↔ (∀ octet ∈ bytes, isDigit octet = true) ∧
      value = bytes.foldl (fun value octet => value * 10 + (octet.toNat - 48)) out := by
  induction bytes generalizing out with
  | nil =>
      rw [parseDigitsFrom, Except.ok.injEq, eq_comm]
      exact (and_iff_right (List.forall_mem_nil _)).symm
  | cons octet rest ih =>
      rw [parseDigitsFrom, List.forall_mem_cons, List.foldl_cons]
      split
      · rename_i digit
        have range := isDigit_iff.mp digit
        have next : (out * 10 + (octet.toNat - 48) + 1) * 10 ^ rest.length ≤ 2 ^ 32 := by
          rw [List.length_cons, pow_succ', ← Nat.mul_assoc] at small
          exact Nat.le_trans (Nat.mul_le_mul_right _ (by omega)) small
        have positive : 0 < 10 ^ rest.length := Nat.pow_pos (by decide)
        have fits : out * 10 + (octet.toNat - 48) < 2 ^ 32 :=
          Nat.lt_of_lt_of_le (Nat.lt_succ_self _)
            (Nat.le_trans (Nat.le_mul_of_pos_right _ positive) next)
        rw [if_pos fits, ih next, and_assoc]
        exact (and_iff_right digit).symm
      · rename_i other
        simp [other]

theorem parseDigits_ok_iff (short : bytes.length ≤ 4) :
    parseDigits bytes = .ok value ↔
      (∀ octet ∈ bytes, isDigit octet = true) ∧ value = digitsValue bytes := by
  apply parseDigitsFrom_ok_iff
  calc (0 + 1) * 10 ^ bytes.length
      ≤ (0 + 1) * 10 ^ 4 := Nat.mul_le_mul_left _ (Nat.pow_le_pow_right (by decide) short)
    _ ≤ 2 ^ 32 := by decide

theorem length_slice_le (bytes : Bytes) (start stop : Nat) :
    (slice bytes start stop).length ≤ stop - start := by
  rw [slice, List.length_drop, List.length_take]
  omega

end Digits

section Steps

theorem wrapI64_eq {value : Int} (low : -2 ^ 63 ≤ value) (high : value < 2 ^ 63) :
    wrapI64 value = value :=
  Int.bmod_eq_of_le (by omega) (by omega)

theorem tdiv_eq_ediv (year : Int) :
    (if 0 ≤ year then year else year - 399).tdiv 400 = year / 400 := by
  split
  · exact Int.tdiv_eq_ediv_of_nonneg (by assumption)
  · rename_i negative
    have positive : (year - 399).tdiv 400 = -((399 - year).tdiv 400) := by
      rw [← Int.neg_tdiv]
      congr 1
      omega
    rw [positive, Int.tdiv_eq_ediv_of_nonneg (by omega)]
    omega

/-- The number of the date, where the day may be past the end of its month. -/
theorem daysFromCivil_ok_iff {year : Int} {month day : Nat} {days : Int}
    (fourDigits : 0 ≤ year ∧ year ≤ 9999) :
    daysFromCivil year month day = .ok days ↔ (1 ≤ month ∧ month ≤ 12) ∧ (1 ≤ day ∧ day ≤ 31) ∧
      days = dayNumber ⟨year, month, day⟩ := by
  unfold daysFromCivil
  split
  · rename_i outside
    constructor
    · intro accepted
      cases accepted
    · intro inside
      omega
  · rename_i inside
    have number : (if month ≤ 2 then year - 1 else year) / 400 * 146097 +
        (((if month ≤ 2 then year - 1 else year) -
            (if month ≤ 2 then year - 1 else year) / 400 * 400) * 365 +
          ((if month ≤ 2 then year - 1 else year) -
            (if month ≤ 2 then year - 1 else year) / 400 * 400) / 4 -
          ((if month ≤ 2 then year - 1 else year) -
            (if month ≤ 2 then year - 1 else year) / 400 * 400) / 100 +
          ((153 * (if 2 < month then (month : Int) - 3 else month + 9) + 2) / 5 + day - 1)) -
        719468 = dayNumber ⟨year, month, day⟩ := by
      unfold dayNumber daysBefore Date.marchDay Date.marchMonth Date.marchYear
      dsimp only
      split <;> split <;> omega
    have bounds : -720000 ≤ dayNumber ⟨year, month, day⟩ ∧
        dayNumber ⟨year, month, day⟩ ≤ 366 * year :=
      dayNumber_bounds fourDigits.1 (by dsimp only; omega) (by dsimp only; omega)
    dsimp only
    rw [tdiv_eq_ediv, number, wrapI64_eq (by omega) (by omega), Except.ok.injEq, eq_comm]
    constructor
    · intro same
      exact ⟨by omega, by omega, same⟩
    · intro inside
      exact inside.2.2

theorem parseSlice_ok_iff {bytes : Bytes} {start stop value : Nat} (narrow : stop - start ≤ 4) :
    parseDigits (slice bytes start stop) = .ok value ↔
      (∀ octet ∈ slice bytes start stop, isDigit octet = true) ∧
        value = digitsValue (slice bytes start stop) :=
  parseDigits_ok_iff (Nat.le_trans (length_slice_le bytes start stop) narrow)

/-- A short fraction is filled up with zeros to three digits. -/
theorem length_filled (digits : Bytes) :
    (digits.take 3 ++ List.replicate (3 - digits.length) (48 : UInt8)).length = 3 := by
  rw [List.length_append, List.length_take, List.length_replicate]
  omega

theorem isDigit_filled {digits : Bytes} :
    (∀ octet ∈ digits.take 3 ++ List.replicate (3 - digits.length) (48 : UInt8),
      isDigit octet = true) ↔ ∀ octet ∈ digits.take 3, isDigit octet = true := by
  have zeros : ∀ octet ∈ List.replicate (3 - digits.length) (48 : UInt8), isDigit octet = true := by
    intro octet zero
    rw [List.eq_of_mem_replicate zero]
    decide
  rw [List.forall_mem_append, and_iff_left zeros]

theorem parseFraction_ok_iff {bytes : Bytes} {value : Nat} :
    parseFraction bytes = .ok value ↔ (bytes[19]? = some capitalZ ∨ (bytes[19]? = some fullStop ∧
      1 ≤ (stampFraction bytes).length ∧ (stampFraction bytes).length ≤ 6 ∧
      ∀ octet ∈ (stampFraction bytes).take 3, isDigit octet = true)) ∧
      value = stampFractionMs bytes := by
  unfold parseFraction stampFractionMs
  split
  · rename_i point
    have notZ : bytes[19]? ≠ some capitalZ := by
      rw [point]
      decide
    change (if (stampFraction bytes).isEmpty ∨ 6 < (stampFraction bytes).length
      then Except.error Error.parseError else _) = _ ↔ _
    split
    · rename_i outside
      constructor
      · intro accepted
        cases accepted
      · intro inside
        rcases inside.1 with plain | ⟨_, some, short, _⟩
        · exact absurd plain notZ
        · rcases outside with empty | long
          · rw [List.isEmpty_iff_length_eq_zero] at empty
            omega
          · omega
    · rename_i inside
      rw [List.isEmpty_iff_length_eq_zero] at inside
      change parseDigits ((stampFraction bytes).take 3 ++
        List.replicate (3 - (stampFraction bytes).length) 48) = _ ↔ _
      have three := length_filled (stampFraction bytes)
      rw [parseDigits_ok_iff (by omega), isDigit_filled]
      refine and_congr_left fun _ => ?_
      constructor
      · intro digits
        exact .inr ⟨point, by omega, by omega, digits⟩
      · intro fraction
        rcases fraction with plain | ⟨_, _, _, digits⟩
        · exact absurd plain notZ
        · exact digits
  · rename_i noPoint
    split
    · rename_i neither
      constructor
      · intro accepted
        cases accepted
      · intro shaped
        rcases shaped.1 with plain | pointed
        · exact absurd plain neither
        · exact absurd pointed.1 noPoint
    · rename_i plain
      rw [Except.ok.injEq, and_iff_right (.inl (not_not.mp plain)), eq_comm]

variable {bytes : Bytes}

theorem digitsValue_slice_lt {start stop : Nat}
    (digits : ∀ octet ∈ slice bytes start stop, isDigit octet = true) :
    digitsValue (slice bytes start stop) < 10 ^ (stop - start) :=
  Nat.lt_of_lt_of_le (digitsValue_lt digits)
    (Nat.pow_le_pow_right (by decide) (length_slice_le bytes start stop))

theorem Shaped.fields (shaped : Shaped bytes) :
    (0 ≤ (stampDate bytes).year ∧ (stampDate bytes).year ≤ 9999) ∧
      (stampTime bytes).hour < 100 ∧ (stampTime bytes).minute < 100 ∧
      (stampTime bytes).second < 100 := by
  have digits := shaped.digits
  simp only [List.forall_mem_append] at digits
  rcases digits with ⟨⟨⟨⟨⟨year, _⟩, _⟩, hour⟩, minute⟩, second⟩
  have fourDigits := digitsValue_slice_lt year
  refine ⟨⟨Int.natCast_nonneg _, ?_⟩, digitsValue_slice_lt hour, digitsValue_slice_lt minute,
    digitsValue_slice_lt second⟩
  exact Int.ofNat_le.mpr (Nat.le_of_lt_succ fourDigits)

/-- With the fields of two digits, far from the ends of the 64 bits. -/
theorem secondNumber_bounds {time : CivilTime} (year : 0 ≤ time.date.year ∧ time.date.year ≤ 9999)
    (month : time.date.month ≤ 12) (day : time.date.day ≤ 31) (hour : time.hour < 100)
    (minute : time.minute < 100) (second : time.second < 100) :
    -2 ^ 63 ≤ time.secondNumber ∧ time.secondNumber < 10 ^ 12 := by
  have days := dayNumber_bounds year.1 month day
  unfold CivilTime.secondNumber
  omega

theorem stampFractionMs_lt (digits : bytes[19]? = some fullStop →
    ∀ octet ∈ (stampFraction bytes).take 3, isDigit octet = true) :
    stampFractionMs bytes < 10 ^ 12 := by
  unfold stampFractionMs
  split
  · rename_i point
    rw [← isDigit_filled] at digits
    have bound := digitsValue_lt (digits point)
    rw [length_filled] at bound
    exact Nat.lt_trans bound (by decide)
  · decide

theorem stampMs_fits (shaped : Shaped bytes) :
    (UInt64.ofNat (stampTime bytes).secondNumber.toNat * 1000 +
      UInt64.ofNat (stampFractionMs bytes)).toNat = stampMs bytes := by
  rcases shaped.fields with ⟨year, hour, minute, second⟩
  have range := secondNumber_bounds year shaped.month.2 shaped.day.2 hour minute second
  have small : stampFractionMs bytes < 10 ^ 12 := by
    apply stampFractionMs_lt
    intro point
    rcases shaped.tail with plain | pointed
    · rw [point] at plain
      cases plain
    · exact pointed.2.2.2
  have seconds : (stampTime bytes).secondNumber.toNat < 10 ^ 12 := by
    have start := shaped.afterEpoch
    omega
  have secondsOf : (UInt64.ofNat (stampTime bytes).secondNumber.toNat).toNat =
      (stampTime bytes).secondNumber.toNat :=
    UInt64.toNat_ofNat_of_lt' (Nat.lt_trans seconds (by decide))
  have fractionOf : (UInt64.ofNat (stampFractionMs bytes)).toNat = stampFractionMs bytes :=
    UInt64.toNat_ofNat_of_lt' (Nat.lt_trans small (by decide))
  have product : (stampTime bytes).secondNumber.toNat * 1000 % 2 ^ 64 =
      (stampTime bytes).secondNumber.toNat * 1000 := Nat.mod_eq_of_lt (by omega)
  rw [stampMs, UInt64.toNat_add, UInt64.toNat_mul, secondsOf, fractionOf]
  change ((stampTime bytes).secondNumber.toNat * 1000 % 2 ^ 64 + stampFractionMs bytes) % 2 ^ 64 = _
  rw [product]
  exact Nat.mod_eq_of_lt (by omega)

/-- The last step: the seconds keep their sign, and the milliseconds their size. -/
theorem milliseconds_eq {time : CivilTime} {fracMs : Nat}
    (range : -2 ^ 63 ≤ time.secondNumber ∧ time.secondNumber < 10 ^ 12) :
    (if wrapI64 time.secondNumber < 0 then Except.error Error.parseError
      else .ok (UInt64.ofNat (wrapI64 time.secondNumber).toNat * 1000 + UInt64.ofNat fracMs)) =
    if time.secondNumber < 0 then Except.error Error.parseError
      else .ok (UInt64.ofNat time.secondNumber.toNat * 1000 + UInt64.ofNat fracMs) := by
  rw [wrapI64_eq range.1 (by omega)]

theorem unguarded (inside : ¬ (bytes.length < 20 ∨ bytes[10]? ≠ some capitalT ∨
    bytes.getLast? ≠ some capitalZ)) :
    20 ≤ bytes.length ∧ bytes[10]? = some capitalT ∧ bytes.getLast? = some capitalZ := by
  rw [not_or, not_or, Nat.not_lt, not_not, not_not] at inside
  exact inside

theorem shaped_of_parse {text : Text} {ms : UInt64}
    (accepted : parseRfc3339ToUnixMs text = .ok ms) :
    Shaped (utf8 text) ∧ ms.toNat = stampMs (utf8 text) := by
  unfold parseRfc3339ToUnixMs at accepted
  dsimp only at accepted
  generalize utf8 text = bytes at accepted ⊢
  split at accepted
  · cases accepted
  · rename_i inside
    obtain ⟨long, mark, last⟩ := unguarded inside
    obtain ⟨_, readYear, accepted⟩ := bind_ok.mp accepted
    obtain ⟨_, readMonth, accepted⟩ := bind_ok.mp accepted
    obtain ⟨_, readDay, accepted⟩ := bind_ok.mp accepted
    obtain ⟨_, readHour, accepted⟩ := bind_ok.mp accepted
    obtain ⟨_, readMinute, accepted⟩ := bind_ok.mp accepted
    obtain ⟨_, readSecond, accepted⟩ := bind_ok.mp accepted
    obtain ⟨_, readFraction, accepted⟩ := bind_ok.mp accepted
    obtain ⟨_, counted, accepted⟩ := bind_ok.mp accepted
    obtain ⟨year, rfl⟩ := (parseSlice_ok_iff (by decide)).mp readYear
    obtain ⟨month, rfl⟩ := (parseSlice_ok_iff (by decide)).mp readMonth
    obtain ⟨day, rfl⟩ := (parseSlice_ok_iff (by decide)).mp readDay
    obtain ⟨hour, rfl⟩ := (parseSlice_ok_iff (by decide)).mp readHour
    obtain ⟨minute, rfl⟩ := (parseSlice_ok_iff (by decide)).mp readMinute
    obtain ⟨second, rfl⟩ := (parseSlice_ok_iff (by decide)).mp readSecond
    obtain ⟨tail, rfl⟩ := parseFraction_ok_iff.mp readFraction
    have years : 0 ≤ (stampDate bytes).year ∧ (stampDate bytes).year ≤ 9999 :=
      ⟨Int.natCast_nonneg _, Int.ofNat_le.mpr (Nat.le_of_lt_succ (digitsValue_slice_lt year))⟩
    obtain ⟨monthRange, dayRange, rfl⟩ := (daysFromCivil_ok_iff years).mp counted
    have range := @secondNumber_bounds (stampTime bytes) years monthRange.2 dayRange.2
      (digitsValue_slice_lt hour) (digitsValue_slice_lt minute) (digitsValue_slice_lt second)
    have accepted := (milliseconds_eq range).symm.trans accepted
    split at accepted
    · cases accepted
    · rename_i start
      have shaped : Shaped bytes := by
        refine ⟨long, mark, last, ?_, tail, monthRange, dayRange, Int.not_lt.mp start⟩
        simp only [List.forall_mem_append]
        exact ⟨⟨⟨⟨⟨year, month⟩, day⟩, hour⟩, minute⟩, second⟩
      refine ⟨shaped, ?_⟩
      rw [← Except.ok.inj accepted]
      exact stampMs_fits shaped

theorem parse_of_shaped {text : Text} {ms : UInt64} (shaped : Shaped (utf8 text))
    (same : ms.toNat = stampMs (utf8 text)) : parseRfc3339ToUnixMs text = .ok ms := by
  unfold parseRfc3339ToUnixMs
  dsimp only
  generalize utf8 text = bytes at shaped same ⊢
  have digits := shaped.digits
  simp only [List.forall_mem_append] at digits
  rcases digits with ⟨⟨⟨⟨⟨year, month⟩, day⟩, hour⟩, minute⟩, second⟩
  rcases shaped.fields with ⟨years, hours, minutes, seconds⟩
  have range := secondNumber_bounds years shaped.month.2 shaped.day.2 hours minutes seconds
  split
  · rename_i outside
    rcases outside with short | unmarked | unended
    · exact absurd shaped.long (by omega)
    · exact absurd shaped.mark unmarked
    · exact absurd shaped.last unended
  · refine bind_ok.mpr ⟨_, (parseSlice_ok_iff (by decide)).mpr ⟨year, rfl⟩, ?_⟩
    refine bind_ok.mpr ⟨_, (parseSlice_ok_iff (by decide)).mpr ⟨month, rfl⟩, ?_⟩
    refine bind_ok.mpr ⟨_, (parseSlice_ok_iff (by decide)).mpr ⟨day, rfl⟩, ?_⟩
    refine bind_ok.mpr ⟨_, (parseSlice_ok_iff (by decide)).mpr ⟨hour, rfl⟩, ?_⟩
    refine bind_ok.mpr ⟨_, (parseSlice_ok_iff (by decide)).mpr ⟨minute, rfl⟩, ?_⟩
    refine bind_ok.mpr ⟨_, (parseSlice_ok_iff (by decide)).mpr ⟨second, rfl⟩, ?_⟩
    refine bind_ok.mpr ⟨_, parseFraction_ok_iff.mpr ⟨shaped.tail, rfl⟩, ?_⟩
    refine bind_ok.mpr ⟨_, (daysFromCivil_ok_iff years).mpr ⟨shaped.month, shaped.day, rfl⟩, ?_⟩
    refine (milliseconds_eq range).trans ?_
    rw [if_neg (Int.not_lt.mpr shaped.afterEpoch), Except.ok.injEq, ← UInt64.toNat_inj, same]
    exact stampMs_fits shaped

/-- The parser accepts what has its shape. -/
theorem parse_ok_iff {text : Text} {ms : UInt64} : parseRfc3339ToUnixMs text = .ok ms ↔
    Shaped (utf8 text) ∧ ms.toNat = stampMs (utf8 text) :=
  ⟨shaped_of_parse, fun stamped => parse_of_shaped stamped.1 stamped.2⟩

end Steps

section Octets

variable {digits : Text} {bytes tail : Bytes} {time : CivilTime}

theorem ascii_of_isDigit (decimal : ∀ char ∈ digits, char.isDigit = true) :
    ∀ char ∈ digits, 48 ≤ char.toNat ∧ char.toNat ≤ 57 := by
  intro char present
  have digit := decimal char present
  rw [Char.isDigit, Bool.and_eq_true, decide_eq_true_eq, decide_eq_true_eq] at digit
  exact digit

theorem utf8_digits (decimal : ∀ char ∈ digits, char.isDigit = true) :
    utf8 digits = digits.map fun char => UInt8.ofNat char.toNat :=
  StdText.utf8_ascii fun char present =>
    Nat.lt_of_le_of_lt (ascii_of_isDigit decimal char present).2 (by decide)

theorem length_utf8_digits (decimal : ∀ char ∈ digits, char.isDigit = true) :
    (utf8 digits).length = digits.length := by
  rw [utf8_digits decimal, List.length_map]

theorem toNat_ofNat_digit {char : Char} (digit : 48 ≤ char.toNat ∧ char.toNat ≤ 57) :
    (UInt8.ofNat char.toNat).toNat = char.toNat :=
  UInt8.toNat_ofNat_of_lt' (Nat.lt_of_le_of_lt digit.2 (by decide))

theorem isDigit_utf8 (decimal : ∀ char ∈ digits, char.isDigit = true) :
    ∀ octet ∈ utf8 digits, isDigit octet = true := by
  intro octet present
  rw [utf8_digits decimal] at present
  obtain ⟨char, among, rfl⟩ := List.mem_map.mp present
  have digit := ascii_of_isDigit decimal char among
  rw [isDigit_iff, toNat_ofNat_digit digit]
  exact digit

theorem digitsValue_utf8 (decimal : ∀ char ∈ digits, char.isDigit = true) :
    digitsValue (utf8 digits) = Nat.ofDigitChars 10 digits 0 := by
  rw [utf8_digits decimal, digitsValue, Nat.ofDigitChars_eq_foldl, List.foldl_map]
  apply List.foldl_ext
  intro value char present
  rw [toNat_ofNat_digit (ascii_of_isDigit decimal char present), Nat.mul_comm]
  rfl

theorem exists_digits (decimal : ∀ octet ∈ bytes, isDigit octet = true) :
    ∃ digits : Text, (∀ char ∈ digits, char.isDigit = true) ∧ utf8 digits = bytes := by
  have numbers : ∀ octet ∈ bytes, (Char.ofNat octet.toNat).toNat = octet.toNat := by
    intro octet present
    have range := isDigit_iff.mp (decimal octet present)
    have valid : octet.toNat.isValidChar := .inl (by omega)
    rw [Char.ofNat, dif_pos valid]
    rfl
  have digits : ∀ char ∈ bytes.map (fun octet => Char.ofNat octet.toNat), char.isDigit = true := by
    intro char present
    obtain ⟨octet, among, rfl⟩ := List.mem_map.mp present
    have range := isDigit_iff.mp (decimal octet among)
    rw [Char.isDigit, Bool.and_eq_true, decide_eq_true_eq, decide_eq_true_eq]
    rw [← numbers octet among] at range
    exact range
  refine ⟨_, digits, ?_⟩
  rw [utf8_digits digits, List.map_map]
  refine (List.map_congr_left ?_).trans (List.map_id bytes)
  intro octet present
  change UInt8.ofNat (Char.ofNat octet.toNat).toNat = octet
  rw [numbers octet present, UInt8.ofNat_toNat]

/-- The octets of a number in its width. -/
def padded (width value : Nat) : Bytes := utf8 (Numerals.zeroPadded width value)

theorem isDigit_zeroPadded (width value : Nat) :
    ∀ char ∈ Numerals.zeroPadded width value, char.isDigit = true := by
  intro char present
  have digit := Numerals.digit_of_zeroPadded present
  rw [Char.isDigit, Bool.and_eq_true, decide_eq_true_eq, decide_eq_true_eq]
  exact digit

theorem digitsValue_padded (width value : Nat) : digitsValue (padded width value) = value := by
  rw [padded, digitsValue_utf8 (isDigit_zeroPadded width value), Numerals.ofDigitChars_zeroPadded]

theorem length_padded {width value : Nat} (positive : 0 < width) (small : value < 10 ^ width) :
    (padded width value).length = width := by
  rw [padded, length_utf8_digits (isDigit_zeroPadded width value),
    Numerals.length_zeroPadded positive small]

theorem padded_digitsValue (decimal : ∀ octet ∈ bytes, isDigit octet = true)
    (nonempty : bytes ≠ []) : padded bytes.length (digitsValue bytes) = bytes := by
  obtain ⟨digits, isDigits, rfl⟩ := exists_digits decimal
  have some : digits ≠ [] := by
    intro none
    rw [none] at nonempty
    exact nonempty rfl
  rw [length_utf8_digits isDigits, digitsValue_utf8 isDigits, padded,
    Numerals.zeroPadded_ofDigitChars some isDigits]

theorem length_slice {start stop : Nat} (within : stop ≤ bytes.length) :
    (slice bytes start stop).length = stop - start := by
  rw [slice, List.length_drop, List.length_take, Nat.min_eq_left within]

theorem slice_append_drop {start stop : Nat} (order : start ≤ stop) :
    slice bytes start stop ++ bytes.drop stop = bytes.drop start := by
  have split : bytes.drop stop = (bytes.drop start).drop (stop - start) := by
    rw [List.drop_drop, Nat.add_sub_cancel' order]
  rw [slice, List.drop_take, split]
  exact List.take_append_drop (stop - start) (bytes.drop start)

theorem cons_drop {place : Nat} {octet : UInt8} (present : bytes[place]? = some octet) :
    octet :: bytes.drop (place + 1) = bytes.drop place := by
  obtain ⟨within, same⟩ := List.getElem?_eq_some_iff.mp present
  rw [List.drop_eq_getElem_cons within, same]

/-- The octets are those of the time's text, and the tail comes after them. -/
structure Written (bytes : Bytes) (time : CivilTime) (tail : Bytes) : Prop where
  year : slice bytes 0 4 = padded 4 time.date.year.toNat
  month : slice bytes 5 7 = padded 2 time.date.month
  day : slice bytes 8 10 = padded 2 time.date.day
  hour : slice bytes 11 13 = padded 2 time.hour
  minute : slice bytes 14 16 = padded 2 time.minute
  second : slice bytes 17 19 = padded 2 time.second
  hyphens : bytes[4]? = some hyphen ∧ bytes[7]? = some hyphen
  mark : bytes[10]? = some capitalT
  colons : bytes[13]? = some colon ∧ bytes[16]? = some colon
  rest : bytes.drop 19 = tail

theorem utf8_text (time : CivilTime) : utf8 time.text = padded 4 time.date.year.toNat ++
    (hyphen :: (padded 2 time.date.month ++ (hyphen :: (padded 2 time.date.day ++
      (capitalT :: (padded 2 time.hour ++ (colon :: (padded 2 time.minute ++
        (colon :: padded 2 time.second))))))))) := by
  have hyphenated : ∀ rest, utf8 ('-' :: rest) = hyphen :: utf8 rest := fun rest => rfl
  have marked : ∀ rest, utf8 ('T' :: rest) = capitalT :: utf8 rest := fun rest => rfl
  have coloned : ∀ rest, utf8 (':' :: rest) = colon :: utf8 rest := fun rest => rfl
  simp only [CivilTime.text, StdText.utf8_append, hyphenated, marked, coloned, padded]

theorem Written.eq (written : Written bytes time tail) : bytes = utf8 time.text ++ tail := by
  have year := @slice_append_drop bytes 0 4 (by decide)
  have month := @slice_append_drop bytes 5 7 (by decide)
  have day := @slice_append_drop bytes 8 10 (by decide)
  have hour := @slice_append_drop bytes 11 13 (by decide)
  have minute := @slice_append_drop bytes 14 16 (by decide)
  have second := @slice_append_drop bytes 17 19 (by decide)
  rw [utf8_text]
  simp only [List.append_assoc, List.cons_append]
  rw [← written.rest, ← written.second, second, cons_drop written.colons.2, ← written.minute,
    minute, cons_drop written.colons.1, ← written.hour, hour, cons_drop written.mark,
    ← written.day, day, cons_drop written.hyphens.2, ← written.month, month,
    cons_drop written.hyphens.1, ← written.year, year]
  rfl

/-- The fields fit their digits. -/
structure Fits (time : CivilTime) : Prop where
  year : 0 ≤ time.date.year ∧ time.date.year ≤ 9999
  month : time.date.month < 100
  day : time.date.day < 100
  hour : time.hour < 100
  minute : time.minute < 100
  second : time.second < 100

theorem written_text (fits : Fits time) (tail : Bytes) :
    Written (utf8 time.text ++ tail) time tail := by
  have years := fits.year
  have year : (padded 4 time.date.year.toNat).length = 4 := length_padded (by decide) (by omega)
  have month := length_padded (Nat.succ_pos 1) fits.month
  have day := length_padded (Nat.succ_pos 1) fits.day
  have hour := length_padded (Nat.succ_pos 1) fits.hour
  have minute := length_padded (Nat.succ_pos 1) fits.minute
  have second := length_padded (Nat.succ_pos 1) fits.second
  obtain ⟨y1, y2, y3, y4, year⟩ := List.length_eq_four.mp year
  obtain ⟨m1, m2, month⟩ := List.length_eq_two.mp month
  obtain ⟨d1, d2, day⟩ := List.length_eq_two.mp day
  obtain ⟨h1, h2, hour⟩ := List.length_eq_two.mp hour
  obtain ⟨n1, n2, minute⟩ := List.length_eq_two.mp minute
  obtain ⟨s1, s2, second⟩ := List.length_eq_two.mp second
  have octets : utf8 time.text = [y1, y2, y3, y4, hyphen, m1, m2, hyphen, d1, d2, capitalT, h1, h2,
      colon, n1, n2, colon, s1, s2] := by
    rw [utf8_text, year, month, day, hour, minute, second]
    rfl
  rw [octets]
  exact ⟨year.symm, month.symm, day.symm, hour.symm, minute.symm, second.symm, ⟨rfl, rfl⟩, rfl,
    ⟨rfl, rfl⟩, rfl⟩

theorem Written.stampTime_eq (written : Written bytes time tail) (year : 0 ≤ time.date.year) :
    stampTime bytes = time := by
  rw [stampTime, stampDate, written.year, written.month, written.day, written.hour, written.minute,
    written.second]
  simp only [digitsValue_padded, Int.toNat_of_nonneg year]

theorem fits_of_exists (present : time.Exists)
    (year : 0 ≤ time.date.year ∧ time.date.year ≤ 9999) : Fits time := by
  rcases present with ⟨⟨⟨_, month⟩, _, day⟩, hour, minute, second⟩
  have long := (monthLength_bounds time.date.year time.date.month).2
  exact ⟨year, by omega, by omega, by omega, by omega, by omega⟩

theorem Written.length_eq (written : Written bytes time tail) (some : tail ≠ []) :
    bytes.length = 19 + tail.length := by
  have dropped := written.rest
  have lengths : (bytes.drop 19).length = tail.length := by rw [dropped]
  rw [List.length_drop] at lengths
  have positive := List.length_pos_iff.mpr some
  omega

theorem Written.place (written : Written bytes time tail) : bytes[19]? = tail.head? := by
  rw [← written.rest, List.head?_drop]

theorem stampFraction_eq (bytes : Bytes) :
    stampFraction bytes = (bytes.drop 19).tail.dropLast := by
  rw [stampFraction, slice, List.drop_take, List.tail_drop, List.dropLast_eq_take, List.length_drop,
    Nat.sub_right_comm]

end Octets

section Fractions

variable {digits fraction : Text} {bytes : Bytes}

/-- Three digits of the fraction, filled up with zeros, count its milliseconds. -/
theorem digitsValue_take (decimal : ∀ char ∈ digits, char.isDigit = true)
    (short : digits.length ≤ 6) :
    digitsValue ((utf8 digits).take 3 ++ List.replicate (3 - (utf8 digits).length) 48) =
      Nat.ofDigitChars 10 digits 0 * 1000 / 10 ^ digits.length := by
  have front : ∀ char ∈ digits.take 3, char.isDigit = true :=
    fun char present => decimal char (List.mem_of_mem_take present)
  have back : ∀ char ∈ digits.drop 3, char.isDigit = true :=
    fun char present => decimal char (List.mem_of_mem_drop present)
  have filled : ∀ char ∈ digits.take 3 ++ List.replicate (3 - digits.length) '0',
      char.isDigit = true := by
    rw [List.forall_mem_append]
    refine ⟨front, ?_⟩
    intro char zero
    rw [List.eq_of_mem_replicate zero]
    decide
  have octets : (utf8 digits).take 3 ++ List.replicate (3 - (utf8 digits).length) 48 =
      utf8 (digits.take 3 ++ List.replicate (3 - digits.length) '0') := by
    rw [length_utf8_digits decimal, utf8_digits filled, utf8_digits decimal, List.map_append,
      List.map_take, List.map_replicate]
    rfl
  have whole : Nat.ofDigitChars 10 digits 0 = 10 ^ (digits.length - 3) *
      Nat.ofDigitChars 10 (digits.take 3) 0 + Nat.ofDigitChars 10 (digits.drop 3) 0 := by
    rw [← List.length_drop, ← Nat.ofDigitChars_eq_ofDigitChars_zero, ← Nat.ofDigitChars_append,
      List.take_append_drop]
  have small : Nat.ofDigitChars 10 (digits.drop 3) 0 < 10 ^ (digits.length - 3) := by
    rw [← List.length_drop, ← digitsValue_utf8 back, ← length_utf8_digits back]
    exact digitsValue_lt (isDigit_utf8 back)
  rw [octets, digitsValue_utf8 filled, Nat.ofDigitChars_append, Nat.ofDigitChars_replicate_zero,
    whole]
  generalize digits.length = length at *
  interval_cases length <;> omega

theorem fractionMs_lt (fractional : IsFraction fraction) : fractionMs fraction < 1000 := by
  rcases fractional with none | ⟨digits, pointed, _, _, decimal⟩
  · subst none
    decide
  · subst pointed
    have small : Nat.ofDigitChars 10 digits 0 < 10 ^ digits.length := by
      rw [← digitsValue_utf8 decimal, ← length_utf8_digits decimal]
      exact digitsValue_lt (isDigit_utf8 decimal)
    apply Nat.div_lt_of_lt_mul
    exact Nat.mul_lt_mul_of_pos_right small (by decide)

variable {time : CivilTime} {text : Text} {ms : Nat}

/-- From the epoch on, a timestamp is the text of a time that the calendar reaches. -/
theorem denotes_natCast_iff : Denotes text ms ↔ ∃ seconds fraction,
    (timeAfter seconds).date.year ≤ 9999 ∧ IsFraction fraction ∧
      text = (timeAfter seconds).text ++ fraction ++ ['Z'] ∧
      ms = seconds * 1000 + fractionMs fraction := by
  constructor
  · intro denotes
    obtain ⟨time, fraction, present, _, year, fractional, same, count⟩ := denotes
    have small := fractionMs_lt fractional
    have start : 0 ≤ time.secondNumber := by omega
    have reached := timeAfter_eq_iff.mpr ⟨present, (Int.toNat_of_nonneg start).symm⟩
    refine ⟨time.secondNumber.toNat, fraction, ?_, fractional, ?_, by omega⟩
    · rw [reached]
      exact year
    · rw [reached]
      exact same
  · intro reached
    obtain ⟨seconds, fraction, year, fractional, same, count⟩ := reached
    have start : 1970 ≤ (timeAfter seconds).date.year := year_dateAfter (seconds / 86400)
    refine ⟨timeAfter seconds, fraction, exists_timeAfter seconds, by omega, year, fractional, same,
      ?_⟩
    rw [secondNumber_timeAfter]
    omega

/-- What the octets behind the whole seconds are, when they are those of a fraction. -/
structure Finished (bytes : Bytes) (fraction : Text) : Prop where
  long : 20 ≤ bytes.length
  last : bytes.getLast? = some capitalZ
  tail : bytes[19]? = some capitalZ ∨ (bytes[19]? = some fullStop ∧
    1 ≤ (stampFraction bytes).length ∧ (stampFraction bytes).length ≤ 6 ∧
    ∀ octet ∈ stampFraction bytes, isDigit octet = true)
  nothingAfter : bytes[19]? = some capitalZ → bytes.length = 20
  ms : stampFractionMs bytes = fractionMs fraction

theorem finished (fractional : IsFraction fraction)
    (written : Written bytes time (utf8 (fraction ++ ['Z']))) : Finished bytes fraction := by
  have last : ∀ front, bytes = front ++ [capitalZ] → bytes.getLast? = some capitalZ := by
    intro front split
    rw [split, List.getLast?_concat]
  rcases fractional with none | ⟨digits, pointed, some, short, decimal⟩
  · subst none
    have place : bytes[19]? = some capitalZ := written.place
    have noPoint : bytes[19]? ≠ some fullStop := by
      rw [place]
      decide
    have length : bytes.length = 20 := written.length_eq (List.cons_ne_nil _ _)
    refine ⟨Nat.le_of_eq length.symm, last _ written.eq, .inl place, fun _ => length, ?_⟩
    rw [stampFractionMs, if_neg noPoint]
    rfl
  · subst pointed
    have octets : utf8 (('.' :: digits) ++ ['Z']) = fullStop :: (utf8 digits ++ [capitalZ]) := by
      change fullStop :: utf8 (digits ++ ['Z']) = _
      rw [StdText.utf8_append]
      rfl
    rw [octets] at written
    have place : bytes[19]? = .some fullStop := written.place
    have fraction : stampFraction bytes = utf8 digits := by
      rw [stampFraction_eq, written.rest, List.tail_cons, List.dropLast_concat]
    have length : bytes.length = 19 + (utf8 digits ++ [capitalZ]).length.succ :=
      written.length_eq (List.cons_ne_nil _ _)
    have split : bytes = (utf8 time.text ++ fullStop :: utf8 digits) ++ [capitalZ] := by
      rw [List.append_assoc]
      exact written.eq
    refine ⟨by omega, last _ split, .inr ⟨place, ?_, ?_, ?_⟩, ?_, ?_⟩
    · rw [fraction, length_utf8_digits decimal]
      exact some
    · rw [fraction, length_utf8_digits decimal]
      exact short
    · rw [fraction]
      exact isDigit_utf8 decimal
    · intro plain
      rw [place] at plain
      cases plain
    · rw [stampFractionMs, if_pos place, fraction, digitsValue_take decimal short]
      rfl

theorem stamp_of_denotes {instant : Int} (denotes : Denotes text instant) :
    Sound (utf8 text) ∧ (0 ≤ instant → Shaped (utf8 text)) ∧
      instant = (stampTime (utf8 text)).secondNumber * 1000 + stampFractionMs (utf8 text) := by
  obtain ⟨time, fraction, present, start, year, fractional, rfl, rfl⟩ := denotes
  have fits := fits_of_exists present ⟨start, year⟩
  rw [List.append_assoc, StdText.utf8_append]
  have written := written_text fits (utf8 (fraction ++ ['Z']))
  generalize utf8 time.text ++ utf8 (fraction ++ ['Z']) = bytes at *
  have finish := finished fractional written
  have same : stampTime bytes = time := written.stampTime_eq start
  have date : stampDate bytes = time.date := congrArg CivilTime.date same
  have long := (monthLength_bounds time.date.year time.date.month).2
  have digits : ∀ octet ∈ slice bytes 0 4 ++ slice bytes 5 7 ++ slice bytes 8 10 ++
      slice bytes 11 13 ++ slice bytes 14 16 ++ slice bytes 17 19, isDigit octet = true := by
    simp only [List.forall_mem_append, written.year, written.month, written.day, written.hour,
      written.minute, written.second]
    have isDigits : ∀ width value, ∀ octet ∈ padded width value, isDigit octet = true :=
      fun width value => isDigit_utf8 (isDigit_zeroPadded width value)
    exact ⟨⟨⟨⟨⟨isDigits _ _, isDigits _ _⟩, isDigits _ _⟩, isDigits _ _⟩, isDigits _ _⟩, isDigits _ _⟩
  refine ⟨⟨written.hyphens, written.colons, ?_, finish.nothingAfter, ?_⟩, ?_, ?_⟩
  · rw [same]
    exact present
  · intro place
    rcases finish.tail with plain | ⟨_, _, _, decimal⟩
    · rw [place] at plain
      cases plain
    · exact decimal
  · intro counted
    have small := fractionMs_lt fractional
    refine ⟨finish.long, written.mark, finish.last, digits, ?_, ?_, ?_, ?_⟩
    · rcases finish.tail with plain | ⟨place, some, short, decimal⟩
      · exact .inl plain
      · exact .inr
          ⟨place, some, short, fun octet early => decimal octet (List.mem_of_mem_take early)⟩
    · rw [date]
      exact present.1.1
    · rw [date]
      exact ⟨present.1.2.1, Nat.le_trans present.1.2.2 long⟩
    · rw [same]
      omega
  · rw [same, finish.ms]

theorem written_of_shaped (shaped : Shaped bytes) (sound : Sound bytes) :
    Written bytes (stampTime bytes) (bytes.drop 19) := by
  have digits := shaped.digits
  simp only [List.forall_mem_append] at digits
  rcases digits with ⟨⟨⟨⟨⟨year, month⟩, day⟩, hour⟩, minute⟩, second⟩
  have long := shaped.long
  have field : ∀ start stop width, start < stop → stop ≤ 19 → stop - start = width →
      (∀ octet ∈ slice bytes start stop, isDigit octet = true) →
      slice bytes start stop = padded width (digitsValue (slice bytes start stop)) := by
    intro start stop width order within wide decimal
    have length := @length_slice bytes start stop (by omega)
    have some : slice bytes start stop ≠ [] := by
      rw [← List.length_pos_iff, length]
      omega
    have same := padded_digitsValue decimal some
    rw [length, wide] at same
    exact same.symm
  exact ⟨field 0 4 4 (by decide) (by decide) rfl year, field 5 7 2 (by decide) (by decide) rfl month,
    field 8 10 2 (by decide) (by decide) rfl day, field 11 13 2 (by decide) (by decide) rfl hour,
    field 14 16 2 (by decide) (by decide) rfl minute,
    field 17 19 2 (by decide) (by decide) rfl second, sound.hyphens, shaped.mark, sound.colons, rfl⟩

theorem exists_fraction (shaped : Shaped bytes) (sound : Sound bytes) :
    ∃ fraction, IsFraction fraction ∧ bytes.drop 19 = utf8 (fraction ++ ['Z']) := by
  have long := shaped.long
  rcases shaped.tail with plain | ⟨place, some, short, _⟩
  · refine ⟨[], .inl rfl, ?_⟩
    have length := sound.nothingAfter plain
    rw [← cons_drop plain, List.drop_eq_nil_of_le (Nat.le_of_eq length)]
    rfl
  · obtain ⟨digits, decimal, octets⟩ := exists_digits (sound.fraction place)
    have length := length_utf8_digits decimal
    rw [octets] at length
    refine ⟨'.' :: digits, .inr ⟨digits, rfl, by omega, by omega, decimal⟩, ?_⟩
    have cut : stampFraction bytes = (bytes.drop 20).dropLast := by
      rw [stampFraction_eq, List.tail_drop]
    have more : 20 < bytes.length := by
      have counted := congrArg List.length cut
      rw [List.length_dropLast, List.length_drop] at counted
      omega
    have split : bytes.drop 20 = stampFraction bytes ++ [capitalZ] := by
      have ending : (bytes.drop 20).getLast? = .some capitalZ := by
        rw [List.getLast?_drop, if_neg (Nat.not_le.mpr more), shaped.last]
      rw [cut]
      exact (List.dropLast_append_getLast? _ ending).symm
    rw [← cons_drop place, split, ← octets]
    change _ = fullStop :: utf8 (digits ++ ['Z'])
    rw [StdText.utf8_append]
    rfl

theorem denotes_of_stamp (shaped : Shaped (utf8 text)) (sound : Sound (utf8 text)) :
    Denotes text (stampMs (utf8 text)) := by
  have written := written_of_shaped shaped sound
  obtain ⟨fraction, fractional, rest⟩ := exists_fraction shaped sound
  rw [rest] at written
  have finish := finished fractional written
  have start := shaped.afterEpoch
  refine ⟨stampTime (utf8 text), fraction, sound.time, shaped.fields.1.1, shaped.fields.1.2,
    fractional, StdText.utf8_inj ?_, ?_⟩
  · rw [List.append_assoc, StdText.utf8_append]
    exact written.eq
  · rw [stampMs, finish.ms]
    omega

theorem stampMs_of_denotes (denotes : Denotes text ms) (shaped : Shaped (utf8 text)) :
    ms = stampMs (utf8 text) := by
  have count := (stamp_of_denotes denotes).2.2
  have start := shaped.afterEpoch
  rw [stampMs]
  omega

theorem denotes_iff :
    Denotes text ms ↔ Shaped (utf8 text) ∧ Sound (utf8 text) ∧ ms = stampMs (utf8 text) := by
  constructor
  · intro denotes
    have stamp := stamp_of_denotes denotes
    have shaped := stamp.2.1 (Int.natCast_nonneg ms)
    exact ⟨shaped, stamp.1, stampMs_of_denotes denotes shaped⟩
  · intro stamped
    rw [stamped.2.2]
    exact denotes_of_stamp stamped.1 stamped.2.1

/-- What the parser reads off a timestamp is the time that it denotes. -/
theorem toNat_of_denotes {instant : Int} {read : UInt64} (denotes : Denotes text instant)
    (accepted : parseRfc3339ToUnixMs text = .ok read) : (read.toNat : Int) = instant := by
  obtain ⟨shaped, same⟩ := parse_ok_iff.mp accepted
  have count := (stamp_of_denotes denotes).2.2
  have start := shaped.afterEpoch
  rw [same, stampMs]
  omega

end Fractions

section Exactness

variable {text : Text}

/-- The parser accepts the timestamps and no other text, and counts their milliseconds. -/
def ParsedExactly (text : Text) : Prop :=
  ∀ ms : UInt64, parseRfc3339ToUnixMs text = .ok ms ↔ Denotes text ms.toNat

/-- What has the parser's shape is read as its fields say, whatever stands between them. -/
theorem parsedExactly_iff :
    ParsedExactly text ↔ (Shaped (utf8 text) → Sound (utf8 text)) := by
  constructor
  · intro exactly shaped
    have read := parse_ok_iff.mpr ⟨shaped, stampMs_fits shaped⟩
    exact (denotes_iff.mp ((exactly _).mp read)).2.1
  · intro condition ms
    rw [parse_ok_iff, denotes_iff]
    constructor
    · intro stamped
      exact ⟨stamped.1, condition stamped.1, stamped.2⟩
    · intro stamped
      exact ⟨stamped.1, stamped.2.2⟩

end Exactness

namespace Concrete

/-- The last day of February that February 2024 does not have. -/
def thirtyFirst : Text := "2024-02-31T00:00:00Z".toList

theorem thirtyFirst_octets : utf8 thirtyFirst = [50, 48, 50, 52, 45, 48, 50, 45, 51, 49, 84, 48, 48,
    58, 48, 48, 58, 48, 48, 90] := by decide

/-- It is counted as the second of March. -/
theorem thirtyFirst_accepted : ¬ ParsedExactly thirtyFirst := by
  intro exactly
  have read : parseRfc3339ToUnixMs thirtyFirst = .ok 1709337600000 := by decide
  have sound := (denotes_iff.mp ((exactly _).mp read)).2.1
  rw [thirtyFirst_octets] at sound
  exact absurd sound.time (by decide)

end Concrete

end Pkix.Ct
