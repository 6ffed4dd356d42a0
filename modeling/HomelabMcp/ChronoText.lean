import HomelabMcp.ChronoTime
import HomelabMcp.Text

/-!
# Times as texts

The calendar of chrono and the RFC 3339 text of a time in UTC, with nine digits of a second and a
`Z`.  A year that has not four digits is written with its sign.

* `dayOfCivil_civil`: the day is known from its year, month and day of the month.
* `readText_toText`: a time of a year with four digits is read back from its text.
* `fourDigits_iff`: which days are in such a year.
* `utc_documented`: these functions behave as a caller may rely on (`Api.Documented`).
-/

namespace Chrono

/-- The character of a digit. -/
def digitChar (n : Nat) : Char := Char.ofNat (48 + n)

/-- The digit of a character. -/
def digitValue (c : Char) : Option Nat := if c.isDigit then some (c.toNat - 48) else none

/-- So many digits of a number, the last ones. -/
def fixedDigits : Nat → Nat → List Char
  | 0, _ => []
  | width + 1, n => digitChar (n / 10 ^ width % 10) :: fixedDigits width n

/-- Read so many digits behind those of a number. -/
def readDigits : Nat → Nat → List Char → Option (Nat × List Char)
  | 0, n, cs => some (n, cs)
  | width + 1, n, c :: cs => do
      let digit ← digitValue c
      readDigits width (10 * n + digit) cs
  | _ + 1, _, [] => none

/-- A digit that is written is read back. -/
theorem digitValue_digitChar {n : Nat} (h : n < 10) : digitValue (digitChar n) = some n := by
  have hall : ∀ n < 10, digitValue (digitChar n) = some n := by decide
  exact hall n h

/-- A number of fixed width is read back, what was read before counted in. -/
theorem readDigits_fixedDigits (width m n : Nat) (rest : List Char) :
    readDigits width m (fixedDigits width n ++ rest) =
      some (m * 10 ^ width + n % 10 ^ width, rest) := by
  induction width generalizing m with
  | zero => simp [readDigits, fixedDigits, Nat.mod_one]
  | succ width ih =>
      have hdigit := digitValue_digitChar (Nat.mod_lt (n / 10 ^ width) (by decide : 10 > 0))
      rw [fixedDigits, List.cons_append, readDigits, hdigit]
      refine (ih _).trans ?_
      have hsplit : n % 10 ^ (width + 1) = n % 10 ^ width + 10 ^ width * (n / 10 ^ width % 10) := by
        rw [Nat.pow_succ, Nat.mod_mul]
      rw [hsplit, Nat.pow_succ]
      congr 2
      ring

/-- A number that fits its width is read back whole. -/
theorem readDigits_of_lt {width n : Nat} (h : n < 10 ^ width) (rest : List Char) :
    readDigits width 0 (fixedDigits width n ++ rest) = some (n, rest) := by
  rw [readDigits_fixedDigits, Nat.zero_mul, Nat.zero_add, Nat.mod_eq_of_lt h]

/-- A number of fixed width has that many digits. -/
theorem length_fixedDigits (width n : Nat) : (fixedDigits width n).length = width := by
  induction width with
  | zero => rfl
  | succ width ih => rw [fixedDigits, List.length_cons, ih]

/-- Its digits are single bytes. -/
theorem ascii_fixedDigits {width n : Nat} {c : Char} (h : c ∈ fixedDigits width n) :
    c.utf8Size = 1 := by
  have hall : ∀ n < 10, (digitChar n).utf8Size = 1 := by decide
  induction width with
  | zero => cases h
  | succ width ih =>
      rcases List.mem_cons.mp h with rfl | h
      · exact hall _ (Nat.mod_lt _ (by decide))
      · exact ih h

/-- The rule of the Gregorian calendar. -/
def leapYear (year : Int) : Bool := year % 4 = 0 && (year % 100 != 0 || year % 400 = 0)

/-- The days from the start of the year 0. -/
def daysBeforeYear (year : Int) : Int :=
  365 * year + (year + 3) / 4 - (year + 99) / 100 + (year + 399) / 400

/-- The day 1970-01-01. -/
def unixEpochDay : Int := 719528

/-- The lengths of the months. -/
def monthLengths (leap : Bool) : List Nat :=
  [31, if leap then 29 else 28, 31, 30, 31, 30, 31, 31, 30, 31, 30, 31]

/-- The year of a day: the mean year finds it, or one next to it. -/
def yearOfDay (day : Int) : Int :=
  let guess := day * 400 / 146097
  if daysBeforeYear (guess + 1) ≤ day then guess + 1
  else if day < daysBeforeYear guess then guess - 1
  else guess

/-- The month and the day of the month of a day of the year, both from 1. -/
def monthAndDay : List Nat → Nat → Nat × Nat
  | [], day => (1, day + 1)
  | length :: rest, day =>
      if day < length then (1, day + 1)
      else
        let (month, day) := monthAndDay rest (day - length)
        (month + 1, day)

/-- The day of the year of a day of a month. -/
def dayOfYear : List Nat → Nat → Nat → Option Nat
  | length :: _, 1, day => if 1 ≤ day ∧ day ≤ length then some (day - 1) else none
  | length :: rest, month + 2, day => (dayOfYear rest (month + 1) day).map (length + ·)
  | _, _, _ => none

/-- Year, month and day of the month of a day since 1970. -/
def civil (day : Int) : Int × Nat × Nat :=
  let year := yearOfDay (day + unixEpochDay)
  let (month, dayOfMonth) :=
    monthAndDay (monthLengths (leapYear year)) (day + unixEpochDay - daysBeforeYear year).toNat
  (year, month, dayOfMonth)

/-- The day of a date, counted from the epoch of Unix, where there is such a date. -/
def dayOfCivil (year : Int) (month day : Nat) : Option Int :=
  (dayOfYear (monthLengths (leapYear year)) month day).map fun n : Nat =>
    daysBeforeYear year + (n : Int) - unixEpochDay

/-- A year is as long as its months are together. -/
theorem daysBeforeYear_succ (year : Int) :
    daysBeforeYear (year + 1) = daysBeforeYear year + (monthLengths (leapYear year)).sum := by
  have hleap : leapYear year = true ↔ year % 4 = 0 ∧ (year % 100 ≠ 0 ∨ year % 400 = 0) := by
    simp [leapYear]
  cases h : leapYear year with
  | true =>
      have hdays := hleap.mp h
      have hsum : (monthLengths true).sum = 366 := rfl
      rw [hsum]
      unfold daysBeforeYear
      omega
  | false =>
      have hdays := mt hleap.mpr (by rw [h]; decide)
      have hsum : (monthLengths false).sum = 365 := rfl
      rw [hsum]
      unfold daysBeforeYear
      omega

/-- The mean year is 365.2425 days. -/
theorem daysBeforeYear_bounds (year : Int) :
    146097 * year - 396 ≤ 400 * daysBeforeYear year ∧
      400 * daysBeforeYear year ≤ 146097 * year + 699 := by
  unfold daysBeforeYear
  omega

/-- Every day lies in the year that is found for it. -/
theorem yearOfDay_spec (day : Int) :
    daysBeforeYear (yearOfDay day) ≤ day ∧ day < daysBeforeYear (yearOfDay day + 1) := by
  have hguess : 146097 * (day * 400 / 146097) ≤ day * 400 ∧
      day * 400 < 146097 * (day * 400 / 146097) + 146097 := by omega
  unfold yearOfDay
  dsimp only
  generalize day * 400 / 146097 = guess at hguess
  by_cases hnext : daysBeforeYear (guess + 1) ≤ day
  · have hafter := daysBeforeYear_bounds (guess + 1 + 1)
    rw [if_pos hnext]
    exact ⟨hnext, by omega⟩
  · rw [if_neg hnext]
    by_cases hbefore : day < daysBeforeYear guess
    · have hprevious := daysBeforeYear_bounds (guess - 1)
      rw [if_pos hbefore, Int.sub_add_cancel]
      exact ⟨by omega, hbefore⟩
    · rw [if_neg hbefore]
      exact ⟨Int.not_lt.mp hbefore, Int.not_le.mp hnext⟩

/-- Every day of a year lies in the month that is found for it. -/
theorem monthAndDay_spec {lengths : List Nat} {day : Nat} (h : day < lengths.sum) :
    dayOfYear lengths (monthAndDay lengths day).1 (monthAndDay lengths day).2 = some day ∧
      1 ≤ (monthAndDay lengths day).1 ∧ (monthAndDay lengths day).1 ≤ lengths.length ∧
      ∃ length ∈ lengths, (monthAndDay lengths day).2 ≤ length := by
  induction lengths generalizing day with
  | nil => cases h
  | cons length rest ih =>
      rw [monthAndDay]
      by_cases hfirst : day < length
      · rw [if_pos hfirst]
        refine ⟨?_, Nat.le_refl 1, Nat.succ_pos _, length, List.mem_cons_self, hfirst⟩
        rw [dayOfYear, if_pos ⟨Nat.succ_pos day, hfirst⟩, Nat.add_sub_cancel]
      · have hrest : day - length < rest.sum := by
          rw [List.sum_cons] at h
          omega
        obtain ⟨hday, hlow, hhigh, l, hl, hle⟩ := ih hrest
        rw [if_neg hfirst]
        generalize monthAndDay rest (day - length) = found at hday hlow hhigh hle ⊢
        obtain ⟨month, dayOfMonth⟩ := found
        refine ⟨?_, Nat.succ_pos _, Nat.succ_le_succ hhigh, l, List.mem_cons_of_mem _ hl, hle⟩
        obtain ⟨m, rfl⟩ := Nat.exists_eq_succ_of_ne_zero (Nat.pos_iff_ne_zero.mp hlow)
        dsimp only at hday ⊢
        rw [dayOfYear, hday, Option.map_some]
        congr 1
        omega

/-- **A day is known from its year, month and day of the month.** -/
theorem dayOfCivil_civil (day : Int) :
    dayOfCivil (civil day).1 (civil day).2.1 (civil day).2.2 = some day ∧
      (civil day).2.1 ≤ 12 ∧ (civil day).2.2 ≤ 31 := by
  obtain ⟨hfrom, hto⟩ := yearOfDay_spec (day + unixEpochDay)
  rw [daysBeforeYear_succ] at hto
  unfold civil dayOfCivil
  dsimp only
  generalize yearOfDay (day + unixEpochDay) = year at hfrom hto
  have hday : (day + unixEpochDay - daysBeforeYear year).toNat <
      (monthLengths (leapYear year)).sum := by omega
  obtain ⟨hfound, -, hmonth, length, hlength, hle⟩ := monthAndDay_spec hday
  have hlong : ∀ leap, ∀ length ∈ monthLengths leap, length ≤ 31 := by decide
  rw [hfound, Option.map_some, Option.some.injEq]
  exact ⟨by omega, hmonth, hle.trans (hlong _ _ hlength)⟩

/-- A year with four digits, or with a sign and at least four. -/
def yearText (year : Int) : List Char :=
  if 0 ≤ year ∧ year ≤ 9999 then fixedDigits 4 year.toNat
  else (if year < 0 then '-' else '+') ::
    if year.natAbs < 10000 then fixedDigits 4 year.natAbs else Nat.toDigits 10 year.natAbs

/-- Whether the time lies in a leap second, which the fraction tells. -/
def DateTime.inLeapSecond (time : DateTime) : Bool := 1000000000 ≤ time.frac

/-- `to_rfc3339_opts` with nanoseconds and `Z`; a leap second is the second 60. -/
def DateTime.toText (time : DateTime) : String :=
  let (year, month, day) := civil time.day
  let (second, nanos) := if time.inLeapSecond then (time.secs % 60 + 1, time.frac - 1000000000)
    else (time.secs % 60, time.frac)
  String.ofList (yearText year ++ '-' :: (fixedDigits 2 month ++ '-' :: (fixedDigits 2 day ++
    'T' :: (fixedDigits 2 (time.secs / 3600) ++ ':' :: (fixedDigits 2 (time.secs / 60 % 60) ++
    ':' :: (fixedDigits 2 second ++ '.' :: (fixedDigits 9 nanos ++ ['Z'])))))))

/-- So many digits, then a character. -/
def readField (width : Nat) (stop : Char) (cs : List Char) : Option (Nat × List Char) :=
  match readDigits width 0 cs with
  | some (n, c :: rest) => if c = stop then some (n, rest) else none
  | _ => none

/-- The time of a day at a clock, where the second 60 ends a minute. -/
def atClock (day : Int) (hour minute second nanos : Nat) : Option DateTime :=
  if h : hour < 24 ∧ minute < 60 ∧ nanos < 1000000000 then
    if hs : second < 60 then
      some ⟨day, hour * 3600 + minute * 60 + second, nanos, by omega, by omega, by omega⟩
    else if second = 60 then
      some ⟨day, hour * 3600 + minute * 60 + 59, nanos + 1000000000, by omega, by omega, by omega⟩
    else none
  else none

/-- Read a text of that form. -/
def readText (text : String) : Option DateTime := do
  let (year, cs) ← readField 4 '-' text.toList
  let (month, cs) ← readField 2 '-' cs
  let (day, cs) ← readField 2 'T' cs
  let (hour, cs) ← readField 2 ':' cs
  let (minute, cs) ← readField 2 ':' cs
  let (second, cs) ← readField 2 '.' cs
  let (nanos, cs) ← readField 9 'Z' cs
  if cs.isEmpty then
    let day ← dayOfCivil year month day
    atClock day hour minute second nanos
  else none

/-- The year has four digits. -/
def DateTime.FourDigits (time : DateTime) : Prop :=
  0 ≤ (civil time.day).1 ∧ (civil time.day).1 ≤ 9999

/-- A field is read back with the character that stops it. -/
theorem readField_fixedDigits {width n : Nat} (h : n < 10 ^ width) (stop : Char)
    (rest : List Char) :
    readField width stop (fixedDigits width n ++ stop :: rest) = some (n, rest) := by
  rw [readField, readDigits_of_lt h]
  exact if_pos rfl

/-- The clock of a time puts it together again. -/
theorem atClock_of_time (time : DateTime) :
    ∃ second nanos, second < 100 ∧ nanos < 1000000000 ∧
      (if time.inLeapSecond then (time.secs % 60 + 1, time.frac - 1000000000)
        else (time.secs % 60, time.frac)) = (second, nanos) ∧
      atClock time.day (time.secs / 3600) (time.secs / 60 % 60) second nanos = some time := by
  obtain ⟨day, secs, frac, hsecs, hfrac, hleap⟩ := time
  have hclock : secs / 3600 < 24 ∧ secs / 60 % 60 < 60 := by omega
  have hsum : secs / 3600 * 3600 + secs / 60 % 60 * 60 + secs % 60 = secs := by omega
  dsimp only [DateTime.inLeapSecond]
  by_cases hin : 1000000000 ≤ frac
  · have hend := hleap hin
    have hback : frac - 1000000000 + 1000000000 = frac := by omega
    refine ⟨secs % 60 + 1, frac - 1000000000, by omega, by omega, if_pos (decide_eq_true hin), ?_⟩
    rw [atClock, dif_pos ⟨hclock.1, hclock.2, by omega⟩, dif_neg (by omega), if_pos (by omega)]
    simp only [Option.some.injEq, DateTime.mk.injEq, hback, true_and, and_true]
    omega
  · refine ⟨secs % 60, frac, by omega, by omega, if_neg (by simpa using hin), ?_⟩
    rw [atClock, dif_pos ⟨hclock.1, hclock.2, by omega⟩, dif_pos (by omega)]
    simp only [hsum]

/-- **Round trip.** -/
theorem readText_toText {time : DateTime} (h : time.FourDigits) :
    readText time.toText = some time := by
  obtain ⟨hcivil, hmonth, hday⟩ := dayOfCivil_civil time.day
  obtain ⟨second, nanos, hsecond, hnanos, hclock, htime⟩ := atClock_of_time time
  have hhour : time.secs / 3600 < 10 ^ 2 := by
    have := time.secs_lt
    omega
  have hminute : time.secs / 60 % 60 < 10 ^ 2 := by omega
  unfold DateTime.FourDigits at h
  unfold DateTime.toText readText
  generalize civil time.day = date at h hcivil hmonth hday
  obtain ⟨year, month, dayOfMonth⟩ := date
  dsimp only at h hcivil hmonth hday
  have hyear : year.toNat < 10 ^ 4 := by omega
  have hyearText : yearText year = fixedDigits 4 year.toNat := if_pos h
  have hback : ((year.toNat : Nat) : Int) = year := Int.toNat_of_nonneg h.1
  have hmonth : month < 10 ^ 2 := by omega
  have hday : dayOfMonth < 10 ^ 2 := by omega
  rw [hclock]
  dsimp only
  rw [String.toList_ofList, hyearText, readField_fixedDigits hyear]
  dsimp only [Option.bind_eq_bind, Option.bind_some]
  rw [readField_fixedDigits hmonth]
  dsimp only [Option.bind_some]
  rw [readField_fixedDigits hday]
  dsimp only [Option.bind_some]
  rw [readField_fixedDigits hhour]
  dsimp only [Option.bind_some]
  rw [readField_fixedDigits hminute]
  dsimp only [Option.bind_some]
  rw [readField_fixedDigits hsecond]
  dsimp only [Option.bind_some]
  rw [readField_fixedDigits hnanos]
  dsimp only [Option.bind_some, List.isEmpty_nil]
  rw [if_pos rfl, hback, hcivil]
  exact htime

/-- The text of another year starts with its sign, which is no digit. -/
theorem readText_toText_eq_none {time : DateTime} (h : ¬ time.FourDigits) :
    readText time.toText = none := by
  have hsign : ∃ c rest, time.toText = String.ofList (c :: rest) ∧ digitValue c = none := by
    have hyear : yearText (civil time.day).1 = _ := if_neg h
    unfold DateTime.toText
    dsimp only
    rw [hyear, List.cons_append]
    refine ⟨_, _, rfl, ?_⟩
    split_ifs
    · rfl
    · rfl
  obtain ⟨c, rest, htext, hc⟩ := hsign
  unfold readText
  rw [htext, String.toList_ofList, readField, readDigits, hc]
  rfl

/-- The text of a year with four digits has thirty characters. -/
theorem utf8ByteSize_toText {time : DateTime} (h : time.FourDigits) :
    time.toText.utf8ByteSize = 30 := by
  have hyear : yearText (civil time.day).1 = fixedDigits 4 (civil time.day).1.toNat := if_pos h
  unfold DateTime.toText
  dsimp only
  rw [hyear, Text.utf8ByteSize_of_ascii]
  · simp [length_fixedDigits]
  · intro c hc
    simp only [List.mem_append, List.mem_cons, List.not_mem_nil, or_false] at hc
    rcases hc with hc | rfl | hc | rfl | hc | rfl | hc | rfl | hc | rfl | hc | rfl | hc | rfl
    all_goals first
      | exact ascii_fixedDigits hc
      | rfl

/-- Years of four digits are those between these two days. -/
theorem fourDigits_iff (time : DateTime) :
    time.FourDigits ↔ -719528 ≤ time.day ∧ time.day < 2932897 := by
  obtain ⟨hfrom, hto⟩ := yearOfDay_spec (time.day + unixEpochDay)
  unfold DateTime.FourDigits civil
  dsimp only
  generalize yearOfDay (time.day + unixEpochDay) = year at hfrom hto
  unfold daysBeforeYear unixEpochDay at *
  omega

/-- The first and the last day of a `NaiveDate`. -/
def minDay : Int := -96465292

/-- The last day that `chrono` represents. -/
def maxDay : Int := 95026236

/-- A time, unless its day is out of range, or its nanoseconds. -/
def timeOf (day : Int) (secs nanos : Nat) : Option DateTime :=
  if h : secs < 86400 ∧ nanos < 2000000000 ∧ (1000000000 ≤ nanos → secs % 60 = 59) then
    if minDay ≤ day ∧ day ≤ maxDay then some ⟨day, secs, nanos, h.1, h.2.1, h.2.2⟩ else none
  else none

/-- `DateTime::from_timestamp`. -/
def fromTimestamp (secs : Int) (nanos : Nat) : Option DateTime :=
  timeOf (secs / 86400) (secs % 86400).toNat nanos

/-- A time some seconds later; the fraction of a leap second goes on in the second after it. -/
def DateTime.checkedAddSeconds (time : DateTime) (seconds : Nat) : Option DateTime :=
  if seconds = 0 then some time
  else
    let total := time.timestamp + seconds
    timeOf (total / 86400) (total % 86400).toNat
      (if time.inLeapSecond then time.frac - 1000000000 else time.frac)

/-- The nanoseconds since the epoch. -/
def DateTime.timestampNanos (time : DateTime) : Int := time.timestamp * 1000000000 + time.frac

/-- What a program uses of chrono, in UTC. -/
structure Api where
  /-- `DateTime::from_timestamp`. -/
  fromTimestamp : Int → Nat → Option DateTime
  /-- `checked_add_signed` of seconds that are not negative. -/
  checkedAdd : DateTime → Nat → Option DateTime
  /-- `to_rfc3339_opts` with nanoseconds and `Z`. -/
  toText : DateTime → String
  /-- `DateTime::parse_from_rfc3339` and `to_utc`. -/
  parse : String → Option DateTime

/-- What is documented: a timestamp of a day in range has its time, and times of a year with four
digits, as RFC 3339 has it, have a text that is read back. -/
structure Api.Documented (api : Api) : Prop where
  fromTimestamp : ∀ secs nanos, minDay * 86400 ≤ secs → secs < (maxDay + 1) * 86400 →
    nanos < 1000000000 →
    ∃ time, api.fromTimestamp secs nanos = some time ∧ time.timestamp = secs ∧ time.frac = nanos
  toText : ∀ time : DateTime, time.FourDigits → (api.toText time).utf8ByteSize = 30
  parse : ∀ time : DateTime, time.FourDigits → api.parse (api.toText time) = some time

/-- These functions as the ones that a caller uses. -/
def utc : Api := ⟨fromTimestamp, DateTime.checkedAddSeconds, DateTime.toText, readText⟩

/-- They behave as documented. -/
theorem utc_documented : utc.Documented where
  fromTimestamp := by
    intro secs nanos hmin hmax hnanos
    have hclock : (secs % 86400).toNat < 86400 := by omega
    have hday : minDay ≤ secs / 86400 ∧ secs / 86400 ≤ maxDay := by
      unfold minDay maxDay at *
      omega
    have hvalid : (secs % 86400).toNat < 86400 ∧ nanos < 2000000000 ∧
        (1000000000 ≤ nanos → (secs % 86400).toNat % 60 = 59) := by omega
    refine ⟨⟨secs / 86400, (secs % 86400).toNat, nanos, hvalid.1, hvalid.2.1, hvalid.2.2⟩, ?_, ?_,
      rfl⟩
    · exact (dif_pos hvalid).trans (if_pos hday)
    · unfold DateTime.timestamp
      dsimp only
      omega
  toText _ := utf8ByteSize_toText
  parse _ := readText_toText

end Chrono
